import LinearArith.Options
import LinearArith.Proofs.Linearization
import Mathlib.Tactic.Linarith

/-! Where a proposition has options it is true exactly if one of them holds. -/

namespace LinearArith

theorem Constraint.holdsAt_ofForm (v : String → Rat) (f : LinearForm) (r : Relation) :
    (Constraint.ofForm f r).holdsAt v = r.holds (f.eval v) 0 := by
  have he : (Constraint.ofForm f r).linear.eval v = f.linear.eval v :=
    LinComb.eval_names v f.linear
  rw [holdsAt, he, LinearForm.eval]
  apply Bool.eq_iff_iff.mpr
  cases r <;> simp only [ofForm, Relation.holds, decide_eq_true_eq] <;> constructor <;>
    intro h <;> linarith

theorem Constraint.holdsAt_single (v : String → Rat) (x : String) (r : Relation) (q : Rat) :
    (Constraint.single x 1 r q).holdsAt v = r.holds (v x) q := by
  have he : (Constraint.single x 1 r q).linear.eval v = v x := by
    rw [single, LinComb.eval_single, id, one_mul]
  rw [holdsAt, he]
  rfl

namespace Comparison

theorem holds_sub (c : Comparison) (p q : Rat) : c.holds (p - q) 0 = c.holds p q := by
  apply Bool.eq_iff_iff.mpr
  cases c <;> simp [holds, sub_eq_zero]

theorem exists_case_iff (c : Comparison) (p : Rat) :
    (∃ r ∈ c.cases, r.holds p 0 = true) ↔ c.holds p 0 = true := by
  cases c <;> simp [cases, Relation.holds, holds]

end Comparison

theorem eval_of_realDifference? (ρ : Interpretation) {l r : Term} {f : LinearForm}
    (h : realDifference? l r = some f) : f.eval ρ.value = l.value ρ - r.value ρ := by
  unfold realDifference? at h
  split at h
  next g hg =>
    split at h
    next => rw [← Option.some.inj h, Term.eval_of_linearDifference ρ hg]
    next => cases h
  next => cases h

namespace Proposition

theorem exists_option_compare_iff (ρ : Interpretation) {c : Comparison} {l r : Term} {f : LinearForm}
    (h : realDifference? l r = some f) :
    (∃ o ∈ (compare c l r).options, o.holdsAt ρ.value = true) ↔ (compare c l r).Holds ρ := by
  have ho : (compare c l r).options = c.cases.map (.ofForm f) := by simp only [options, h]
  have hc := c.exists_case_iff (f.eval ρ.value)
  rw [eval_of_realDifference? ρ h, Comparison.holds_sub] at hc
  rw [ho, Holds, ← hc]
  simp only [List.mem_map, exists_exists_and_eq_and, Constraint.holdsAt_ofForm,
    eval_of_realDifference? ρ h]

theorem options_typed_ne_nil_iff {v : Variable} :
    (typed v).options ≠ [] ↔ v.hasRealSign = true := by
  rw [Variable.hasRealSign_iff]
  by_cases hr : v.isReal = true
  · by_cases hp : v.isPositive = true
    · simp [options, Variable.bound?, hr, hp, Variable.isNonnegative_of_isPositive hp]
    · by_cases hn : v.isNonnegative = true <;> simp [options, Variable.bound?, hr, hp, hn]
  · simp [options, Variable.bound?, hr]

/-- The option of a typed fact is its sign, sharpened for integers. -/
theorem exists_option_typed_iff (ρ : Interpretation) {v : Variable} (hs : v.hasRealSign = true) :
    (∃ o ∈ (typed v).options, o.holdsAt ρ.value = true) ↔ (typed v).HoldsSharply ρ := by
  obtain ⟨hr, hn⟩ := Variable.hasRealSign_iff.mp hs
  by_cases hp : v.isPositive = true
  · by_cases hi : v.isInteger = true
    · have ho : (typed v).options = [.single v.name 1 .ge 1] := by
        simp [options, Variable.bound?, hr, hp, hi]
      simp [ho, HoldsSharply, hp, hi, Constraint.holdsAt_single, Relation.holds]
    · have ho : (typed v).options = [.single v.name 1 .gt 0] := by
        simp [options, Variable.bound?, hr, hp, hi]
      simp [ho, HoldsSharply, hp, hi, Constraint.holdsAt_single, Relation.holds, Holds, hs,
        Variable.SignHolds]
  · have ho : (typed v).options = [.single v.name 1 .ge 0] := by
      simp [options, Variable.bound?, hr, hp, hn]
    simp [ho, HoldsSharply, hp, Constraint.holdsAt_single, Relation.holds, Holds, hs,
      Variable.SignHolds]

theorem exists_option_iff (ρ : Interpretation) {p : Proposition} (h : p.options ≠ []) :
    (∃ o ∈ p.options, o.holdsAt ρ.value = true) ↔ p.HoldsSharply ρ := by
  cases p with
  | truth b =>
    cases b with
    | true => exact absurd rfl h
    | false =>
      have hf : Constraint.falsum.holdsAt ρ.value = false := by
        rw [Constraint.holdsAt, Constraint.falsum, LinComb.eval_empty]
        rfl
      simp [options, HoldsSharply, Holds, hf]
  | compare c l r =>
    cases hd : realDifference? l r with
    | none => exact absurd (by simp only [options, hd]) h
    | some f => exact exists_option_compare_iff ρ hd
  | typed v => exact exists_option_typed_iff ρ (options_typed_ne_nil_iff.mp h)
  | unread text => exact absurd rfl h

theorem negate_ne_typed {p : Proposition} {v : Variable} : p.negate ≠ typed v := by
  cases p with
  | typed w =>
    simp only [negate]
    split
    · simp
    · split <;> simp
  | _ => simp [negate]

theorem negate_ne_unread {p : Proposition} (h : p.negate.options ≠ []) (text : String) :
    p.negate ≠ unread text := by
  intro he
  rw [he] at h
  exact h rfl

theorem holdsSharply_negate_iff {ρ : Interpretation} {p : Proposition} (h : p.negate.options ≠ []) :
    p.negate.HoldsSharply ρ ↔ ¬p.Holds ρ :=
  (holdsSharply_iff fun _ hv => absurd hv negate_ne_typed).trans (holds_negate (negate_ne_unread h))

/-- One option of each list holds if and only if the propositions that have options are true. -/
theorem forall_optionLists_iff (ρ : Interpretation) (ps : List Proposition) :
    (∀ l ∈ optionLists ps, ∃ o ∈ l, o.holdsAt ρ.value = true) ↔
      ∀ p ∈ ps, p.options ≠ [] → p.HoldsSharply ρ := by
  simp only [optionLists, List.mem_filter, List.mem_map, Bool.not_eq_true', List.isEmpty_eq_false_iff,
    and_imp, forall_exists_index]
  constructor
  · intro h p hp ho
    exact (exists_option_iff ρ ho).mp (h p.options p hp rfl ho)
  · rintro h l p hp rfl ho
    exact (exists_option_iff ρ ho).mpr (h p hp ho)

end Proposition
end LinearArith
