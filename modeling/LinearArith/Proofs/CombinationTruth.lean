import LinearArith.Certificate
import LinearArith.Constraint.Laws
import Mathlib.Algebra.Order.Field.Rat
import Mathlib.Tactic.Linarith

/-! A weighted sum of constraints holds wherever they do. So multipliers whose sum is false on sight
refute the constraints they use, and it does not matter where they come from. -/

namespace LinearArith

namespace BoundKind

theorem holds_mul {k : BoundKind} {a b q : Rat} (h : k.relation.holds a b = true)
    (hq : k = equal ∨ 0 < q) : k.relation.holds (a * q) (b * q) = true := by
  cases k with
  | equal =>
    have hab : a = b := of_decide_eq_true h
    exact decide_eq_true (by rw [hab])
  | nonStrict =>
    have hab : a ≤ b := of_decide_eq_true h
    have hpos : 0 < q := hq.resolve_left nofun
    exact decide_eq_true (mul_le_mul_of_nonneg_right hab hpos.le)
  | strict =>
    have hab : a < b := of_decide_eq_true h
    have hpos : 0 < q := hq.resolve_left nofun
    exact decide_eq_true (mul_lt_mul_of_pos_right hab hpos)

theorem holds_le {k : BoundKind} {a b : Rat} (h : k.relation.holds a b = true) : a ≤ b := by
  cases k with
  | equal => exact le_of_eq (of_decide_eq_true h)
  | nonStrict => exact of_decide_eq_true h
  | strict => exact le_of_lt (of_decide_eq_true h)

theorem holds_join {k l : BoundKind} {a b c d : Rat} (hk : k.relation.holds a b = true)
    (hl : l.relation.holds c d = true) : (k.join l).relation.holds (a + c) (b + d) = true := by
  have hab : a ≤ b := holds_le hk
  have hcd : c ≤ d := holds_le hl
  cases k with
  | strict => exact decide_eq_true (add_lt_add_of_lt_of_le (of_decide_eq_true hk) hcd)
  | nonStrict =>
    cases l with
    | strict => exact decide_eq_true (add_lt_add_of_le_of_lt hab (of_decide_eq_true hl))
    | nonStrict => exact decide_eq_true (add_le_add hab hcd)
    | equal => exact decide_eq_true (add_le_add hab hcd)
  | equal =>
    cases l with
    | strict => exact decide_eq_true (add_lt_add_of_le_of_lt hab (of_decide_eq_true hl))
    | nonStrict => exact decide_eq_true (add_le_add hab hcd)
    | equal =>
      have heq : a = b := of_decide_eq_true hk
      have heq' : c = d := of_decide_eq_true hl
      exact decide_eq_true (by rw [heq, heq'])

end BoundKind

namespace Multipliers

theorem equal_or_pos_of_fits {e : Constraint × Rat} (h : fits e = true) (hne : e.2 ≠ 0) :
    e.1.canonical.kind = .equal ∨ 0 < e.2 := by
  rcases Bool.or_eq_true_iff.mp h with heq | hnonneg
  · exact Or.inl (Constraint.canonical_kind_equal_iff.mpr (of_decide_eq_true heq))
  · exact Or.inr (lt_of_le_of_ne (of_decide_eq_true hnonneg) (Ne.symm hne))

/-- The sum holds wherever all summands do. -/
theorem holdsAt_sum {v : String → Rat} {es : List (Constraint × Rat)}
    (hfits : ∀ e ∈ es, e.1.canonical.kind = .equal ∨ 0 < e.2)
    (hholds : ∀ e ∈ es, e.1.holdsAt v = true) : (sum es).holdsAt v = true := by
  induction es with
  | nil => simp [sum, Canonical.holdsAt, BoundKind.relation, Relation.holds]
  | cons e es ih =>
    have he : e.1.canonical.holdsAt v = true := by
      rw [Constraint.holdsAt_canonical]
      exact hholds e (by simp)
    have hes : (sum es).holdsAt v = true :=
      ih (fun d hd => hfits d (by simp [hd])) fun d hd => hholds d (by simp [hd])
    have hscaled := BoundKind.holds_mul he (hfits e (by simp))
    have hsum := BoundKind.holds_join hscaled hes
    rw [Canonical.holdsAt, sum, LinComb.eval_add, LinComb.eval_scale]
    exact hsum

theorem mem_used_iff {m : Multipliers} {e : Constraint × Rat} :
    e ∈ m.used ↔ e ∈ m.toList ∧ e.2 ≠ 0 := by
  simp [used]

theorem isValid_iff {m : Multipliers} :
    m.isValid = true ↔ (∀ e ∈ m.used, fits e = true) ∧
      Constraint.isStaticallyFalse
        ⟨(sum m.used).linear, (sum m.used).kind.relation, (sum m.used).bound⟩ = true := by
  rw [isValid, combination, ← List.all_eq_true]
  by_cases hfits : m.used.all fits = true
  · rw [if_pos hfits, Option.any_some]
    exact (and_iff_right hfits).symm
  · rw [if_neg hfits, Option.any_none]
    exact ⟨nofun, fun h => absurd h.1 hfits⟩

/-- Valid multipliers refute: no values satisfy all the constraints that have a multiplier other than
0, whatever map they are in. -/
theorem unsatisfiable_of_isValid {m : Multipliers} (h : m.isValid = true) :
    ¬∃ v : String → Rat, ∀ e ∈ m.toList, e.2 ≠ 0 → e.1.holdsAt v = true := by
  rintro ⟨v, hv⟩
  obtain ⟨hfits, hfalse⟩ := isValid_iff.mp h
  have hused : ∀ e ∈ m.used, e.1.canonical.kind = .equal ∨ 0 < e.2 := fun e he =>
    equal_or_pos_of_fits (hfits e he) (mem_used_iff.mp he).2
  have hsum : (sum m.used).holdsAt v = true := by
    apply holdsAt_sum hused
    intro e he
    obtain ⟨hmem, hne⟩ := mem_used_iff.mp he
    exact hv e hmem hne
  have hnot := Constraint.holdsAt_of_isStaticallyFalse hfalse v
  rw [Canonical.holdsAt] at hsum
  rw [Constraint.holdsAt, hsum] at hnot
  cases hnot

/-- The equation may have a negative multiplier, and the entry with 0 takes no part. -/
theorem unsatisfiable_of_negated_equation :
    isValid ⟨[(.single "x" (-1) .eq (-2), -1 / 2), (.single "x" 1 .gt 3, 1 / 2),
        (.single "y" 1 .ge 0, 0)], by decide⟩ = true ∧
      ¬∃ v : String → Rat, (Constraint.single "x" (-1) .eq (-2)).holdsAt v = true ∧
        (Constraint.single "x" 1 .gt 3).holdsAt v = true := by
  have h : isValid ⟨[(.single "x" (-1) .eq (-2), -1 / 2), (.single "x" 1 .gt 3, 1 / 2),
      (.single "y" 1 .ge 0, 0)], by decide⟩ = true := by decide +kernel
  refine ⟨h, fun ⟨v, heq, hgt⟩ => unsatisfiable_of_isValid h ⟨v, fun e he hne => ?_⟩⟩
  simp only [List.mem_cons, List.not_mem_nil, or_false] at he
  rcases he with rfl | rfl | rfl
  · exact heq
  · exact hgt
  · exact absurd rfl hne

end Multipliers
end LinearArith
