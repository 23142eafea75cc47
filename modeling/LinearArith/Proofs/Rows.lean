import LinearArith.Elimination
import LinearArith.Error
import LinearArith.LinComb.Laws
import Mathlib.Algebra.Order.Field.Rat
import Mathlib.Tactic.Linarith

/-! Rows and the two operations elimination makes new ones with: sums and positive multiples. What
these keep is true of every row of an elimination. -/

namespace LinearArith

theorem magnitude_pos {q : Rat} (h : q ≠ 0) : 0 < magnitude q := by
  unfold magnitude
  split
  · linarith
  · exact lt_of_le_of_ne (by linarith) (Ne.symm h)

theorem magnitude_mul_of_pos {p q : Rat} (hq : 0 < q) : magnitude (p * q) = magnitude p * q := by
  unfold magnitude
  by_cases hp : p < 0
  · rw [if_pos hp, if_pos (mul_neg_of_neg_of_pos hp hq), neg_mul]
  · rw [if_neg hp, if_neg (not_lt.mpr (mul_nonneg (not_lt.mp hp) hq.le))]

namespace Row

theorem holdsAt_iff {v : String → Rat} {r : Row} :
    r.holdsAt v = true ↔ if r.strict then r.linear.eval v < r.bound else r.linear.eval v ≤ r.bound := by
  unfold holdsAt
  cases r.strict <;> simp

theorem holdsAt_scale {q : Rat} (hq : 0 < q) (v : String → Rat) (r : Row) :
    (r.scale q).holdsAt v = r.holdsAt v := by
  apply Bool.eq_iff_iff.mpr
  simp only [holdsAt_iff, scale, LinComb.eval_scale, mul_lt_mul_iff_left₀ hq,
    mul_le_mul_iff_left₀ hq]

theorem holdsAt_add {v : String → Rat} {r s : Row} (hr : r.holdsAt v = true)
    (hs : s.holdsAt v = true) : (r.add s).holdsAt v = true := by
  rw [holdsAt_iff] at hr hs ⊢
  simp only [add, LinComb.eval_add]
  cases hrs : r.strict <;> cases hss : s.strict <;>
    simp only [hrs, hss, Bool.or_true, Bool.or_false, if_true, Bool.false_eq_true, if_false]
      at hr hs ⊢ <;>
    linarith

theorem isConstant_iff {r : Row} : r.isConstant = true ↔ r.linear = LinComb.empty :=
  LinComb.isEmpty_iff

theorem holdsAt_of_isConstant {r : Row} (h : r.isConstant = true) (v : String → Rat) :
    r.holdsAt v = !r.isContradiction := by
  have he : r.linear.eval v = 0 := by rw [isConstant_iff.mp h, LinComb.eval_empty]
  simp only [holdsAt, isContradiction, h, he, Bool.true_and]
  apply Bool.eq_iff_iff.mpr
  cases r.strict <;> simp

theorem not_holdsAt_of_isContradiction {r : Row} (h : r.isContradiction = true)
    (v : String → Rat) : r.holdsAt v = false := by
  have hc : r.isConstant = true := (Bool.and_eq_true_iff.mp h).1
  rw [holdsAt_of_isConstant hc, h]
  rfl

theorem normalize_of_nil {r : Row} (h : r.linear.toList = []) : r.normalize = r := by
  simp only [normalize, h]

theorem normalize_of_cons {r : Row} {e : String × Rat} {es : List (String × Rat)}
    (h : r.linear.toList = e :: es) : r.normalize = r.scale (magnitude e.2)⁻¹ := by
  simp only [normalize, h]

/-- Normalizing multiplies by a positive number, if it changes the row at all. -/
theorem normalize_eq (r : Row) : r.normalize = r ∨ ∃ q, 0 < q ∧ r.normalize = r.scale q := by
  cases h : r.linear.toList with
  | nil => exact Or.inl (normalize_of_nil h)
  | cons e es =>
    have he : e.2 ≠ 0 := r.linear.nonzero e (by rw [h]; simp)
    exact Or.inr ⟨_, inv_pos.mpr (magnitude_pos he), normalize_of_cons h⟩

theorem holdsAt_normalize (v : String → Rat) (r : Row) : r.normalize.holdsAt v = r.holdsAt v := by
  rcases r.normalize_eq with h | ⟨q, hq, h⟩
  · rw [h]
  · rw [h, holdsAt_scale hq]

/-- An equation has two opposite rows, a lower bound is turned round. -/
theorem ofConstraint_cases (c : Constraint) :
    (c.relation = .eq ∧ ofConstraint c =
      [⟨c.linear, c.constant, false, LinComb.single c 1⟩,
        ⟨c.linear.neg, -c.constant, false, LinComb.single c (-1)⟩]) ∨
    ((c.relation = .le ∨ c.relation = .lt) ∧ ofConstraint c =
      [⟨c.linear, c.constant, c.relation.isStrict, LinComb.single c 1⟩]) ∨
    ((c.relation = .ge ∨ c.relation = .gt) ∧ ofConstraint c =
      [⟨c.linear.neg, -c.constant, c.relation.isStrict, LinComb.single c 1⟩]) := by
  rcases c with ⟨l, r, q⟩
  cases r with
  | eq => exact Or.inl ⟨rfl, rfl⟩
  | le => exact Or.inr (Or.inl ⟨Or.inl rfl, rfl⟩)
  | lt => exact Or.inr (Or.inl ⟨Or.inr rfl, rfl⟩)
  | ge => exact Or.inr (Or.inr ⟨Or.inl rfl, rfl⟩)
  | gt => exact Or.inr (Or.inr ⟨Or.inr rfl, rfl⟩)

theorem forall_ofConstraint_iff {v : String → Rat} {c : Constraint} :
    (∀ r ∈ ofConstraint c, r.holdsAt v = true) ↔ c.holdsAt v = true := by
  have hneg : c.linear.neg.eval v = -c.linear.eval v := by
    rw [LinComb.neg, LinComb.eval_scale, mul_neg_one]
  rcases ofConstraint_cases c with ⟨hr, ho⟩ | ⟨hr | hr, ho⟩ | ⟨hr | hr, ho⟩
  · simp [ho, holdsAt_iff, Constraint.holdsAt, hr, Relation.holds, hneg]
    exact antisymm_iff
  all_goals
    simp [ho, holdsAt_iff, Constraint.holdsAt, hr, Relation.holds, Relation.isStrict, hneg]

theorem coeff_ofConstraint {c : Constraint} {x : String} {r : Row} (h : r ∈ ofConstraint c) :
    r.linear.coeff x ≠ 0 ↔ x ∈ c.unknowns := by
  rw [Constraint.unknowns, LinComb.mem_keys_iff]
  have hneg : c.linear.neg.coeff x = -c.linear.coeff x := by
    rw [LinComb.neg, LinComb.coeff_scale, mul_neg_one]
  rcases ofConstraint_cases c with ⟨-, ho⟩ | ⟨-, ho⟩ | ⟨-, ho⟩ <;> rw [ho] at h
  · simp only [List.mem_cons, List.not_mem_nil, or_false] at h
    rcases h with rfl | rfl
    · exact Iff.rfl
    · rw [hneg, neg_ne_zero]
  · rw [List.mem_singleton.mp h]
  · rw [List.mem_singleton.mp h, hneg, neg_ne_zero]

theorem ofConstraint_ne_nil (c : Constraint) : ofConstraint c ≠ [] := by
  rcases ofConstraint_cases c with ⟨-, ho⟩ | ⟨-, ho⟩ | ⟨-, ho⟩ <;> simp [ho]

/-- A property that elimination keeps. -/
structure Stable (P : Row → Prop) : Prop where
  scale : ∀ {q r}, 0 < q → P r → P (r.scale q)
  add : ∀ {r s}, P r → P s → P (r.add s)

theorem Stable.normalize {P : Row → Prop} (hP : Stable P) {r : Row} (h : P r) : P r.normalize := by
  rcases r.normalize_eq with he | ⟨q, hq, he⟩
  · rwa [he]
  · rw [he]
    exact hP.scale hq h

theorem Stable.resolve {P : Row → Prop} (hP : Stable P) {x : String} {upper lower : Row}
    (hu : 0 < upper.linear.coeff x) (hl : lower.linear.coeff x < 0) (hpu : P upper)
    (hpl : P lower) : P (resolve x upper lower) :=
  hP.add (hP.scale (inv_pos.mpr hu) hpu) (hP.scale (inv_pos.mpr (neg_pos.mpr hl)) hpl)

theorem stable_holdsAt (v : String → Rat) : Stable fun r => r.holdsAt v = true :=
  ⟨fun hq hr => by rwa [holdsAt_scale hq], holdsAt_add⟩

theorem mem_foldl_place {r : Row} {rows : List Row} {kept : SortedBy Row.linear}
    (h : r ∈ (rows.foldl (fun kept r => kept.place tighter r.normalize) kept).toList) :
    r ∈ kept.toList ∨ ∃ s ∈ rows, r = s.normalize := by
  induction rows generalizing kept with
  | nil => exact Or.inl h
  | cons s rows ih =>
    rw [List.foldl_cons] at h
    rcases ih h with h | ⟨t, ht, rfl⟩
    · rcases SortedBy.mem_of_mem_placeIn h with rfl | h
      · exact Or.inr ⟨s, by simp, rfl⟩
      · exact Or.inl h
    · exact Or.inr ⟨t, by simp [ht], rfl⟩

theorem exists_of_mem_tightest {r : Row} {rows : List Row} (h : r ∈ tightest rows) :
    ∃ s ∈ rows, r = s.normalize := by
  rcases mem_foldl_place h with h | h
  · simp at h
  · exact h

end Row

namespace Elimination

theorem mem_resolvents_iff {x : String} {rows : List Row} {r : Row} :
    r ∈ resolvents x rows ↔ ∃ upper ∈ rows, ∃ lower ∈ rows,
      0 < upper.linear.coeff x ∧ lower.linear.coeff x < 0 ∧ r = Row.resolve x upper lower := by
  simp only [resolvents, List.mem_flatMap, List.mem_map, List.mem_filter, decide_eq_true_eq]
  constructor
  · rintro ⟨upper, ⟨hu, hpos⟩, lower, ⟨hl, hneg⟩, rfl⟩
    exact ⟨upper, hu, lower, hl, hpos, hneg, rfl⟩
  · rintro ⟨upper, hu, lower, hl, hpos, hneg, rfl⟩
    exact ⟨upper, ⟨hu, hpos⟩, lower, ⟨hl, hneg⟩, rfl⟩

/-- What one elimination step gives. -/
theorem project_cases (x : String) (rows : List Row) :
    (∃ r ∈ resolvents x rows, r.isContradiction = true ∧ project x rows = .error r) ∨
    ((∀ r ∈ resolvents x rows, r.isContradiction = false) ∧
      project x rows = .ok (Row.tightest (rows.filter (!mentions x ·) ++
        (resolvents x rows).filter (!·.isConstant)))) := by
  unfold project
  cases h : (resolvents x rows).find? Row.isContradiction with
  | some r =>
    have hr : r.isContradiction = true := List.find?_some h
    exact Or.inl ⟨r, List.mem_of_find?_eq_some h, hr, by simp only [h]⟩
  | none =>
    refine Or.inr ⟨fun r hr => ?_, by simp only [h]⟩
    simpa using List.find?_eq_none.mp h r hr

section Step
variable {x : String} {rows left : List Row} (hstep : project x rows = .ok left)
include hstep

theorem not_isContradiction_of_project : ∀ r ∈ resolvents x rows, r.isContradiction = false := by
  rcases project_cases x rows with ⟨r, -, -, he⟩ | ⟨h, -⟩
  · rw [he] at hstep
    cases hstep
  · exact h

theorem eq_of_project : left = Row.tightest (rows.filter (!mentions x ·) ++
    (resolvents x rows).filter (!·.isConstant)) := by
  rcases project_cases x rows with ⟨r, -, -, he⟩ | ⟨-, he⟩
  · rw [he] at hstep
    cases hstep
  · exact (Except.ok.inj (he.symm.trans hstep)).symm

end Step

theorem eliminate_cons_eq_error {x : String} {xs : List String} {rows : List Row} {r : Row}
    (h : eliminate (x :: xs) rows = .error r) :
    project x rows = .error r ∨ ∃ left, project x rows = .ok left ∧ eliminate xs left = .error r := by
  rw [eliminate] at h
  rcases bind_eq_error_iff.mp h with h | ⟨left, hp, h⟩
  · exact Or.inl h
  · rcases bind_eq_error_iff.mp h with h | ⟨stages, -, h⟩
    · exact Or.inr ⟨left, hp, h⟩
    · cases h

theorem eliminate_cons_eq_ok {x : String} {xs : List String} {rows : List Row}
    {stages : List Stage} (h : eliminate (x :: xs) rows = .ok stages) :
    ∃ left later, project x rows = .ok left ∧ eliminate xs left = .ok later ∧
      stages = ⟨x, rows.filter (mentions x)⟩ :: later := by
  rw [eliminate] at h
  obtain ⟨left, hp, h⟩ := bind_eq_ok_iff.mp h
  obtain ⟨later, hl, h⟩ := bind_eq_ok_iff.mp h
  exact ⟨left, later, hp, hl, (Except.ok.inj h).symm⟩

section Invariant
variable {P : Row → Prop} (hP : Row.Stable P)
include hP

theorem forall_resolvents {x : String} {rows : List Row} (h : ∀ r ∈ rows, P r) :
    ∀ r ∈ resolvents x rows, P r := by
  intro r hr
  obtain ⟨upper, hu, lower, hl, hpos, hneg, rfl⟩ := mem_resolvents_iff.mp hr
  exact hP.resolve hpos hneg (h upper hu) (h lower hl)

theorem forall_project {x : String} {rows left : List Row} (h : ∀ r ∈ rows, P r)
    (hstep : project x rows = .ok left) : ∀ r ∈ left, P r := by
  rw [eq_of_project hstep]
  intro r hr
  obtain ⟨s, hs, rfl⟩ := Row.exists_of_mem_tightest hr
  apply hP.normalize
  rcases List.mem_append.mp hs with hs | hs
  · exact h s ((List.mem_filter.mp hs).1)
  · exact forall_resolvents hP h s ((List.mem_filter.mp hs).1)

theorem of_project_error {x : String} {rows : List Row} {r : Row} (h : ∀ r ∈ rows, P r)
    (he : project x rows = .error r) : P r ∧ r.isContradiction = true := by
  rcases project_cases x rows with ⟨s, hs, hc, ho⟩ | ⟨-, ho⟩
  · have hr := Except.error.inj (ho.symm.trans he)
    subst hr
    exact ⟨forall_resolvents hP h s hs, hc⟩
  · rw [ho] at he
    cases he

theorem of_eliminate_error {xs : List String} {rows : List Row} {r : Row} (h : ∀ r ∈ rows, P r)
    (he : eliminate xs rows = .error r) : P r ∧ r.isContradiction = true := by
  induction xs generalizing rows with
  | nil => cases he
  | cons x xs ih =>
    rcases eliminate_cons_eq_error he with hp | ⟨left, hp, he⟩
    · exact of_project_error hP h hp
    · exact ih (forall_project hP h hp) he

theorem of_run_error {rows : List Row} {r : Row} (h : ∀ r ∈ rows, P r)
    (he : run rows = .error r) : P r ∧ r.isContradiction = true := by
  unfold run at he
  split at he
  next s hs =>
    have hr := Except.error.inj he
    subst hr
    exact ⟨h s (List.mem_of_find?_eq_some hs), List.find?_some hs⟩
  next =>
    exact of_eliminate_error hP (fun r hr => h r ((List.mem_filter.mp hr).1)) he

end Invariant

end Elimination

theorem Scenario.exists_row_of_infeasible {s : Scenario} {m : Multipliers}
    (h : s.certificate = .infeasible m) :
    ∃ r, Elimination.run (s.toList.flatMap Row.ofConstraint) = .error r ∧ m = s.multipliersOf r := by
  unfold certificate at h
  split at h
  next r hr => exact ⟨r, hr, (Certificate.infeasible.inj h).symm⟩
  next => cases h

end LinearArith
