import LinearArith.Constraint.Laws
import LinearArith.Proofs.Rows

/-! Every row of an elimination is the weighted sum of constraints that its `origin` tells, so a
contradiction that is found comes with multipliers that can be checked. -/

namespace LinearArith

namespace Row

/-- The row is the weighted sum of constraints of the scenario: equations may have any multiplier,
inequalities none below 0, and the row is strict if a strict constraint takes part. -/
structure SumOf (s : Scenario) (r : Row) : Prop where
  members : ∀ c ∈ r.origin.keys, c ∈ s.toList
  nonneg : ∀ c : Constraint, c.relation ≠ .eq → 0 ≤ r.origin.coeff c
  linear : ∀ x, r.linear.coeff x = r.origin.eval fun c => c.canonical.linear.coeff x
  bound : r.bound = r.origin.eval fun c => c.canonical.bound
  strict : r.strict = true ↔ ∃ c : Constraint, c.relation.isStrict = true ∧ 0 < r.origin.coeff c

theorem isStrict_ne_eq {r : Relation} (h : r.isStrict = true) : r ≠ .eq := by
  rintro rfl
  cases h

namespace SumOf
variable {s : Scenario}

theorem scale {q : Rat} (hq : 0 < q) {r : Row} (h : SumOf s r) : SumOf s (r.scale q) where
  members c hc := by
    apply h.members c
    rw [LinComb.mem_keys_iff, Row.scale, LinComb.coeff_scale] at hc
    exact LinComb.mem_keys_iff.mpr (left_ne_zero_of_mul hc)
  nonneg c hc := by
    rw [Row.scale, LinComb.coeff_scale]
    exact mul_nonneg (h.nonneg c hc) hq.le
  linear x := by
    simp only [Row.scale, LinComb.coeff_scale, LinComb.eval_scale, h.linear]
  bound := by
    simp only [Row.scale, LinComb.eval_scale, h.bound]
  strict := by
    simp only [Row.scale, LinComb.coeff_scale, h.strict, mul_pos_iff_of_pos_right hq]

theorem add {r t : Row} (hr : SumOf s r) (ht : SumOf s t) : SumOf s (r.add t) where
  members c hc := by
    rw [LinComb.mem_keys_iff, Row.add, LinComb.coeff_add] at hc
    by_cases hz : r.origin.coeff c = 0
    · rw [hz, zero_add] at hc
      exact ht.members c (LinComb.mem_keys_iff.mpr hc)
    · exact hr.members c (LinComb.mem_keys_iff.mpr hz)
  nonneg c hc := by
    rw [Row.add, LinComb.coeff_add]
    exact add_nonneg (hr.nonneg c hc) (ht.nonneg c hc)
  linear x := by
    simp only [Row.add, LinComb.coeff_add, LinComb.eval_add, hr.linear, ht.linear]
  bound := by
    simp only [Row.add, LinComb.eval_add, hr.bound, ht.bound]
  strict := by
    simp only [Row.add, Bool.or_eq_true, hr.strict, ht.strict, LinComb.coeff_add]
    -- strict constraints are inequalities, so their multipliers cannot cancel
    constructor
    · rintro (⟨c, hc, hpos⟩ | ⟨c, hc, hpos⟩)
      · exact ⟨c, hc, add_pos_of_pos_of_nonneg hpos (ht.nonneg c (isStrict_ne_eq hc))⟩
      · exact ⟨c, hc, add_pos_of_nonneg_of_pos (hr.nonneg c (isStrict_ne_eq hc)) hpos⟩
    · rintro ⟨c, hc, hpos⟩
      by_cases hz : 0 < r.origin.coeff c
      · exact Or.inl ⟨c, hc, hz⟩
      · exact Or.inr ⟨c, hc, by linarith⟩

theorem stable (s : Scenario) : Stable (SumOf s) :=
  ⟨fun hq hr => hr.scale hq, fun hr ht => hr.add ht⟩

theorem single {c : Constraint} (q : Rat) {r : Row} (hc : c ∈ s.toList)
    (hq : 0 < q ∨ c.relation = .eq) (ho : r.origin = LinComb.single c q)
    (hl : ∀ x, r.linear.coeff x = q * c.canonical.linear.coeff x)
    (hb : r.bound = q * c.canonical.bound)
    (hs : r.strict = true ↔ c.relation.isStrict = true) : SumOf s r where
  members d hd := by
    rw [LinComb.mem_keys_iff, ho, LinComb.coeff_single] at hd
    by_cases he : c = d
    · exact he ▸ hc
    · exact absurd (if_neg he) hd
  nonneg d hd := by
    rw [ho, LinComb.coeff_single]
    by_cases he : c = d
    · subst he
      rw [id, if_pos rfl]
      rcases hq with hq | hq
      · exact hq.le
      · exact absurd hq hd
    · rw [id, if_neg he]
  linear x := by rw [hl, ho, LinComb.eval_single, id]
  bound := by rw [hb, ho, LinComb.eval_single, id]
  strict := by
    rw [hs, ho]
    constructor
    · intro hc
      have hpos : 0 < q := hq.resolve_right (isStrict_ne_eq hc)
      exact ⟨c, hc, by rwa [LinComb.coeff_single, id, if_pos rfl]⟩
    · rintro ⟨d, hd, hpos⟩
      rw [LinComb.coeff_single] at hpos
      by_cases he : c = d
      · exact he ▸ hd
      · rw [id, if_neg he] at hpos
        exact absurd hpos (lt_irrefl 0)

theorem ofConstraint {c : Constraint} (hc : c ∈ s.toList) : ∀ r ∈ Row.ofConstraint c, SumOf s r := by
  intro r hr
  unfold Row.ofConstraint at hr
  by_cases he : c.canonical.kind = .equal
  · have hrel : c.relation = .eq := Constraint.canonical_kind_equal_iff.mp he
    simp only [if_pos he, List.mem_cons, List.not_mem_nil, or_false] at hr
    rcases hr with rfl | rfl
    · refine single 1 hc (Or.inr hrel) rfl (fun x => by simp) (by simp) ?_
      simp [Constraint.canonical_kind_strict_iff]
    · refine single (-1) hc (Or.inr hrel) rfl (fun x => ?_) (by simp) ?_
      · rw [LinComb.neg, LinComb.coeff_scale, mul_comm]
      · simp [hrel, Relation.isStrict]
  · simp only [if_neg he, List.mem_singleton] at hr
    subst hr
    refine single 1 hc (Or.inl one_pos) rfl (fun x => by simp) (by simp) ?_
    simp [Constraint.canonical_kind_strict_iff]

theorem of_mem_rows : ∀ r ∈ s.toList.flatMap Row.ofConstraint, SumOf s r := by
  intro r hr
  obtain ⟨c, hc, hr⟩ := List.mem_flatMap.mp hr
  exact ofConstraint hc r hr

end SumOf
end Row

namespace Multipliers

theorem coeff_sum (x : String) (es : List (Constraint × Rat)) :
    (sum es).linear.coeff x =
      LinComb.total id (fun c : Constraint => c.canonical.linear.coeff x) es := by
  induction es with
  | nil => rfl
  | cons e es ih =>
    rw [LinComb.total_cons, ← ih, sum, LinComb.coeff_add, LinComb.coeff_scale, mul_comm, id]

theorem bound_sum (es : List (Constraint × Rat)) :
    (sum es).bound = LinComb.total id (fun c : Constraint => c.canonical.bound) es := by
  induction es with
  | nil => rfl
  | cons e es ih => rw [LinComb.total_cons, ← ih, sum, mul_comm, id]

theorem kind_sum_strict_iff {es : List (Constraint × Rat)} :
    (sum es).kind = .strict ↔ ∃ e ∈ es, e.1.relation.isStrict = true := by
  induction es with
  | nil => simp [sum]
  | cons e es ih =>
    have hj : ∀ k l : BoundKind, k.join l = .strict ↔ k = .strict ∨ l = .strict := by
      intro k l
      cases k <;> cases l <;> simp [BoundKind.join]
    rw [sum, hj, ih, Constraint.canonical_kind_strict_iff]
    simp only [List.mem_cons, exists_eq_or_imp]

end Multipliers

namespace Scenario

theorem used_multipliersOf {s : Scenario} {r : Row} (h : ∀ c ∈ r.origin.keys, c ∈ s.toList) :
    (s.multipliersOf r).used = r.origin.toList := by
  have he : (s.multipliersOf r).filter (fun e => e.2 != 0) =
      (r.origin.toSortedBy : Multipliers) := by
    apply SortedBy.eq_of_mem_iff
    intro e
    simp only [SortedBy.toList_filter, multipliersOf, SortedBy.toList_map, List.mem_filter,
      List.mem_map, bne_iff_ne]
    constructor
    · rintro ⟨⟨c, hc, rfl⟩, hne⟩
      obtain ⟨d, hd, hk⟩ := List.mem_map.mp (LinComb.mem_keys_iff.mpr hne)
      have hd' : r.origin.coeff d.1 = d.2 := LinComb.coeff_of_mem hd
      have hk : d.1 = c := hk
      rw [← hk, hd']
      exact hd
    · intro he
      have hq : r.origin.coeff e.1 = e.2 := LinComb.coeff_of_mem he
      have hc : e.1 ∈ s.toList := h e.1 (List.mem_map.mpr ⟨e, he, rfl⟩)
      exact ⟨⟨e.1, hc, by rw [hq]⟩, r.origin.nonzero e he⟩
  exact congrArg SortedBy.toList he

theorem fits_of_sumOf {s : Scenario} {r : Row} (h : r.SumOf s) :
    ∀ e ∈ (s.multipliersOf r).toList, e.1.relation ≠ .eq → 0 ≤ e.2 := by
  intro e he hne
  obtain ⟨c, hc, rfl⟩ := List.mem_map.mp he
  exact h.nonneg c hne

/-- The multipliers of a row give the row again as their combination. -/
theorem combination_multipliersOf {s : Scenario} {r : Row} (h : r.SumOf s) :
    ∃ c, (s.multipliersOf r).combination = some c ∧ c.linear = r.linear ∧ c.constant = r.bound ∧
      (c.relation = .lt ↔ r.strict = true) ∧ c.relation.isLower = false := by
  have hu : (s.multipliersOf r).used = r.origin.toList := used_multipliersOf h.members
  have hfits : (s.multipliersOf r).used.all Multipliers.fits = true := by
    rw [List.all_eq_true]
    intro e he
    have hn := fits_of_sumOf h e (List.mem_filter.mp he).1
    by_cases heq : e.1.relation = .eq
    · simp [Multipliers.fits, heq]
    · simp [Multipliers.fits, hn heq]
  refine ⟨_, if_pos hfits, ?_, ?_, ?_, ?_⟩
  · apply LinComb.eq_of_coeff_eq
    intro x
    rw [h.linear, hu]
    exact Multipliers.coeff_sum x r.origin.toList
  · rw [h.bound, hu]
    exact Multipliers.bound_sum r.origin.toList
  · have hk : ∀ k : BoundKind, k.relation = .lt ↔ k = .strict := by
      intro k
      cases k <;> simp [BoundKind.relation]
    rw [hk, Multipliers.kind_sum_strict_iff, hu, h.strict]
    constructor
    · -- an inequality that takes part has a positive multiplier, since it has none below 0
      rintro ⟨e, he, hs⟩
      have hq : r.origin.coeff e.1 = e.2 := LinComb.coeff_of_mem he
      have hne : e.2 ≠ 0 := r.origin.nonzero e he
      have hge : 0 ≤ r.origin.coeff e.1 := h.nonneg e.1 (Row.isStrict_ne_eq hs)
      exact ⟨e.1, hs, lt_of_le_of_ne hge (by rw [hq]; exact hne.symm)⟩
    · rintro ⟨c, hs, hpos⟩
      obtain ⟨e, he, hk⟩ := List.mem_map.mp (LinComb.mem_keys_iff.mpr hpos.ne')
      have hk : e.1 = c := hk
      exact ⟨e, he, by rw [hk]; exact hs⟩
  · cases (Multipliers.sum (s.multipliersOf r).used).kind <;> rfl

/-- Where elimination finds a contradiction, the multipliers of that row refute the scenario. -/
theorem isStaticallyFalse_combination {s : Scenario} {r : Row} (h : r.SumOf s)
    (hc : r.isContradiction = true) :
    ∃ c, (s.multipliersOf r).combination = some c ∧ c.isStaticallyFalse = true := by
  obtain ⟨c, hsome, hlin, hconst, hstrict, hlower⟩ := combination_multipliersOf h
  refine ⟨c, hsome, ?_⟩
  obtain ⟨hempty, hbound⟩ := Bool.and_eq_true_iff.mp hc
  have hz : c.linear.isEmpty = true := by rw [hlin]; exact hempty
  have hf : c.relation.holds 0 c.constant = false := by
    rw [hconst]
    cases hr : c.relation <;> simp only [hr, Relation.isLower, reduceCtorEq] at hstrict hlower <;>
      simp_all [Relation.holds]
    · exact hbound.ne'
  rw [Constraint.isStaticallyFalse, hz, hf]
  rfl

/-- Certificates of elimination are valid: they give a multiplier to every constraint, no inequality
has a negative one, and the weighted sum has no unknown left and is false. -/
theorem certificate_infeasible_valid {s : Scenario} {m : Multipliers}
    (h : s.certificate = .infeasible m) :
    m.toList.map (·.1) = s.toList ∧
      (∀ e ∈ m.toList, e.1.relation ≠ .eq → 0 ≤ e.2) ∧
      (∃ c, m.combination = some c ∧ c.linear = LinComb.empty ∧ c.isStaticallyFalse = true) ∧
      m.isValid = true := by
  obtain ⟨r, hrun, rfl⟩ := exists_row_of_infeasible h
  have hrows : ∀ r ∈ s.toList.flatMap Row.ofConstraint, r.SumOf s := by
    intro r hr
    obtain ⟨c, hc, hr⟩ := List.mem_flatMap.mp hr
    exact Row.SumOf.ofConstraint hc r hr
  obtain ⟨hsum, hcontra⟩ := Elimination.of_run_error (Row.SumOf.stable s) hrows hrun
  obtain ⟨c, hc, hfalse⟩ := isStaticallyFalse_combination hsum hcontra
  have hempty : c.linear = LinComb.empty :=
    LinComb.isEmpty_iff.mp (Bool.and_eq_true_iff.mp hfalse).1
  refine ⟨?_, fits_of_sumOf hsum, ⟨c, hc, hempty, hfalse⟩, ?_⟩
  · simp [multipliersOf, Function.comp_def]
  · simp [Multipliers.isValid, hc, hfalse]

/-- The equation alone has a negative multiplier, and the constraint that is not needed has 0. -/
theorem infeasible_valid_of_equation :
    ∃ m, certificate (.ofList [.single "x" 1 .gt 0, .single "x" 1 .lt 1, .single "x" 1 .eq 1]) =
        .infeasible m ∧
      m.toList.map (·.2) = [-1, 1, 0] ∧ m.isValid = true := by
  have h : certificate (.ofList [.single "x" 1 .gt 0, .single "x" 1 .lt 1, .single "x" 1 .eq 1]) =
      .infeasible ⟨[(.single "x" 1 .eq 1, -1), (.single "x" 1 .lt 1, 1), (.single "x" 1 .gt 0, 0)],
        by decide⟩ := by decide +kernel
  exact ⟨_, h, rfl, (certificate_infeasible_valid h).2.2.2⟩

end Scenario
end LinearArith
