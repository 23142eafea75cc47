import LinearArith.Proofs.Projection

/-! Values chosen for the unknowns from the last stage of an elimination to the first satisfy the rows
that were eliminated, so a scenario without contradiction has a solution. -/

namespace LinearArith

namespace Witness

theorem value_insert (x : String) (q : Rat) (w : Witness) :
    value (w.insert (x, q)) = Function.update w.value x q := by
  funext y
  simp only [value, get?, SortedBy.find?_insert]
  by_cases h : x = y
  · subst h
    rw [if_pos rfl, Function.update_self]
    rfl
  · rw [if_neg h, Function.update_of_ne (Ne.symm h)]
    rfl

theorem isSome_get?_insert {x y : String} {q : Rat} {w : Witness} :
    (get? y (w.insert (x, q))).isSome = true ↔ y = x ∨ (w.get? y).isSome = true := by
  simp only [get?, SortedBy.find?_insert]
  by_cases h : x = y
  · simp [h]
  · simp [h, Ne.symm h]

end Witness

theorem Row.isConstant_of_normalize {r : Row} (h : r.normalize.isConstant = true) :
    r.isConstant = true := by
  rcases r.normalize_eq with he | ⟨q, hq, he⟩
  · rwa [he] at h
  · rw [he, isConstant_iff] at h
    apply isConstant_iff.mpr
    apply LinComb.eq_empty_of_coeff
    intro x
    have hx : (r.linear.scale q).coeff x = 0 := by
      rw [show r.linear.scale q = LinComb.empty from h, LinComb.coeff_empty]
    rw [LinComb.coeff_scale] at hx
    exact (mul_eq_zero.mp hx).resolve_right hq.ne'

namespace Stage

/-- What makes a stage solvable where the later unknowns have the given values: the ends set for its
own unknown are those of an interval with the value chosen in it, and no other unknown of its rows
lacks a value. -/
structure Ready (values : Witness) (s : Stage) : Prop where
  between : Between (s.lower values) (s.upper values) (s.choose values)
  assigned : ∀ r ∈ s.rows, ∀ y ∈ r.linear.keys, y ≠ s.unknown → (values.get? y).isSome = true

theorem between_of_resolvents {values : Witness} {s : Stage}
    (h : ∀ r ∈ Elimination.resolvents s.unknown s.rows, r.holdsAt values.value = true) :
    Between (s.lower values) (s.upper values) (s.choose values) :=
  Elimination.between_of_resolvents h

end Stage

theorem isSome_get?_backSubstitute {stages : List Stage} {y : String} :
    ((backSubstitute stages).get? y).isSome = true ↔ y ∈ stages.map (·.unknown) := by
  induction stages with
  | nil => simp [backSubstitute, Witness.get?, SortedBy.find?]
  | cons s stages ih =>
    rw [backSubstitute, Witness.isSome_get?_insert, ih, List.map_cons, List.mem_cons]

namespace Elimination

/-- Only the listed unknowns occur in the rows, and no row is without unknowns. -/
structure Live (xs : List String) (rows : List Row) : Prop where
  unknowns : ∀ r ∈ rows, ∀ y, r.linear.coeff y ≠ 0 → y ∈ xs
  nonconstant : ∀ r ∈ rows, r.isConstant = false

theorem Live.project {x : String} {xs : List String} {rows left : List Row}
    (h : Live (x :: xs) rows) (hstep : project x rows = .ok left) : Live xs left where
  unknowns r hr y hy := by
    have hstable : Row.Stable fun r => y ∉ x :: xs → r.linear.coeff y = 0 :=
      ⟨fun _ hr hn => by rw [Row.scale, LinComb.coeff_scale, hr hn, zero_mul],
        fun hr hs hn => by rw [Row.add, LinComb.coeff_add, hr hn, hs hn, add_zero]⟩
    have hrows : ∀ r ∈ rows, y ∉ x :: xs → r.linear.coeff y = 0 := fun r hr hn =>
      not_not.mp fun hne => hn (h.unknowns r hr y hne)
    have hmem : y ∈ x :: xs := not_not.mp fun hn =>
      hy (forall_project hstable hrows hstep r hr hn)
    have hne : y ≠ x := by
      rintro rfl
      exact hy (coeff_eq_zero_of_mem_project hstep hr)
    exact (List.mem_cons.mp hmem).resolve_left hne
  nonconstant r hr := by
    obtain ⟨s, rfl, hs⟩ := exists_of_mem_project hstep hr
    have hc : s.isConstant = false := by
      rcases hs with ⟨hs, -⟩ | ⟨-, hc⟩
      · exact h.nonconstant s hs
      · exact hc
    exact Bool.eq_false_iff.mpr fun hn => by
      rw [Row.isConstant_of_normalize hn] at hc
      cases hc

theorem Live.eq_nil {rows : List Row} (h : Live [] rows) : rows = [] := by
  apply List.eq_nil_iff_forall_not_mem.mpr
  intro r hr
  have hc : r.isConstant = true := by
    apply Row.isConstant_iff.mpr
    apply LinComb.eq_empty_of_coeff
    intro y
    by_contra hne
    cases h.unknowns r hr y hne
  rw [h.nonconstant r hr] at hc
  cases hc

/-- What one step leaves can be satisfied: then the step's own stage is ready, and the value chosen
for its unknown satisfies the rows there were before. -/
theorem ready_of_project {x : String} {xs : List String} {rows left : List Row} {values : Witness}
    (hlive : Live (x :: xs) rows) (hstep : project x rows = .ok left)
    (hassigned : ∀ y ∈ xs, (values.get? y).isSome = true)
    (hleft : ∀ r ∈ left, r.holdsAt values.value = true) :
    Stage.Ready values ⟨x, rows.filter (mentions x)⟩ ∧
      ∀ r ∈ rows, r.holdsAt (Function.update values.value x
        (Stage.choose ⟨x, rows.filter (mentions x)⟩ values)) = true := by
  obtain ⟨hzero, hres⟩ := (forall_project_iff hstep).mp hleft
  have hbetween := @Stage.between_of_resolvents values ⟨x, rows.filter (mentions x)⟩
    fun r hr => by
      obtain ⟨upper, hu, lower, hl, hpos, hneg, rfl⟩ := mem_resolvents_iff.mp hr
      exact hres _ (mem_resolvents_iff.mpr ⟨upper, (List.mem_filter.mp hu).1, lower,
        (List.mem_filter.mp hl).1, hpos, hneg, rfl⟩)
  refine ⟨⟨hbetween, fun r hr y hy hne => ?_⟩, fun r hr => ?_⟩
  · have hmem := hlive.unknowns r (List.mem_filter.mp hr).1 y (LinComb.mem_keys_iff.mp hy)
    exact hassigned y ((List.mem_cons.mp hmem).resolve_left hne)
  · by_cases hm : mentions x r = true
    · refine forall_holdsAt_update_iff.mpr ⟨fun r hr hz => ?_, hbetween⟩ r
        (List.mem_filter.mpr ⟨hr, hm⟩)
      exact hzero r (List.mem_filter.mp hr).1 hz
    · have hz : r.linear.coeff x = 0 := not_not.mp fun hne => hm (mentions_iff.mpr hne)
      rw [Row.holdsAt_update_of_coeff hz]
      exact hzero r hr hz

/-- An elimination without contradiction has a stage for each unknown, every stage is ready once the
later unknowns have their values, and all values together satisfy the rows. -/
theorem of_eliminate_ok {xs : List String} {rows : List Row} {stages : List Stage}
    (hlive : Live xs rows) (h : eliminate xs rows = .ok stages) :
    stages.map (·.unknown) = xs ∧
      (∀ earlier s later, stages = earlier ++ s :: later → s.Ready (backSubstitute later)) ∧
      ∀ r ∈ rows, r.holdsAt (backSubstitute stages).value = true := by
  induction xs generalizing rows stages with
  | nil =>
    have hs : [] = stages := Except.ok.inj h
    subst hs
    refine ⟨rfl, fun earlier s later he => ?_, ?_⟩
    · cases earlier <;> cases he
    · rw [hlive.eq_nil]
      simp
  | cons x xs ih =>
    obtain ⟨left, later, hstep, hlater, rfl⟩ := eliminate_cons_eq_ok h
    obtain ⟨hunknowns, hready, hleft⟩ := ih (hlive.project hstep) hlater
    have hassigned : ∀ y ∈ xs, ((backSubstitute later).get? y).isSome = true := fun y hy =>
      isSome_get?_backSubstitute.mpr (hunknowns ▸ hy)
    obtain ⟨hfirst, hrows⟩ := ready_of_project hlive hstep hassigned hleft
    refine ⟨by rw [List.map_cons, hunknowns], fun earlier s rest he => ?_, ?_⟩
    · cases earlier with
      | nil =>
        obtain ⟨rfl, rfl⟩ := List.cons.inj he
        exact hfirst
      | cons s' earlier => exact hready earlier s rest (List.cons.inj he).2
    · rw [backSubstitute, Witness.value_insert]
      exact hrows

theorem mem_unknowns_iff {rows : List Row} {y : String} :
    y ∈ unknowns rows ↔ ∃ r ∈ rows, r.linear.coeff y ≠ 0 := by
  simp only [unknowns, SortedBy.mem_ofList_iff, List.mem_flatMap, LinComb.mem_keys_iff]

/-- The same of a whole run, where the rows without unknowns are true. -/
theorem of_run_ok {rows : List Row} {stages : List Stage} (h : run rows = .ok stages) :
    (∀ y, y ∈ stages.map (·.unknown) ↔ ∃ r ∈ rows, r.linear.coeff y ≠ 0) ∧
      (∀ earlier s later, stages = earlier ++ s :: later → s.Ready (backSubstitute later)) ∧
      ∀ r ∈ rows, r.holdsAt (backSubstitute stages).value = true := by
  unfold run at h
  split at h
  next => cases h
  next hfind =>
    have hlive : Live (unknowns (rows.filter (!·.isConstant))) (rows.filter (!·.isConstant)) := by
      refine ⟨fun r hr y hy => mem_unknowns_iff.mpr ⟨r, hr, hy⟩, fun r hr => ?_⟩
      simpa using (List.mem_filter.mp hr).2
    obtain ⟨hunknowns, hready, hrows⟩ := of_eliminate_ok hlive h
    refine ⟨fun y => ?_, hready, fun r hr => ?_⟩
    · rw [hunknowns, mem_unknowns_iff]
      constructor
      · rintro ⟨r, hr, hy⟩
        exact ⟨r, (List.mem_filter.mp hr).1, hy⟩
      · rintro ⟨r, hr, hy⟩
        refine ⟨r, List.mem_filter.mpr ⟨hr, ?_⟩, hy⟩
        have hc : ¬r.isConstant = true := fun hc => by
          rw [Row.isConstant_iff.mp hc, LinComb.coeff_empty] at hy
          exact hy rfl
        simpa using hc
    · by_cases hc : r.isConstant = true
      · -- a contradiction would have ended the run
        have hn : r.isContradiction = false := by simpa using List.find?_eq_none.mp hfind r hr
        rw [Row.holdsAt_of_isConstant hc, hn]
        rfl
      · exact hrows r (List.mem_filter.mpr ⟨hr, by simpa using hc⟩)

end Elimination

namespace Scenario

theorem mem_unknowns_iff {s : Scenario} {x : String} :
    x ∈ s.unknowns.toList ↔ ∃ c ∈ s.toList, x ∈ c.unknowns := by
  rw [unknowns, SortedBy.mem_ofList_iff, List.mem_flatMap]

theorem coeff_rows_iff {s : Scenario} {x : String} :
    (∃ r ∈ s.toList.flatMap Row.ofConstraint, r.linear.coeff x ≠ 0) ↔ x ∈ s.unknowns.toList := by
  rw [mem_unknowns_iff]
  constructor
  · rintro ⟨r, hr, hx⟩
    obtain ⟨c, hc, hr⟩ := List.mem_flatMap.mp hr
    exact ⟨c, hc, (Row.coeff_ofConstraint hr).mp hx⟩
  · rintro ⟨c, hc, hx⟩
    obtain ⟨r, hr⟩ := List.exists_mem_of_ne_nil _ (Row.ofConstraint_ne_nil c)
    exact ⟨r, List.mem_flatMap.mpr ⟨c, hc, hr⟩, (Row.coeff_ofConstraint hr).mpr hx⟩

theorem foldl_insertNew_eq_self {xs : List String} {w : Witness}
    (h : ∀ x ∈ xs, (w.get? x).isSome = true) :
    xs.foldl (fun w x => w.insertNew (x, 0)) w = w := by
  induction xs with
  | nil => rfl
  | cons x xs ih =>
    have hx : w.hasKey x = true := by
      have hsome := h x (by simp)
      rwa [Witness.get?, Option.isSome_map] at hsome
    rw [List.foldl_cons, SortedBy.insertNew_eq_self (b := (x, 0)) hx]
    exact ih fun y hy => h y (by simp [hy])

theorem certificate_cases (s : Scenario) :
    (∃ r, Elimination.run (s.toList.flatMap Row.ofConstraint) = .error r ∧
      s.certificate = .infeasible (s.multipliersOf r)) ∨
    ∃ stages, Elimination.run (s.toList.flatMap Row.ofConstraint) = .ok stages ∧
      s.certificate = .feasible (backSubstitute stages) := by
  unfold certificate
  cases h : Elimination.run (s.toList.flatMap Row.ofConstraint) with
  | error r => exact Or.inl ⟨r, rfl, rfl⟩
  | ok stages =>
    refine Or.inr ⟨stages, rfl, ?_⟩
    have hassigned : ∀ x ∈ s.unknowns.toList, ((backSubstitute stages).get? x).isSome = true :=
      fun x hx => isSome_get?_backSubstitute.mpr
        (((Elimination.of_run_ok h).1 x).mpr (coeff_rows_iff.mpr hx))
    exact congrArg Certificate.feasible (foldl_insertNew_eq_self hassigned)

theorem exists_stages_of_feasible {s : Scenario} {w : Witness} (h : s.certificate = .feasible w) :
    ∃ stages, Elimination.run (s.toList.flatMap Row.ofConstraint) = .ok stages ∧
      w = backSubstitute stages := by
  rcases s.certificate_cases with ⟨r, -, hc⟩ | ⟨stages, hrun, hc⟩
  · rw [hc] at h
    cases h
  · exact ⟨stages, hrun, Certificate.feasible.inj (h.symm.trans hc)⟩

theorem assigned_iff_of_certificate {s : Scenario} {w : Witness}
    (h : s.certificate = .feasible w) (x : String) :
    (w.get? x).isSome = true ↔ x ∈ s.unknowns.toList := by
  obtain ⟨stages, hrun, rfl⟩ := exists_stages_of_feasible h
  rw [isSome_get?_backSubstitute, (Elimination.of_run_ok hrun).1, coeff_rows_iff]

theorem satisfies_of_certificate {s : Scenario} {w : Witness}
    (h : s.certificate = .feasible w) : w.satisfies s = true := by
  have hassigned := assigned_iff_of_certificate h
  obtain ⟨stages, hrun, rfl⟩ := exists_stages_of_feasible h
  have hrows := (Elimination.of_run_ok hrun).2.2
  rw [Witness.satisfies, List.all_eq_true]
  intro c hc
  rw [Witness.meets, Bool.and_eq_true, List.all_eq_true]
  constructor
  · intro x hx
    exact (hassigned x).mpr (mem_unknowns_iff.mpr ⟨c, hc, hx⟩)
  · exact Row.forall_ofConstraint_iff.mp fun r hr =>
      hrows r (List.mem_flatMap.mpr ⟨c, hc, hr⟩)

/-- Witnesses of elimination are solutions: they give values to the unknowns of the scenario and to no
others, and every constraint holds. They are the values that back substitution chose, at each stage
from an interval that is not empty and with values for all other unknowns of its rows. -/
theorem certificate_feasible_solves {s : Scenario} {w : Witness}
    (h : s.certificate = .feasible w) :
    (∀ x, (w.get? x).isSome = true ↔ x ∈ s.unknowns.toList) ∧
      w.satisfies s = true ∧
      ∃ stages, Elimination.run (s.toList.flatMap Row.ofConstraint) = .ok stages ∧
        w = backSubstitute stages ∧
        ∀ earlier stage later, stages = earlier ++ stage :: later →
          stage.Ready (backSubstitute later) := by
  obtain ⟨stages, hrun, hw⟩ := exists_stages_of_feasible h
  exact ⟨assigned_iff_of_certificate h, satisfies_of_certificate h, stages, hrun, hw,
    (Elimination.of_run_ok hrun).2.1⟩

theorem feasible_solves_of_two_unknowns :
    ∃ w, certificate (.ofList [.single "x" 2 .gt 1,
        ⟨LinComb.ofList [("x", 1), ("y", -1)], .lt, 0⟩, .single "y" 3 .le 4]) = .feasible w ∧
      w.toList = [("x", 11 / 12), ("y", 4 / 3)] ∧
      w.satisfies (.ofList [.single "x" 2 .gt 1,
        ⟨LinComb.ofList [("x", 1), ("y", -1)], .lt, 0⟩, .single "y" 3 .le 4]) = true := by
  have h : certificate (.ofList [.single "x" 2 .gt 1,
      ⟨LinComb.ofList [("x", 1), ("y", -1)], .lt, 0⟩, .single "y" 3 .le 4]) =
      .feasible ⟨[("x", 11 / 12), ("y", 4 / 3)], by decide⟩ := by decide +kernel
  exact ⟨_, h, rfl, (certificate_feasible_solves h).2.1⟩

end Scenario
end LinearArith
