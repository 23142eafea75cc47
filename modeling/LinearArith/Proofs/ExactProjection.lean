import LinearArith.Proofs.EliminationStates

/-! Each step of an elimination is an exact projection of the solutions. What a step drops on the way
changes none: a true row without unknowns, and a row whose left side is a positive multiple of that of
a row which says at least as much. -/

namespace LinearArith

namespace Row

/-! ### Directions -/

/-- The left sides are positive multiples of each other. -/
def Parallel (r s : Row) : Prop := ∃ q : Rat, 0 < q ∧ s.linear = r.linear.scale q

theorem Parallel.symm {r s : Row} (h : Parallel r s) : Parallel s r := by
  obtain ⟨q, hq, hs⟩ := h
  refine ⟨q⁻¹, inv_pos.mpr hq, ?_⟩
  rw [hs, LinComb.scale_scale, mul_inv_cancel₀ hq.ne', LinComb.scale_one]

theorem Parallel.trans {r s t : Row} (hrs : Parallel r s) (hst : Parallel s t) : Parallel r t := by
  obtain ⟨p, hp, hs⟩ := hrs
  obtain ⟨q, hq, ht⟩ := hst
  exact ⟨p * q, mul_pos hp hq, by rw [ht, hs, LinComb.scale_scale]⟩

theorem parallel_normalize (r : Row) : Parallel r r.normalize := by
  rcases r.normalize_eq with h | ⟨q, hq, h⟩
  · exact ⟨1, one_pos, by rw [h, LinComb.scale_one]⟩
  · exact ⟨q, hq, by rw [h, scale]⟩

theorem linear_normalize_of_parallel {r s : Row} (h : Parallel r s) :
    r.normalize.linear = s.normalize.linear := by
  obtain ⟨q, hq, hs⟩ := h
  have hlist : s.linear.toList = r.linear.toList.map fun e => (e.1, e.2 * q) := by
    rw [hs, LinComb.toList_scale hq.ne']
  cases hr : r.linear.toList with
  | nil =>
    have hsnil : s.linear.toList = [] := by rw [hlist, hr, List.map_nil]
    rw [normalize_of_nil hr, normalize_of_nil hsnil]
    exact LinComb.ext (by rw [hr, hsnil])
  | cons e es =>
    rw [hr, List.map_cons] at hlist
    -- the factor `q` is also in the first coefficient, and cancels
    have hfactor : q * (magnitude (e.2 * q))⁻¹ = (magnitude e.2)⁻¹ := by
      rw [magnitude_mul_of_pos hq, mul_inv_rev, ← mul_assoc, mul_inv_cancel₀ hq.ne', one_mul]
    rw [normalize_of_cons hr, normalize_of_cons hlist, scale, scale, hs, LinComb.scale_scale, hfactor]

theorem linear_normalize_eq_iff {r s : Row} :
    r.normalize.linear = s.normalize.linear ↔ Parallel r s := by
  constructor
  · intro h
    have hr : Parallel r s.normalize := by
      obtain ⟨q, hq, he⟩ := r.parallel_normalize
      exact ⟨q, hq, h ▸ he⟩
    exact hr.trans s.parallel_normalize.symm
  · exact linear_normalize_of_parallel

/-! ### What may be dropped -/

def SameSolutions (rows kept : List Row) : Prop :=
  ∀ v : String → Rat, (∀ r ∈ kept, r.holdsAt v = true) ↔ ∀ r ∈ rows, r.holdsAt v = true

/-- The rows that are kept are some of the rows, normalized; there is one in each direction, and it
says what all the rows in this direction say. -/
structure Tightens (kept rows : List Row) : Prop where
  members : ∀ r ∈ kept, ∃ s ∈ rows, r = s.normalize
  apart : kept.Pairwise fun r s => ¬Parallel r s
  covers : ∀ s ∈ rows, ∃ r ∈ kept, Parallel r s ∧
    ∀ v, r.holdsAt v = true → s.holdsAt v = true

theorem Tightens.sameSolutions {kept rows : List Row} (h : Tightens kept rows) :
    SameSolutions rows kept := by
  intro v
  constructor
  · intro hkept s hs
    obtain ⟨r, hr, -, himp⟩ := h.covers s hs
    exact himp v (hkept r hr)
  · intro hrows r hr
    obtain ⟨s, hs, rfl⟩ := h.members r hr
    rw [holdsAt_normalize]
    exact hrows s hs

theorem tightens_tightest (rows : List Row) : Tightens (tightest rows) rows where
  members r hr := exists_of_mem_tightest hr
  apart := by
    refine List.Pairwise.imp_of_mem ?_ (SortedBy.ascending (_ : SortedBy Row.linear))
    intro r s hr hs hlt hpar
    obtain ⟨r', -, rfl⟩ := exists_of_mem_tightest hr
    obtain ⟨s', -, rfl⟩ := exists_of_mem_tightest hs
    have hpar' : Parallel r' s' :=
      (r'.parallel_normalize.trans hpar).trans s'.parallel_normalize.symm
    rw [linear_normalize_eq_iff.mpr hpar'] at hlt
    simp at hlt
  covers s hs := by
    obtain ⟨r, hr, hc⟩ := (exists_covers_foldl rows SortedBy.empty).1 s hs
    refine ⟨r, hr, ?_, fun v hv => ?_⟩
    · obtain ⟨q, hq, he⟩ := s.parallel_normalize.symm
      exact ⟨q, hq, by rw [hc.1]; exact he⟩
    · rw [← holdsAt_normalize]
      exact hc.holdsAt hv

/-- A row without unknowns that is no contradiction holds everywhere. -/
theorem sameSolutions_filter_isConstant {rows : List Row}
    (h : ∀ r ∈ rows, r.isContradiction = false) :
    SameSolutions rows (rows.filter (!·.isConstant)) := by
  intro v
  constructor
  · intro hlive r hr
    by_cases hc : r.isConstant = true
    · rw [holdsAt_of_isConstant hc, h r hr]
      rfl
    · exact hlive r (List.mem_filter.mpr ⟨hr, by simpa using hc⟩)
  · exact fun hrows r hr => hrows r (List.mem_filter.mp hr).1

end Row

namespace Elimination

/-! ### Steps -/

/-- The values of the other unknowns that satisfy `left` are those which some value of `x` completes to
values that satisfy `rows`, and `left` does not speak of `x`. -/
structure Projects (x : String) (rows left : List Row) : Prop where
  exact : ∀ v : String → Rat, (∀ r ∈ left, r.holdsAt v = true) ↔
    ∃ q : Rat, ∀ r ∈ rows, r.holdsAt (Function.update v x q) = true
  free : ∀ r ∈ left, x ∉ r.linear.keys

theorem projects_of_project {x : String} {rows left : List Row}
    (hstep : project x rows = .ok left) : Projects x rows left where
  exact v := by
    rw [forall_project_iff hstep]
    constructor
    · rintro ⟨hzero, hsums⟩
      exact ⟨_, forall_holdsAt_update_iff.mpr ⟨hzero, between_of_resolvents hsums⟩⟩
    · rintro ⟨q, hq⟩
      refine ⟨(forall_holdsAt_update_iff.mp hq).1, fun r hr => ?_⟩
      have hr' := forall_resolvents (Row.stable_holdsAt (Function.update v x q)) hq r hr
      obtain ⟨upper, -, lower, -, hpos, hneg, rfl⟩ := mem_resolvents_iff.mp hr
      rwa [Row.holdsAt_update_of_coeff (Row.coeff_resolve hpos hneg)] at hr'
  free r hr := by
    rw [LinComb.mem_keys_iff, not_not]
    exact coeff_eq_zero_of_mem_project hstep hr

theorem not_exists_holdsAt_of_resolvents {x : String} {rows : List Row}
    (h : ∃ r ∈ resolvents x rows, r.isContradiction = true) :
    ¬∃ v : String → Rat, ∀ r ∈ rows, r.holdsAt v = true := by
  rintro ⟨v, hv⟩
  obtain ⟨r, hr, hc⟩ := h
  have hholds := forall_resolvents (Row.stable_holdsAt v) hv r hr
  rw [Row.not_holdsAt_of_isContradiction hc v] at hholds
  cases hholds

/-- The rows of a state have the solutions that values for the unknowns eliminated so far complete to
solutions of the rows in the beginning. -/
theorem Reaches.forall_holdsAt_iff {rows current : List Row} {xs : List String}
    (h : Reaches rows xs current) (v : String → Rat) :
    (∀ r ∈ current, r.holdsAt v = true) ↔
      ∃ w : String → Rat, (∀ y ∈ xs, w y = v y) ∧ ∀ r ∈ rows, r.holdsAt w = true := by
  induction h generalizing v with
  | start h =>
    constructor
    · exact fun hv => ⟨v, fun _ _ => rfl, (Row.sameSolutions_filter_isConstant h v).mp hv⟩
    · rintro ⟨w, hagree, hw⟩ r hr
      have heval : r.linear.eval v = r.linear.eval w := by
        apply LinComb.eval_congr
        intro y hy
        exact (hagree y (mem_unknowns_iff.mpr ⟨r, hr, LinComb.mem_keys_iff.mp hy⟩)).symm
      rw [Row.holdsAt_eq, heval, ← Row.holdsAt_eq]
      exact hw r (List.mem_filter.mp hr).1
  | @step x xs current left h hstep ih =>
    rw [(projects_of_project hstep).exact]
    constructor
    · rintro ⟨q, hq⟩
      obtain ⟨w, hagree, hw⟩ := (ih _).mp hq
      -- only `x` has another value, and it is none of the unknowns that are left
      refine ⟨w, fun y hy => ?_, hw⟩
      have hne : y ≠ x := fun he => h.not_mem (he ▸ hy)
      rw [hagree y (List.mem_cons_of_mem x hy), Function.update_of_ne hne]
    · rintro ⟨w, hagree, hw⟩
      refine ⟨w x, (ih _).mpr ⟨w, fun y hy => ?_, hw⟩⟩
      by_cases he : y = x
      · rw [he, Function.update_self]
      · rw [Function.update_of_ne he]
        exact hagree y ((List.mem_cons.mp hy).resolve_left he)

theorem not_isConstant_of_mem_candidates {rows current : List Row} {x : String} {xs : List String}
    (h : Reaches rows (x :: xs) current) : ∀ r ∈ candidates x current, r.isConstant = false := by
  intro r hr
  rcases List.mem_append.mp hr with hr | hr
  · exact h.live.nonconstant r (List.mem_filter.mp hr).1
  · simpa using (List.mem_filter.mp hr).2

/-- Each step of a run is an exact projection. If no sum is a contradiction the step leaves rows that do
not speak of `x`, and their solutions are those which some value of `x` completes to a solution of the
rows there were; if some sum is, the run ends and there was no solution. True rows without unknowns are
dropped, and all but the tightest row in each direction, and no solution changes by that. So the rows of
each state are a projection of the rows in the beginning. -/
theorem steps_project_exactly {rows current : List Row} {x : String} {xs : List String}
    (h : Reaches rows (x :: xs) current) :
    (∃ earlier, run rows = (eliminate (x :: xs) current).map (earlier ++ ·)) ∧
    ((∀ r ∈ resolvents x current, r.isContradiction = false) →
      ∃ left, project x current = .ok left ∧ Reaches rows xs left ∧ Projects x current left ∧
        Row.SameSolutions (resolvents x current) ((resolvents x current).filter (!·.isConstant)) ∧
        (∀ r ∈ candidates x current, r.isConstant = false) ∧
        Row.Tightens left (candidates x current) ∧ Row.SameSolutions (candidates x current) left) ∧
    ((∃ r ∈ resolvents x current, r.isContradiction = true) →
      (∃ r, project x current = .error r ∧ run rows = .error r) ∧
        ¬∃ v : String → Rat, ∀ r ∈ current, r.holdsAt v = true) ∧
    Row.SameSolutions rows (rows.filter (!·.isConstant)) ∧
    ∀ v : String → Rat, (∀ r ∈ current, r.holdsAt v = true) ↔
      ∃ w : String → Rat, (∀ y ∈ x :: xs, w y = v y) ∧ ∀ r ∈ rows, r.holdsAt w = true := by
  refine ⟨h.exists_run_eq, fun hnone => ?_, fun hsome => ?_, ?_, h.forall_holdsAt_iff⟩
  · have hstep := project_eq_ok hnone
    have htight := Row.tightens_tightest (candidates x current)
    exact ⟨_, hstep, h.step hstep, projects_of_project hstep,
      Row.sameSolutions_filter_isConstant hnone, not_isConstant_of_mem_candidates h, htight,
      htight.sameSolutions⟩
  · obtain ⟨r, -, -, he⟩ := project_eq_error hsome
    exact ⟨⟨r, he, h.run_eq_error he⟩, not_exists_holdsAt_of_resolvents hsome⟩
  · exact Row.sameSolutions_filter_isConstant h.not_isContradiction

/-- Of `-2 * y ≤ 0` and the sum `-y < 0`, which are equally tight, the strict one is left. -/
theorem projects_to_strict_bound :
    ∃ left, project "x" [⟨LinComb.ofList [("x", 1), ("y", -1)], 0, true, .empty⟩,
        ⟨LinComb.ofList [("x", 2), ("y", 2)], 4, false, .empty⟩,
        ⟨LinComb.ofList [("x", -1)], 0, false, .empty⟩,
        ⟨LinComb.ofList [("y", -2)], 0, false, .empty⟩] = .ok left ∧
      left.map (fun r => (r.linear.toList, r.bound, r.strict)) =
        [([("y", -1)], 0, true), ([("y", 1)], 2, false)] ∧
      Projects "x" [⟨LinComb.ofList [("x", 1), ("y", -1)], 0, true, .empty⟩,
        ⟨LinComb.ofList [("x", 2), ("y", 2)], 4, false, .empty⟩,
        ⟨LinComb.ofList [("x", -1)], 0, false, .empty⟩,
        ⟨LinComb.ofList [("y", -2)], 0, false, .empty⟩] left := by
  generalize hrows : ([⟨LinComb.ofList [("x", 1), ("y", -1)], 0, true, .empty⟩,
    ⟨LinComb.ofList [("x", 2), ("y", 2)], 4, false, .empty⟩,
    ⟨LinComb.ofList [("x", -1)], 0, false, .empty⟩,
    ⟨LinComb.ofList [("y", -2)], 0, false, .empty⟩] : List Row) = rows
  have hstart : Reaches rows (unknowns rows) rows :=
    .of_not_isConstant (by subst hrows; decide +kernel)
  rw [show unknowns rows = ["x", "y"] by subst hrows; decide +kernel] at hstart
  obtain ⟨left, hstep, -, hproj, -⟩ :=
    (steps_project_exactly hstart).2.1 (by subst hrows; decide +kernel)
  refine ⟨left, hstep, ?_, hproj⟩
  have hvalues : (project "x" rows).map (·.map fun r => (r.linear.toList, r.bound, r.strict)) =
      .ok [([("y", -1)], 0, true), ([("y", 1)], 2, false)] := by subst hrows; decide +kernel
  rw [hstep] at hvalues
  exact Except.ok.inj hvalues

end Elimination
end LinearArith
