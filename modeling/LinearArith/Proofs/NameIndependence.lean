import LinearArith.Proofs.Renaming
import LinearArith.Proofs.Soundness

/-! Names do not matter: under other names the same scenarios are enumerated, with the same ranks, and
those with a solution still have one. So the verdict is the same; only the values and multipliers may be
others, since unknowns are eliminated in the order of their names. -/

namespace LinearArith

/-! ### Constraints and scenarios -/

namespace Constraint
variable (f : Renaming)

theorem rename_injective : Function.Injective (rename f) := by
  rintro ⟨l, r, q⟩ ⟨l', r', q'⟩ he
  simp only [rename, mk.injEq] at he ⊢
  exact ⟨f.relabels_name.relabel_injective f.injective he.1, he.2⟩

theorem isStaticallyFalse_rename (c : Constraint) :
    (c.rename f).isStaticallyFalse = c.isStaticallyFalse :=
  congrArg (· && !c.relation.holds 0 c.constant) (f.relabels_name.isEmpty_relabel c.linear)

theorem holdsAt_rename (v : String → Rat) (c : Constraint) :
    (c.rename f).holdsAt v = c.holdsAt (v ∘ f.name) :=
  congrArg (c.relation.holds · c.constant) (f.relabels_name.eval_relabel v c.linear)

theorem mem_unknowns_rename {y : String} {c : Constraint} :
    y ∈ (c.rename f).unknowns ↔ ∃ x ∈ c.unknowns, f.name x = y :=
  f.relabels_name.mem_keys_relabel

end Constraint

theorem Renaming.relabels_constraint (f : Renaming) :
    SortedBy.Relabels (id : Constraint → Constraint) id (Constraint.rename f) (Constraint.rename f) :=
  ⟨Constraint.rename_injective f, fun _ => rfl⟩

namespace Scenario
variable (f : Renaming)

theorem mem_rename {d : Constraint} {s : Scenario} :
    d ∈ (s.rename f).toList ↔ ∃ c ∈ s.toList, c.rename f = d := f.relabels_constraint.mem_image

theorem rename_injective : Function.Injective (rename f) :=
  f.relabels_constraint.image_injective (Constraint.rename_injective f)

theorem hasStaticFalsehood_rename (s : Scenario) :
    (s.rename f).hasStaticFalsehood = s.hasStaticFalsehood := by
  rw [hasStaticFalsehood, rename, (f.relabels_constraint.image_perm s).any_eq, List.any_map]
  simp only [Function.comp_def, Constraint.isStaticallyFalse_rename, hasStaticFalsehood]

theorem holdsAt_rename (v : String → Rat) (s : Scenario) :
    (s.rename f).holdsAt v = s.holdsAt (v ∘ f.name) := by
  rw [holdsAt, rename, (f.relabels_constraint.image_perm s).all_eq, List.all_map]
  simp only [Function.comp_def, Constraint.holdsAt_rename, holdsAt]

theorem unknowns_rename (s : Scenario) : (s.rename f).unknowns = s.unknowns.image f.name := by
  apply SortedBy.eq_of_mem_iff
  intro y
  simp only [unknowns, f.relabels_name.mem_image, SortedBy.mem_ofList_iff, List.mem_flatMap]
  constructor
  · rintro ⟨d, hd, hy⟩
    obtain ⟨c, hc, rfl⟩ := (mem_rename f).mp hd
    obtain ⟨x, hx, rfl⟩ := (Constraint.mem_unknowns_rename f).mp hy
    exact ⟨x, ⟨c, hc, hx⟩, rfl⟩
  · rintro ⟨x, ⟨c, hc, hx⟩, rfl⟩
    exact ⟨c.rename f, (mem_rename f).mpr ⟨c, hc, rfl⟩,
      (Constraint.mem_unknowns_rename f).mpr ⟨x, hx, rfl⟩⟩

theorem ofList_eq_rename {l l' : List Constraint}
    (h : ∀ d, d ∈ l' ↔ ∃ c ∈ l, c.rename f = d) :
    (SortedBy.ofList l' : Scenario) = Scenario.rename f (SortedBy.ofList l) := by
  apply SortedBy.eq_of_mem_iff
  intro d
  simp only [mem_rename, SortedBy.mem_ofList_iff, h]

theorem exists_holdsAt_rename (s : Scenario) :
    (∃ v, (s.rename f).holdsAt v = true) ↔ ∃ v, s.holdsAt v = true := by
  simp only [holdsAt_rename]
  have hsurj : Function.Surjective fun v : String → Rat => v ∘ f.name :=
    f.injective.surjective_comp_right
  exact (hsurj.exists (p := fun v => s.holdsAt v = true)).symm

end Scenario

/-! ### The enumeration -/

namespace Proposition

theorem optionLists_append (ps qs : List Proposition) :
    optionLists (ps ++ qs) = optionLists ps ++ optionLists qs := by
  rw [optionLists, List.map_append, List.filter_append, optionLists, optionLists]

theorem optionLists_typed (vs : List Variable) :
    optionLists (vs.map typed) = (vs.filterMap Variable.bound?).map fun c => [c] := by
  induction vs with
  | nil => rfl
  | cons v vs ih =>
    rw [List.map_cons, ← List.singleton_append, optionLists_append, ih]
    cases h : v.bound? <;> simp [optionLists, options, h]

theorem optionLists_eq_map {g : Constraint → Constraint} {ps qs : List Proposition}
    (h : qs.map options = (ps.map options).map (List.map g)) :
    optionLists qs = (optionLists ps).map (List.map g) := by
  rw [optionLists, h, List.filter_map]
  simp only [Function.comp_def, List.isEmpty_map, optionLists]

end Proposition

namespace ProofState

def bounds (s : ProofState) : List Constraint :=
  (s.scope.toList.filter Variable.isReal).filterMap Variable.bound?

/-- What a search starts from besides the declarations. -/
def claims (s : ProofState) : List Proposition := s.hypotheses.map (·.claim) ++ [s.negatedGoal]

theorem space_negatedProblem (s : ProofState) :
    Enumeration.space (Proposition.optionLists s.negatedProblem) =
      (product (Proposition.optionLists s.claims)).map fun cs => SortedBy.ofList (s.bounds ++ cs) := by
  have hlists : Proposition.optionLists s.negatedProblem =
      (s.bounds.map fun c => [c]) ++ Proposition.optionLists s.claims := by
    rw [negatedProblem, facts, List.append_assoc, Proposition.optionLists_append,
      Proposition.optionLists_typed]
    simp only [Bool.not_true, Bool.false_or, bounds, claims]
  rw [hlists, Enumeration.space, product_singletons_append, List.map_map]
  rfl

variable (f : Renaming)

theorem mem_bounds_rename {s : ProofState} {d : Constraint} :
    d ∈ (s.rename f).bounds ↔ ∃ c ∈ s.bounds, c.rename f = d := by
  simp only [bounds, rename, List.mem_filterMap, List.mem_filter, f.relabels_variable.mem_image]
  constructor
  · rintro ⟨_, ⟨⟨v, hv, rfl⟩, hreal⟩, hd⟩
    rw [Variable.bound?_rename, Option.map_eq_some_iff] at hd
    obtain ⟨c, hc, rfl⟩ := hd
    exact ⟨c, ⟨v, ⟨hv, hreal⟩, hc⟩, rfl⟩
  · rintro ⟨c, ⟨v, ⟨hv, hreal⟩, hc⟩, rfl⟩
    refine ⟨v.rename f, ⟨⟨v, hv, rfl⟩, hreal⟩, ?_⟩
    rw [Variable.bound?_rename, hc]
    rfl

theorem optionLists_claims_rename (s : ProofState) :
    Proposition.optionLists (s.rename f).claims =
      (Proposition.optionLists s.claims).map (List.map (Constraint.rename f)) := by
  apply Proposition.optionLists_eq_map
  simp only [claims, rename, negatedGoal, List.map_append, List.map_map, List.map_cons, List.map_nil,
    Proposition.options_negate_rename, Function.comp_def, Hypothesis.rename,
    Proposition.options_rename]

/-- The bounds may change places within each pick, the picks keep theirs. -/
theorem space_rename (s : ProofState) :
    Enumeration.space (Proposition.optionLists (s.rename f).negatedProblem) =
      (Enumeration.space (Proposition.optionLists s.negatedProblem)).map (Scenario.rename f) := by
  rw [space_negatedProblem, space_negatedProblem, optionLists_claims_rename, product_map,
    List.map_map, List.map_map]
  apply List.map_congr_left
  intro cs _
  apply Scenario.ofList_eq_rename
  intro d
  simp only [List.mem_append, List.mem_map, mem_bounds_rename, or_and_right, exists_or]

end ProofState

/-! ### The search -/

def IndexedScenario.rename (f : Renaming) (x : IndexedScenario) : IndexedScenario :=
  ⟨x.index, x.scenario.rename f⟩

namespace Enumeration
variable (f : Renaming)

theorem fresh_rename (seen : List Scenario) (i : Nat) (ss : List Scenario) :
    fresh (seen.map (Scenario.rename f)) i (ss.map (Scenario.rename f)) =
      (fresh seen i ss).map (IndexedScenario.rename f) := by
  induction ss generalizing seen i with
  | nil => rfl
  | cons s ss ih =>
    have hseen : (seen.map (Scenario.rename f)).contains (s.rename f) = seen.contains s := by
      rw [Bool.eq_iff_iff, List.contains_iff_mem, List.contains_iff_mem]
      exact List.mem_map_of_injective (Scenario.rename_injective f)
    rw [List.map_cons, fresh, fresh, Scenario.hasStaticFalsehood_rename, hseen]
    split
    · exact ih seen (i + 1)
    · rw [List.map_cons, ← ih (s :: seen) (i + 1)]
      rfl

end Enumeration

theorem ProofState.enumeration_rename (f : Renaming) (s : ProofState) :
    (s.rename f).enumeration.toList = s.enumeration.toList.map (IndexedScenario.rename f) := by
  rw [enumeration, enumeration, Enumeration.toList_ofLists, Enumeration.toList_ofLists,
    ← Enumeration.fresh_space, ← Enumeration.fresh_space, space_rename]
  exact Enumeration.fresh_rename f [] 0 _

def Witness.unknowns (w : Witness) : SortedBy (id : String → String) :=
  w.map Prod.fst fun _ _ h => h

theorem Witness.mem_unknowns_iff {x : String} {w : Witness} :
    x ∈ w.unknowns.toList ↔ (w.get? x).isSome = true := by
  rw [unknowns, SortedBy.toList_map, List.mem_map, get?, Option.isSome_map,
    Option.isSome_iff_exists]
  simp only [SortedBy.find?_eq_some_iff]

def Multipliers.constraints (m : Multipliers) : Scenario := m.map Prod.fst fun _ _ h => h

namespace Scenario

theorem unknowns_of_certificate {s : Scenario} {w : Witness} (h : s.certificate = .feasible w) :
    w.unknowns = s.unknowns := by
  apply SortedBy.eq_of_mem_iff
  intro x
  rw [Witness.mem_unknowns_iff, assigned_iff_of_certificate h x]

theorem constraints_of_certificate {s : Scenario} {m : Multipliers}
    (h : s.certificate = .infeasible m) : m.constraints = s := by
  obtain ⟨r, -, rfl⟩ := exists_row_of_infeasible h
  apply SortedBy.ext
  simp [Multipliers.constraints, multipliersOf, Function.comp_def]

theorem exists_feasible_iff {s : Scenario} :
    (∃ w, s.certificate = .feasible w) ↔ ∃ v, s.holdsAt v = true := by
  constructor
  · rintro ⟨w, hw⟩
    exact ⟨w.value, holdsAt_of_satisfies (satisfies_of_certificate hw) fun _ => Witness.value_of_mem⟩
  · rintro ⟨v, hv⟩
    cases h : s.certificate with
    | feasible w => exact ⟨w, rfl⟩
    | infeasible m =>
      rw [holdsAt_of_infeasible h] at hv
      cases hv

/-- Of a scenario and the renamed one both have a solution or neither has. -/
theorem certificate_rename (f : Renaming) (s : Scenario) :
    (∃ w w', s.certificate = .feasible w ∧ (s.rename f).certificate = .feasible w') ∨
      ∃ m m', s.certificate = .infeasible m ∧ (s.rename f).certificate = .infeasible m' := by
  have hiff : (∃ w, (s.rename f).certificate = .feasible w) ↔ ∃ w, s.certificate = .feasible w := by
    rw [exists_feasible_iff, exists_feasible_iff, exists_holdsAt_rename]
  cases h : s.certificate with
  | feasible w =>
    obtain ⟨w', hw'⟩ := hiff.mpr ⟨w, h⟩
    exact Or.inl ⟨w, w', rfl, hw'⟩
  | infeasible m =>
    cases h' : (s.rename f).certificate with
    | feasible w' =>
      obtain ⟨w, hw⟩ := hiff.mp ⟨w', h'⟩
      rw [hw] at h
      cases h
    | infeasible m' => exact Or.inr ⟨m, m', rfl, rfl⟩

-- to exchange the names changes nothing in `x + y = 1`, but the values are not the same
example : certificate (.ofList [⟨.ofList [("x", 1), ("y", 1)], .eq, 1⟩]) =
    .feasible ⟨[("x", 1), ("y", 0)], by decide⟩ := by decide +kernel

end Scenario

/-- The second case is the first under other names; its multipliers may be others. -/
structure ProvedCase.RenamedTo (f : Renaming) (c c' : ProvedCase) : Prop where
  index : c'.index = c.index
  scenario : c'.scenario = c.scenario.rename f
  constraints : c'.multipliers.constraints = c.multipliers.constraints.rename f

/-- The second verdict is the first under other names; its values and multipliers may be others. -/
inductive Verdict.RenamedTo (f : Renaming) : Verdict → Verdict → Prop where
  | refuted {index : Nat} {s : Scenario} {w w' : Witness} {verified : Bool}
    (unknowns : w'.unknowns = w.unknowns.image f.name) :
    RenamedTo f (.refuted index s w verified) (.refuted index (s.rename f) w' verified)
  | proved {cases cases' : List ProvedCase}
    (renamed : List.Forall₂ (ProvedCase.RenamedTo f) cases cases') :
    RenamedTo f (.proved cases) (.proved cases')

theorem Verdict.RenamedTo.withCase {f : Renaming} {c c' : ProvedCase} {v v' : Verdict}
    (h : v.RenamedTo f v') (hc : c.RenamedTo f c') : (v.withCase c).RenamedTo f (v'.withCase c') := by
  cases h with
  | refuted hunknowns => exact .refuted hunknowns
  | proved hrenamed => exact .proved (.cons hc hrenamed)

theorem Search.through_rename (f : Renaming) (k : Nat) (l : List IndexedScenario) :
    ∃ v v', (through .elimination k l).result = .ok v ∧
      (through .elimination k (l.map (IndexedScenario.rename f))).result = .ok v' ∧
      v.RenamedTo f v' := by
  induction l generalizing k with
  | nil => exact ⟨_, _, rfl, rfl, .proved .nil⟩
  | cons x l ih =>
    -- the two eliminations share no step; that each is exact makes them agree
    rcases Scenario.certificate_rename f x.scenario with ⟨w, w', hw, hw'⟩ | ⟨m, m', hm, hm'⟩
    · have hunknowns : w'.unknowns = w.unknowns.image f.name := by
        rw [Scenario.unknowns_of_certificate hw, Scenario.unknowns_of_certificate hw',
          Scenario.unknowns_rename]
      refine ⟨.refuted x.index x.scenario w true, .refuted x.index (x.scenario.rename f) w' true,
        ?_, ?_, .refuted hunknowns⟩
      · simp only [through, Oracle.elimination, hw, Scenario.satisfies_of_certificate hw]
      · simp only [List.map_cons, IndexedScenario.rename, through, Oracle.elimination, hw',
          Scenario.satisfies_of_certificate hw']
    · obtain ⟨v, v', hv, hv', hrenamed⟩ := ih (k + 1)
      have hcase : ProvedCase.RenamedTo f ⟨x.index, x.scenario, m⟩
          ⟨x.index, x.scenario.rename f, m'⟩ := by
        refine ⟨rfl, rfl, ?_⟩
        rw [Scenario.constraints_of_certificate hm, Scenario.constraints_of_certificate hm']
      refine ⟨v.withCase _, v'.withCase _, ?_, ?_, hrenamed.withCase hcase⟩
      · simp only [through, Oracle.elimination, hm, hv, Except.map]
      · simp only [List.map_cons, IndexedScenario.rename, through, Oracle.elimination, hm', hv',
          Except.map]

namespace ProofState

/-- Under other names the verdict is the same. -/
theorem decide_rename (s : ProofState) (f : Renaming) :
    ∃ v v', s.decide .elimination = .ok v ∧ (s.rename f).decide .elimination = .ok v' ∧
      v.RenamedTo f v' := by
  rw [decide, decide, search, search, Search.run_eq_through, Search.run_eq_through,
    enumeration_rename]
  exact Search.through_rename f 0 s.enumeration.toList

end ProofState
end LinearArith
