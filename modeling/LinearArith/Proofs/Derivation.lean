import LinearArith.Proofs.CombinationTruth
import LinearArith.Proofs.Provenance
import LinearArith.Proofs.Search
import LinearArith.Tactic

/-! The verbose trace of a proof is a derivation: scenario by scenario it gives the constraints, and
multiples of some of them whose sum is false on sight. -/

namespace LinearArith

/-- Multiples of constraints of the scenario, none of them by 0 and those of inequalities by positive
numbers, whose sum is false on sight. -/
structure Scenario.RefutedBy (s : Scenario) (entries : List (Constraint × Rat)) : Prop where
  members : (entries.map (·.1)).Sublist s.toList
  nonzero : ∀ e ∈ entries, e.2 ≠ 0
  positive : ∀ e ∈ entries, e.1.relation ≠ .eq → 0 < e.2
  sum_false : Constraint.isStaticallyFalse ⟨(Multipliers.sum entries).linear,
    (Multipliers.sum entries).kind.relation, (Multipliers.sum entries).bound⟩ = true

/-- The events say of each scenario in turn what its constraints are and what refutes it. -/
inductive Derivation : List IndexedScenario → Trace → Prop where
  | nil : Derivation [] []
  | cons {x : IndexedScenario} {entries : List (Constraint × Rat)} {xs : List IndexedScenario}
      {events : Trace} (head : x.scenario.RefutedBy entries) (tail : Derivation xs events) :
      Derivation (x :: xs)
        (.checking x.index x.scenario.toList :: .infeasibleBy entries :: events)

namespace Scenario

theorem exists_sumOf_of_infeasible {s : Scenario} {m : Multipliers}
    (h : s.certificate = .infeasible m) :
    ∃ r : Row, r.SumOf s ∧ r.isContradiction = true ∧ m = s.multipliersOf r := by
  obtain ⟨r, hrun, hm⟩ := exists_row_of_infeasible h
  obtain ⟨hsum, hcontra⟩ :=
    Elimination.of_run_error (Row.SumOf.stable s) Row.SumOf.of_mem_rows hrun
  exact ⟨r, hsum, hcontra, hm⟩

theorem refutedBy_used {s : Scenario} {m : Multipliers} (h : s.certificate = .infeasible m) :
    s.RefutedBy m.used := by
  obtain ⟨r, hsum, hcontra, rfl⟩ := exists_sumOf_of_infeasible h
  obtain ⟨c, hc, hfalse⟩ := isStaticallyFalse_combination hsum hcontra
  have hvalid : (s.multipliersOf r).isValid = true := by simp [Multipliers.isValid, hc, hfalse]
  have hkeys : (s.multipliersOf r).toList.map (·.1) = s.toList := by
    simp [multipliersOf, Function.comp_def]
  refine ⟨?_, fun e he => (Multipliers.mem_used_iff.mp he).2, fun e he hne => ?_,
    (Multipliers.isValid_iff.mp hvalid).2⟩
  · rw [← hkeys]
    exact List.filter_sublist.map _
  · obtain ⟨hmem, hnz⟩ := Multipliers.mem_used_iff.mp he
    exact lt_of_le_of_ne (fits_of_sumOf hsum e hmem hne) hnz.symm

end Scenario

theorem Oracle.Refutes.derivation {k : Nat} {xs : List IndexedScenario} {cases : List ProvedCase}
    (h : Oracle.elimination.Refutes k xs cases) :
    Derivation xs (cases.flatMap ProvedCase.events) := by
  induction xs generalizing k cases with
  | nil =>
    obtain rfl := List.forall₂_nil_left_iff.mp h
    exact .nil
  | cons x xs ih =>
    rw [Refutes, List.zipIdx_cons] at h
    obtain ⟨c, cs, ⟨hindex, hscenario, hm⟩, hcs, rfl⟩ := List.forall₂_cons_left_iff.mp h
    have hhead : x.scenario.RefutedBy c.multipliers.used :=
      Scenario.refutedBy_used (Except.ok.inj hm)
    have hevents : (c :: cs).flatMap ProvedCase.events =
        .checking x.index x.scenario.toList :: .infeasibleBy c.multipliers.used ::
          cs.flatMap ProvedCase.events := by
      rw [List.flatMap_cons, ProvedCase.events, hindex, hscenario]
      rfl
    rw [hevents]
    exact .cons hhead (ih hcs)

theorem Enumeration.toList_eq_nil_iff {lists : List (List Constraint)} :
    (ofLists lists).toList = [] ↔
      ∀ cs ∈ product lists, ∃ c ∈ cs, c.isStaticallyFalse = true := by
  have hfalse : ∀ cs : List Constraint, Scenario.hasStaticFalsehood (SortedBy.ofList cs) = true ↔
      ∃ c ∈ cs, c.isStaticallyFalse = true := by
    intro cs
    simp only [Scenario.hasStaticFalsehood, List.any_eq_true, SortedBy.mem_ofList_iff]
  rw [List.eq_nil_iff_forall_not_mem]
  constructor
  · intro hnone cs hcs
    rw [← hfalse]
    by_contra hne
    obtain ⟨s, hs, -⟩ := exists_mem_toList_iff.mpr
      ⟨List.mem_map.mpr ⟨cs, hcs, rfl⟩, Bool.eq_false_iff.mpr hne⟩
    exact hnone s hs
  · intro hall s hs
    obtain ⟨hmem, hne⟩ := exists_mem_toList_iff.mp ⟨s, hs, rfl⟩
    obtain ⟨cs, hcs, he⟩ := List.mem_map.mp hmem
    rw [← he, (hfalse cs).mpr (hall cs hcs)] at hne
    cases hne

/-- A goal that is closed is one with a proof, and the trace goes on with its report. -/
theorem exists_cases_of_closed {config : Config} {oracle : Oracle} {s : ProofState} {t t' : Trace}
    (h : activate config oracle s t = (.ok [], t')) :
    ∃ cases, s.decide oracle = .ok (.proved cases) ∧
      t' = t ++ (Verdict.proved cases).report config.verbose := by
  unfold activate at h
  split at h
  next => cases h
  next v hv =>
    cases v with
    | refuted index scenario w verified => cases h
    | proved cases => exact ⟨cases, hv, (congrArg Prod.snd h).symm⟩

namespace ProofState

theorem refutes_of_proved {s : ProofState} {oracle : Oracle} {cases : List ProvedCase}
    (h : s.decide oracle = .ok (.proved cases)) : oracle.Refutes 0 s.enumeration.toList cases := by
  rw [ProofState.decide, search, Search.run_eq_through] at h
  rcases Search.through_cases oracle 0 s.enumeration.toList with ⟨cases', href, -, hres⟩ |
    ⟨before, x, after, cases', -, -, -, ⟨err, -, hres⟩ | ⟨w, -, hres⟩⟩
  · rw [hres] at h
    cases h
    exact href
  · rw [hres] at h
    cases h
  · rw [hres] at h
    cases h

/-- The verbose trace of a goal that is closed is a derivation from the scenarios in their order, unless
there are none because every pick is false on sight: then the goal is called a tautology. -/
theorem derivation_of_closed {s : ProofState} {t t' : Trace}
    (h : activate ⟨true⟩ .elimination s t = (.ok [], t')) :
    ∃ events, t' = t ++ events ∧
      (events = [.tautology] ↔ ∀ cs ∈ product (Proposition.optionLists s.negatedProblem),
        ∃ c ∈ cs, c.isStaticallyFalse = true) ∧
      (events ≠ [.tautology] →
        Derivation (Enumeration.ofLists (Proposition.optionLists s.negatedProblem)).toList
          events) := by
  obtain ⟨cases, hdecide, ht⟩ := exists_cases_of_closed h
  have href : Oracle.elimination.Refutes 0
      (Enumeration.ofLists (Proposition.optionLists s.negatedProblem)).toList cases :=
    refutes_of_proved hdecide
  have hlen := href.length_eq
  rw [List.length_zipIdx] at hlen
  refine ⟨_, ht, ?_⟩
  rw [← Enumeration.toList_eq_nil_iff, ← List.length_eq_zero_iff, hlen, List.length_eq_zero_iff]
  cases cases with
  | nil => exact ⟨⟨fun _ => rfl, fun _ => rfl⟩, fun hne => absurd rfl hne⟩
  | cons c cases => exact ⟨⟨nofun, nofun⟩, fun _ => href.derivation⟩

/-- Each side of the disequality is refuted by two of the three constraints. -/
theorem derivation_gt_of_ne_of_ge :
    ∃ events, activate ⟨true⟩ .elimination
        ⟨.empty, [⟨"h1", .compare .ne (.var ⟨"x", .real, .unknown⟩) (.const 0)⟩,
            ⟨"h2", .compare .ge (.var ⟨"x", .real, .unknown⟩) (.const 0)⟩],
          .compare .gt (.var ⟨"x", .real, .unknown⟩) (.const 0)⟩ [] = (.ok [], events) ∧
      events.length = 4 ∧
      Derivation (Enumeration.ofLists [[.single "x" 1 .lt 0, .single "x" 1 .gt 0],
        [.single "x" 1 .ge 0], [.single "x" 1 .le 0]]).toList events := by
  have hclosed : activate ⟨true⟩ .elimination
      ⟨.empty, [⟨"h1", .compare .ne (.var ⟨"x", .real, .unknown⟩) (.const 0)⟩,
          ⟨"h2", .compare .ge (.var ⟨"x", .real, .unknown⟩) (.const 0)⟩],
        .compare .gt (.var ⟨"x", .real, .unknown⟩) (.const 0)⟩ [] =
      (.ok [],
        [.checking 0 [.single "x" 1 .le 0, .single "x" 1 .lt 0, .single "x" 1 .ge 0],
          .infeasibleBy [(.single "x" 1 .lt 0, 1), (.single "x" 1 .ge 0, 1)],
          .checking 1 [.single "x" 1 .le 0, .single "x" 1 .ge 0, .single "x" 1 .gt 0],
          .infeasibleBy [(.single "x" 1 .le 0, 1), (.single "x" 1 .gt 0, 1)]]) := by decide +kernel
  have hlists : Proposition.optionLists (negatedProblem
      ⟨.empty, [⟨"h1", .compare .ne (.var ⟨"x", .real, .unknown⟩) (.const 0)⟩,
          ⟨"h2", .compare .ge (.var ⟨"x", .real, .unknown⟩) (.const 0)⟩],
        .compare .gt (.var ⟨"x", .real, .unknown⟩) (.const 0)⟩) =
      [[.single "x" 1 .lt 0, .single "x" 1 .gt 0], [.single "x" 1 .ge 0],
        [.single "x" 1 .le 0]] := by decide +kernel
  obtain ⟨events, he, -, hder⟩ := derivation_of_closed hclosed
  obtain rfl : _ = events := he
  rw [hlists] at hder
  exact ⟨_, hclosed, rfl, hder (by decide)⟩

end ProofState
end LinearArith
