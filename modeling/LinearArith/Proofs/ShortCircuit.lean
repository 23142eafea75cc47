import LinearArith.Decision
import LinearArith.Proofs.LazyEnumeration
import Mathlib.Data.List.Forall2

/-! A search asks about the scenarios of an enumeration in order and about none twice. It goes on as
long as the oracle refutes them, and its result is made of the answers as they were given. -/

namespace LinearArith

/-- The oracle refutes the scenarios, the first of them as its `k`-th query, with the multipliers of the
cases. -/
def Oracle.Refutes (oracle : Oracle) (k : Nat) (l : List IndexedScenario)
    (cases : List ProvedCase) : Prop :=
  List.Forall₂ (fun x c => c.index = x.1.index ∧ c.scenario = x.1.scenario ∧
    oracle x.2 x.1.scenario = .ok (.infeasible c.multipliers)) (l.zipIdx k) cases

namespace Oracle

theorem refutes_nil (oracle : Oracle) (k : Nat) : oracle.Refutes k [] [] := List.Forall₂.nil

theorem Refutes.cons {oracle : Oracle} {k : Nat} {x : IndexedScenario} {m : Multipliers}
    {l : List IndexedScenario} {cases : List ProvedCase}
    (hx : oracle k x.scenario = .ok (.infeasible m)) (h : oracle.Refutes (k + 1) l cases) :
    oracle.Refutes k (x :: l) (⟨x.index, x.scenario, m⟩ :: cases) := by
  rw [Refutes, List.zipIdx_cons]
  exact List.Forall₂.cons ⟨rfl, rfl, hx⟩ h

theorem Refutes.exists_of_mem {oracle : Oracle} {k : Nat} {l : List IndexedScenario}
    {cases : List ProvedCase} (h : oracle.Refutes k l cases) {x : IndexedScenario} (hx : x ∈ l) :
    ∃ j m, oracle j x.scenario = .ok (.infeasible m) := by
  induction l generalizing k cases with
  | nil => cases hx
  | cons y l ih =>
    rw [Refutes, List.zipIdx_cons] at h
    obtain ⟨c, cs, ⟨-, -, hy⟩, hl, -⟩ := List.forall₂_cons_left_iff.mp h
    rcases List.mem_cons.mp hx with rfl | hx
    · exact ⟨k, c.multipliers, hy⟩
    · exact ih hl hx

end Oracle

namespace Search

def through (oracle : Oracle) (k : Nat) : List IndexedScenario → Search
  | [] => ⟨.ok (.proved []), []⟩
  | s :: ss =>
    match oracle k s.scenario with
    | .error err => ⟨.error err, [s.scenario]⟩
    | .ok (.feasible w) =>
      ⟨.ok (.refuted s.index s.scenario w (w.satisfies s.scenario)), [s.scenario]⟩
    | .ok (.infeasible m) =>
      let rest := through oracle (k + 1) ss
      ⟨rest.result.map (·.withCase ⟨s.index, s.scenario, m⟩), s.scenario :: rest.queries⟩

/-- That the scenarios are enumerated lazily makes no difference. -/
theorem run_eq_through (oracle : Oracle) (k : Nat) (e : Enumeration) :
    run oracle k e = through oracle k e.toList := by
  induction hr : e.remaining using Nat.strongRecOn generalizing e k with
  | _ n ih =>
    rw [run]
    split
    next later hn => rw [Enumeration.toList_of_next_none hn, through]
    next s later hn =>
      have hlt : later.remaining < n := by
        have hlt := Enumeration.remaining_next_lt (e := e) (s := s) (by rw [hn])
        rwa [hn, hr] at hlt
      have hrest := ih _ hlt (k + 1) later rfl
      rw [Enumeration.toList_of_next_some hn]
      rcases ho : oracle k s.scenario with err | (w | m)
      · simp only [through, ho]
      · simp only [through, ho]
      · simp only [through, ho, hrest]

/-- A search through a list asks about all scenarios and has a case for each, or it stops at the first
that is not refuted. -/
theorem through_cases (oracle : Oracle) (k : Nat) (l : List IndexedScenario) :
    (∃ cases, oracle.Refutes k l cases ∧ (through oracle k l).queries = l.map (·.scenario) ∧
        (through oracle k l).result = .ok (.proved cases)) ∨
      ∃ before x after cases, l = before ++ x :: after ∧ oracle.Refutes k before cases ∧
        (through oracle k l).queries = (before ++ [x]).map (·.scenario) ∧
        ((∃ err, oracle (k + before.length) x.scenario = .error err ∧
            (through oracle k l).result = .error err) ∨
          ∃ w, oracle (k + before.length) x.scenario = .ok (.feasible w) ∧
            (through oracle k l).result =
              .ok (.refuted x.index x.scenario w (w.satisfies x.scenario))) := by
  induction l generalizing k with
  | nil => exact Or.inl ⟨[], oracle.refutes_nil k, rfl, rfl⟩
  | cons x l ih =>
    rcases ho : oracle k x.scenario with err | (w | m)
    · have hone : through oracle k (x :: l) = ⟨.error err, [x.scenario]⟩ := by
        simp only [through, ho]
      rw [hone]
      exact Or.inr ⟨[], x, l, [], rfl, oracle.refutes_nil k, rfl, Or.inl ⟨err, ho, rfl⟩⟩
    · have hone : through oracle k (x :: l) =
          ⟨.ok (.refuted x.index x.scenario w (w.satisfies x.scenario)), [x.scenario]⟩ := by
        simp only [through, ho]
      rw [hone]
      exact Or.inr ⟨[], x, l, [], rfl, oracle.refutes_nil k, rfl, Or.inr ⟨w, ho, rfl⟩⟩
    · -- `x` is refuted, so the search ends as the one through the others does
      have hqueries : (through oracle k (x :: l)).queries =
          x.scenario :: (through oracle (k + 1) l).queries := by simp only [through, ho]
      have hresult : (through oracle k (x :: l)).result =
          (through oracle (k + 1) l).result.map (·.withCase ⟨x.index, x.scenario, m⟩) := by
        simp only [through, ho]
      rcases ih (k + 1) with ⟨cases, hcases, hq, hr⟩ |
        ⟨before, y, after, cases, rfl, hcases, hq, hend⟩
      · refine Or.inl ⟨⟨x.index, x.scenario, m⟩ :: cases, hcases.cons ho, ?_, ?_⟩
        · rw [hqueries, hq, List.map_cons]
        · rw [hresult, hr]
          rfl
      · refine Or.inr ⟨x :: before, y, after, _, rfl, hcases.cons ho, ?_, ?_⟩
        · rw [hqueries, hq, List.cons_append, List.map_cons]
        · have hlen : k + (x :: before).length = k + 1 + before.length := by
            rw [List.length_cons, Nat.add_assoc, Nat.add_comm 1]
          rw [hlen, hresult]
          rcases hend with ⟨err, he, hr⟩ | ⟨w, hw, hr⟩
          · exact Or.inl ⟨err, he, by rw [hr]; rfl⟩
          · exact Or.inr ⟨w, hw, by rw [hr]; rfl⟩

theorem queries_through_sublist (oracle : Oracle) (k : Nat) (l : List IndexedScenario) :
    (through oracle k l).queries.Sublist (l.map (·.scenario)) := by
  rcases through_cases oracle k l with ⟨_, _, hq, _⟩ | ⟨before, x, after, _, rfl, _, hq, _⟩
  · exact hq ▸ List.Sublist.refl _
  · rw [hq, List.append_cons before x after]
    exact (List.sublist_append_left _ after).map _

end Search

namespace ProofState

/-- The search asks about the scenarios of the facts and the negated goal in the order of their
enumeration, about none of them twice, and stops at the first that the oracle does not refute. Then
its failure is passed on, or its witness is the refutation, checked against that scenario. If all are
refuted the proof has a case for each, with the multipliers that were given for it. -/
theorem search_short_circuits (s : ProofState) (oracle : Oracle) :
    ∃ all, (Enumeration.ofLists
          (Proposition.optionLists (s.facts true ++ [s.negatedGoal]))).toList = all ∧
      (s.search oracle).queries.Nodup ∧
      ((∃ cases, oracle.Refutes 0 all cases ∧
          (s.search oracle).queries = all.map (·.scenario) ∧
          s.decide oracle = .ok (.proved cases)) ∨
        ∃ before x after cases, all = before ++ x :: after ∧ oracle.Refutes 0 before cases ∧
          (s.search oracle).queries = (before ++ [x]).map (·.scenario) ∧
          ((∃ err, oracle before.length x.scenario = .error err ∧ s.decide oracle = .error err) ∨
            ∃ w, oracle before.length x.scenario = .ok (.feasible w) ∧
              s.decide oracle =
                .ok (.refuted x.index x.scenario w (w.satisfies x.scenario)))) := by
  have hrun : s.search oracle = Search.through oracle 0 s.enumeration.toList :=
    Search.run_eq_through oracle 0 s.enumeration
  refine ⟨s.enumeration.toList, rfl, ?_, ?_⟩
  · rw [hrun]
    exact (Enumeration.nodup_toList_ofLists _).sublist (Search.queries_through_sublist oracle 0 _)
  · have hcases := Search.through_cases oracle 0 s.enumeration.toList
    simp only [Nat.zero_add, ← hrun] at hcases
    exact hcases

end ProofState
end LinearArith
