import LinearArith.Proofs.BackSubstitution
import LinearArith.Proofs.CaseSplit
import LinearArith.Proofs.ShortCircuit

/-! With elimination as the oracle a search is settled by the first scenario that has a solution, and a
scenario that is refuted has none. -/

namespace LinearArith

namespace Search

/-- Elimination settles every scenario: all are refuted, or one has a solution. -/
theorem through_elimination (k : Nat) (l : List IndexedScenario) :
    (∃ cases, (through .elimination k l).result = .ok (.proved cases) ∧
      ∀ s ∈ l, ∃ m, s.scenario.certificate = .infeasible m) ∨
    ∃ s ∈ l, ∃ w, s.scenario.certificate = .feasible w ∧
      (through .elimination k l).result = .ok (.refuted s.index s.scenario w true) := by
  rcases through_cases .elimination k l with ⟨cases, hcases, -, hr⟩ |
    ⟨before, x, after, -, rfl, -, -, hend⟩
  · refine Or.inl ⟨cases, hr, fun s hs => ?_⟩
    obtain ⟨j, m, hm⟩ := hcases.exists_of_mem hs
    exact ⟨m, Except.ok.inj hm⟩
  · rcases hend with ⟨err, he, -⟩ | ⟨w, hw, hr⟩
    · cases he
    · have hw : x.scenario.certificate = .feasible w := Except.ok.inj hw
      rw [Scenario.satisfies_of_certificate hw] at hr
      exact Or.inr ⟨x, by simp, w, hw, hr⟩

end Search

namespace Scenario

theorem holdsAt_of_infeasible {s : Scenario} {m : Multipliers}
    (h : s.certificate = .infeasible m) (v : String → Rat) : s.holdsAt v = false := by
  obtain ⟨r, hrun, -⟩ := exists_row_of_infeasible h
  by_contra hs
  have hs : s.holdsAt v = true := by simpa using hs
  have hrows : ∀ r ∈ s.toList.flatMap Row.ofConstraint, r.holdsAt v = true := by
    intro r hr
    obtain ⟨c, hc, hr⟩ := List.mem_flatMap.mp hr
    exact Row.forall_ofConstraint_iff.mpr (holdsAt_iff.mp hs c hc) r hr
  obtain ⟨htrue, hcontra⟩ := Elimination.of_run_error (Row.stable_holdsAt v) hrows hrun
  rw [Row.not_holdsAt_of_isContradiction hcontra v] at htrue
  cases htrue

theorem holdsAt_of_satisfies {s : Scenario} {w : Witness} {v : String → Rat}
    (h : w.satisfies s = true) (hv : ∀ e ∈ w.toList, v e.1 = e.2) : s.holdsAt v = true := by
  apply holdsAt_iff.mpr
  intro c hc
  obtain ⟨hassigned, hholds⟩ := Bool.and_eq_true_iff.mp (List.all_eq_true.mp h c hc)
  have heval : c.linear.eval v = c.linear.eval w.value := by
    apply LinComb.eval_congr
    intro x hx
    have hsome : (w.get? x).isSome = true := List.all_eq_true.mp hassigned x hx
    rw [Witness.get?, Option.isSome_map] at hsome
    obtain ⟨e, he⟩ := Option.isSome_iff_exists.mp hsome
    obtain ⟨hmem, rfl⟩ := SortedBy.find?_eq_some_iff.mp he
    rw [hv e hmem, Witness.value, Witness.get?, he]
    rfl
  rw [Constraint.holdsAt, heval]
  exact hholds

end Scenario
end LinearArith
