import LinearArith.Elimination
import LinearArith.Enumeration
import LinearArith.Options
import LinearArith.ProofState

/-! Deciding a proof state. The goal is negated and added to the facts; the scenarios of their options
are put to an oracle one after another until one is found feasible. If none is, the goal is proved. -/

namespace LinearArith

/-- Answers the `k`-th query, counted from 0, about a scenario. Nothing is assumed of the answers. -/
abbrev Oracle := Nat → Scenario → Except Error Certificate

/-- Elimination as an oracle; it answers each scenario the same way and never fails. -/
def Oracle.elimination : Oracle := fun _ s => .ok s.certificate

structure ProvedCase where
  index : Nat
  scenario : Scenario
  multipliers : Multipliers
  deriving DecidableEq

inductive Verdict where
  /-- A scenario was found feasible; `verified` tells whether the witness satisfies it. -/
  | refuted (index : Nat) (scenario : Scenario) (witness : Witness) (verified : Bool)
  | proved (cases : List ProvedCase)
  deriving DecidableEq

def Verdict.withCase (c : ProvedCase) : Verdict → Verdict
  | proved cases => proved (c :: cases)
  | v => v

/-- What came out of a search, and the scenarios asked about, in order. -/
structure Search where
  result : Except Error Verdict
  queries : List Scenario

/-- Asks about the scenarios that are left, the first of them with the query number `k`. -/
def Search.run (oracle : Oracle) (k : Nat) (e : Enumeration) : Search :=
  match h : e.next with
  | (none, _) => ⟨.ok (.proved []), []⟩
  | (some s, later) =>
    have : later.remaining < e.remaining := by
      have := Enumeration.remaining_next_lt (congrArg Prod.fst h); rwa [h] at this
    match oracle k s.scenario with
    | .error err => ⟨.error err, [s.scenario]⟩
    | .ok (.feasible w) =>
      ⟨.ok (.refuted s.index s.scenario w (w.satisfies s.scenario)), [s.scenario]⟩
    | .ok (.infeasible m) =>
      let rest := run oracle (k + 1) later
      ⟨rest.result.map (·.withCase ⟨s.index, s.scenario, m⟩), s.scenario :: rest.queries⟩
termination_by e.remaining

namespace ProofState

/-- The propositions a search starts from: the facts about reals and the negated goal. -/
def negatedProblem (s : ProofState) : List Proposition := s.facts true ++ [s.negatedGoal]

def enumeration (s : ProofState) : Enumeration :=
  .ofLists (Proposition.optionLists s.negatedProblem)

def search (s : ProofState) (oracle : Oracle) : Search := Search.run oracle 0 s.enumeration

def decide (s : ProofState) (oracle : Oracle) : Except Error Verdict := (s.search oracle).result

end ProofState
end LinearArith
