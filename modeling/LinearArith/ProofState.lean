import LinearArith.Error
import LinearArith.Proposition

/-! Proof states: declared variables, named hypotheses and a goal. -/

namespace LinearArith

structure Hypothesis where
  name : String
  claim : Proposition
  deriving DecidableEq, Repr

abbrev Scope := SortedBy Variable.name

structure ProofState where
  scope : Scope
  hypotheses : List Hypothesis
  goal : Proposition
  deriving DecidableEq

namespace ProofState

def ofGoal (goal : Proposition) : ProofState := ⟨SortedBy.empty, [], goal⟩

def declared? (name : String) (s : ProofState) : Option Variable := s.scope.find? name

/-- Declares a variable, once for each name. -/
def declare (v : Variable) (s : ProofState) : Except Error ProofState :=
  if s.scope.hasKey v.name then .error (.duplicateVariable v.name)
  else .ok { s with scope := s.scope.insert v }

/-- Adds a hypothesis at the end. Without a name, the `k`-th is called `hk`. -/
def assume (name : String) (claim : Proposition) (s : ProofState) : ProofState :=
  let name := if name = "" then "h" ++ (s.hypotheses.length + 1).repr else name
  { s with hypotheses := s.hypotheses ++ [⟨name, claim⟩] }

def setGoal (goal : Proposition) (s : ProofState) : ProofState := { s with goal }

def negatedGoal (s : ProofState) : Proposition := s.goal.negate

/-- The declarations as typed facts, then the hypotheses. With `realsOnly` the declarations of
variables that are not real are left out. -/
def facts (s : ProofState) (realsOnly : Bool) : List Proposition :=
  (s.scope.toList.filter fun v => !realsOnly || v.isReal).map .typed ++
    s.hypotheses.map (·.claim)

def text (s : ProofState) : String :=
  String.join (s.scope.toList.map fun v => v.text ++ "\n") ++
    String.join (s.hypotheses.map fun h => h.name ++ ": " ++ h.claim.text ++ "\n") ++
    "|- " ++ s.goal.text

end ProofState
end LinearArith
