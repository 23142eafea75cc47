import LinearArith.Decision

/-! What a run reports, event by event, and the events that a verdict gives. -/

namespace LinearArith

inductive Event where
  | checking (index : Nat) (constraints : List Constraint)
  | feasibleWith (witness : Witness)
  | counterexample
  | infeasibleBy (entries : List (Constraint × Rat))
  | tautology
  | solved
  | unproved
  deriving DecidableEq

abbrev Trace := List Event

def linesText (lines : List String) : String := String.join (lines.map ("\n" ++ ·))

def Event.text : Event → String
  | checking _ constraints =>
    "Checking feasibility of the following inequalities:" ++
      linesText (constraints.map Constraint.text)
  | feasibleWith w =>
    "Feasible with the following values:" ++ linesText (w.toList.map Witness.entryText)
  | counterexample => "The counterexample proves the goal to be false."
  | infeasibleBy entries =>
    "Infeasible by summing the following:" ++
      linesText (entries.map fun e => e.1.text ++ " multiplied by " ++ ratText e.2)
  | tautology => "Conclusion followed tautologically from hypotheses."
  | solved => "Goal solved by linear arithmetic!"
  | unproved => "Linear arithmetic was unable to prove goal."

def Trace.text (t : Trace) : String := String.join (t.map fun e => e.text ++ "\n")

def ProvedCase.events (c : ProvedCase) : List Event :=
  [.checking c.index c.scenario.toList, .infeasibleBy c.multipliers.used]

/-- A verbose report shows the scenarios and what settled them; a witness is called a counterexample
only if it was verified. Otherwise the outcome is one event. -/
def Verdict.report (verbose : Bool) : Verdict → List Event
  | refuted index scenario witness verified =>
    if !verbose then [.unproved]
    else .checking index scenario.toList ::
      if verified then [.feasibleWith witness, .counterexample] else [.unproved]
  | proved cases =>
    if !verbose then [.solved]
    else if cases.isEmpty then [.tautology]
    else cases.flatMap ProvedCase.events

end LinearArith
