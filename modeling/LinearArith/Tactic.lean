import LinearArith.Config
import LinearArith.Trace

/-! Tactics: what turns a proof state into the states that remain to be proved, and the tactic that
decides linear arithmetic. -/

namespace LinearArith

/-- A tactic appends to a trace what it does; on failure the trace it was given stays as it is. -/
structure Tactic where
  name : String
  label : String
  description : String
  arguments : List String
  activate : ProofState → Trace → Except Error (List ProofState) × Trace

/-- Closes the goal if it is proved and leaves the state as it is otherwise. -/
def activate (config : Config) (oracle : Oracle) (s : ProofState) (t : Trace) :
    Except Error (List ProofState) × Trace :=
  match s.decide oracle with
  | .error e => (.error e, t)
  | .ok v =>
    (.ok (match v with
      | .proved _ => []
      | .refuted .. => [s]), t ++ v.report config.verbose)

namespace Tactic

def linearArithmetic (config : Config) (oracle : Oracle) : Tactic where
  name := "linarith"
  label := "Linear arithmetic"
  description := "A tactic to try to establish a goal via linear arithmetic.  " ++
    "Inspired by the linarith tactic in Lean."
  arguments := ["verbose"]
  activate := LinearArith.activate config oracle

end Tactic
end LinearArith
