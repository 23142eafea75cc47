import LinearArith.Tactic
import LinearArith.Text.Lowercase

/-! Tactics by name. A name that is not registered also finds a tactic whose name has the same lower
case. -/

namespace LinearArith

abbrev Registry := SortedBy Tactic.name

namespace Registry

def standard : Registry := SortedBy.empty.insert (Tactic.linearArithmetic {} .elimination)

/-- Registers a tactic, in the place of one with the same name. -/
def register (t : Tactic) (r : Registry) : Registry := r.insert t

def has (name : String) (r : Registry) : Bool := r.hasKey name

def names (r : Registry) : List String := r.toList.map (·.name)

def get (name : String) (r : Registry) : Except Error Tactic :=
  match r.find? name with
  | some t => .ok t
  | none =>
    match r.toList.find? fun t => Text.lowercase t.name == Text.lowercase name with
    | some t => .ok t
    | none => .error (.invalidConfig ("Unknown tactic: " ++ name))

end Registry
end LinearArith
