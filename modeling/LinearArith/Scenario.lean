import LinearArith.Constraint

/-! Scenarios: finite sets of constraints, read as their conjunction. -/

namespace LinearArith

abbrev Scenario := SortedBy (id : Constraint → Constraint)

namespace Scenario

def unknowns (s : Scenario) : SortedBy (id : String → String) :=
  SortedBy.ofList (s.toList.flatMap Constraint.unknowns)

def hasStaticFalsehood (s : Scenario) : Bool := s.toList.any Constraint.isStaticallyFalse

def holdsAt (v : String → Rat) (s : Scenario) : Bool := s.toList.all (·.holdsAt v)

def text (s : Scenario) : String :=
  "\x7b" ++ ", ".intercalate (s.toList.map Constraint.text) ++ "\x7d"

end Scenario
end LinearArith
