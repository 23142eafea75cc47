import LinearArith.Scenario

/-! What settles a scenario: values under which its constraints hold, or multipliers under which the
sum of its constraints is false. Both can be checked without knowing where they come from. -/

namespace LinearArith

abbrev Witness := SortedBy (Prod.fst : String × Rat → String)

namespace Witness

def get? (x : String) (w : Witness) : Option Rat := (w.find? x).map (·.2)

/-- The value of an unknown, 0 where none is given. -/
def value (w : Witness) (x : String) : Rat := (w.get? x).getD 0

def meets (w : Witness) (c : Constraint) : Bool :=
  c.unknowns.all (fun x => (w.get? x).isSome) && c.holdsAt w.value

def satisfies (w : Witness) (s : Scenario) : Bool := s.toList.all w.meets

def entryText (e : String × Rat) : String := e.1 ++ " = " ++ ratText e.2

def text (w : Witness) : String := ", ".intercalate (w.toList.map entryText)

end Witness

/-- A multiplier for each of finitely many constraints; 0 marks a constraint that is not used. -/
abbrev Multipliers := SortedBy (Prod.fst : Constraint × Rat → Constraint)

namespace Multipliers

def used (m : Multipliers) : List (Constraint × Rat) := m.toList.filter fun e => e.2 != 0

/-- A multiplier may be negative only on an equation. -/
def fits (e : Constraint × Rat) : Bool := e.1.relation = .eq || 0 ≤ e.2

/-- The sum of constraints with multipliers, each read as an equation or upper bound. -/
def sum : List (Constraint × Rat) → Canonical
  | [] => ⟨LinComb.empty, 0, .equal⟩
  | (c, q) :: es =>
    let d := c.canonical
    let rest := sum es
    ⟨(d.linear.scale q).add rest.linear, d.bound * q + rest.bound, d.kind.join rest.kind⟩

/-- The weighted sum of the constraints, unless a multiplier has the wrong sign. -/
def combination (m : Multipliers) : Option Constraint :=
  if m.used.all fits then
    let s := sum m.used
    some ⟨s.linear, s.kind.relation, s.bound⟩
  else none

def isValid (m : Multipliers) : Bool := m.combination.any Constraint.isStaticallyFalse

end Multipliers

inductive Certificate where
  | feasible (w : Witness)
  | infeasible (m : Multipliers)
  deriving DecidableEq

end LinearArith
