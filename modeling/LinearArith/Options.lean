import LinearArith.Constraint
import LinearArith.LinearForm
import LinearArith.Proposition

/-! The options of a proposition: the constraints of which it asserts at least one. A disequality
has two options, a proposition about which nothing linear is known has none. -/

namespace LinearArith

/-- The constraint `f relation 0`, with the constant of `f` moved to the right. -/
def Constraint.ofForm (f : LinearForm) (relation : Relation) : Constraint :=
  ⟨f.linear.names, relation, -f.constant⟩

def Comparison.cases : Comparison → List Relation
  | eq => [.eq]
  | ne => [.lt, .gt]
  | lt => [.lt]
  | le => [.le]
  | gt => [.gt]
  | ge => [.ge]

/-- The bound that a declaration asserts. A positive integer is at least 1. -/
def Variable.bound? (v : Variable) : Option Constraint :=
  if !v.isReal then none
  else if v.isPositive then
    some (if v.isInteger then .single v.name 1 .ge 1 else .single v.name 1 .gt 0)
  else if v.isNonnegative then some (.single v.name 1 .ge 0)
  else none

/-- The linear form of `l - r`, unless a term is not linear or a variable that is not real is
left. -/
def realDifference? (l r : Term) : Option LinearForm :=
  match l.linearDifference r with
  | .ok f => if f.linear.toList.all fun e => e.1.isReal then some f else none
  | .error _ => none

namespace Proposition

def options : Proposition → List Constraint
  | truth true => []
  | truth false => [.falsum]
  | compare c l r =>
    match realDifference? l r with
    | some f => c.cases.map (.ofForm f)
    | none => []
  | typed v => v.bound?.toList
  | unread _ => []

/-- The options of each proposition that has any. -/
def optionLists (ps : List Proposition) : List (List Constraint) :=
  (ps.map options).filter fun l => !l.isEmpty

end Proposition
end LinearArith
