import LinearArith.Linear

/-! Linear constraints `Σ q · x  relation  c` over named unknowns, and the same constraints read as
equations and upper bounds. -/

namespace LinearArith

inductive Relation where
  | eq
  | le
  | lt
  | ge
  | gt
  deriving DecidableEq, Repr

namespace Relation

def rank : Relation → Nat
  | eq => 0
  | le => 1
  | lt => 2
  | ge => 3
  | gt => 4

instance : Ord Relation := ⟨compareOn rank⟩

instance : Std.TransOrd Relation := inferInstanceAs (Std.TransCmp (compareOn rank))

instance : Std.LawfulEqOrd Relation where
  eq_of_compare {r s} h := by cases r <;> cases s <;> first | rfl | exact absurd h (by decide)

def holds : Relation → Rat → Rat → Bool
  | eq, p, q => p = q
  | le, p, q => p ≤ q
  | lt, p, q => p < q
  | ge, p, q => q ≤ p
  | gt, p, q => q < p

def isStrict : Relation → Bool
  | lt | gt => true
  | eq | le | ge => false

def isLower : Relation → Bool
  | ge | gt => true
  | eq | le | lt => false

def text : Relation → String
  | eq => "="
  | le => "<="
  | lt => "<"
  | ge => ">="
  | gt => ">"

end Relation

structure Constraint where
  linear : Linear
  relation : Relation
  constant : Rat
  deriving DecidableEq

inductive BoundKind where
  | equal
  | nonStrict
  | strict
  deriving DecidableEq, Repr

namespace BoundKind

def join : BoundKind → BoundKind → BoundKind
  | strict, _ | _, strict => strict
  | nonStrict, _ | _, nonStrict => nonStrict
  | equal, equal => equal

def relation : BoundKind → Relation
  | equal => .eq
  | nonStrict => .le
  | strict => .lt

end BoundKind

/-- An equation or an upper bound on a linear combination. -/
structure Canonical where
  linear : Linear
  bound : Rat
  kind : BoundKind
  deriving DecidableEq

namespace Constraint

def falsum : Constraint := ⟨LinComb.empty, .lt, 0⟩

def single (x : String) (q : Rat) (relation : Relation) (c : Rat) : Constraint :=
  ⟨LinComb.single x q, relation, c⟩

/-- Constraints are compared by combination, then relation, then constant. -/
instance : Ord Constraint :=
  ⟨compareLex (compareOn linear) (compareLex (compareOn relation) (compareOn constant))⟩

instance : Std.TransOrd Constraint :=
  inferInstanceAs (Std.TransCmp (compareLex _ (compareLex _ _)))

instance : Std.LawfulEqOrd Constraint where
  eq_of_compare {c d} h := by
    replace h : compareLex (compareOn linear) (compareLex (compareOn relation) (compareOn constant))
      c d = .eq := h
    simp only [compareLex_eq_eq, compareOn, Std.LawfulEqOrd.compare_eq_iff_eq] at h
    cases c; cases d; simp_all

def unknowns (c : Constraint) : List String := c.linear.keys

/-- No unknowns are left and the comparison with 0 fails. -/
def isStaticallyFalse (c : Constraint) : Bool :=
  c.linear.isEmpty && !c.relation.holds 0 c.constant

def isStaticallyTrue (c : Constraint) : Bool :=
  c.linear.isEmpty && c.relation.holds 0 c.constant

def holdsAt (v : String → Rat) (c : Constraint) : Bool :=
  c.relation.holds (c.linear.eval v) c.constant

def canonical (c : Constraint) : Canonical :=
  let kind :=
    if c.relation = .eq then .equal else if c.relation.isStrict then .strict else .nonStrict
  if c.relation.isLower then ⟨c.linear.neg, -c.constant, kind⟩ else ⟨c.linear, c.constant, kind⟩

def text (c : Constraint) : String :=
  (if c.linear.isEmpty then "0" else sumText c.linear.toList) ++ " " ++ c.relation.text ++ " " ++
    ratText c.constant

end Constraint
end LinearArith
