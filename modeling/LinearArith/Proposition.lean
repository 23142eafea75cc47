import LinearArith.Term

/-! Propositions a hypothesis or goal can be, and their negation. -/

namespace LinearArith

inductive Comparison where
  | eq
  | ne
  | lt
  | le
  | gt
  | ge
  deriving DecidableEq, Repr

namespace Comparison

def negate : Comparison → Comparison
  | eq => ne
  | ne => eq
  | lt => ge
  | le => gt
  | gt => le
  | ge => lt

@[simp] theorem negate_negate (c : Comparison) : c.negate.negate = c := by cases c <;> rfl

def holds : Comparison → Rat → Rat → Bool
  | eq, p, q => p = q
  | ne, p, q => p ≠ q
  | lt, p, q => p < q
  | le, p, q => p ≤ q
  | gt, p, q => q < p
  | ge, p, q => q ≤ p

theorem holds_negate (c : Comparison) (p q : Rat) : c.negate.holds p q = !c.holds p q := by
  cases c <;> grind [negate, holds]

def text : Comparison → String
  | eq => "="
  | ne => "!="
  | lt => "<"
  | le => "<="
  | gt => ">"
  | ge => ">="

def ofText? : String → Option Comparison
  | "=" => some eq
  | "!=" => some ne
  | "<" => some lt
  | "<=" => some le
  | ">" => some gt
  | ">=" => some ge
  | _ => none

theorem ofText?_text (c : Comparison) : ofText? c.text = some c := by cases c <;> rfl

end Comparison

inductive Proposition where
  | truth (b : Bool)
  | compare (c : Comparison) (l r : Term)
  /-- What the declaration of a variable says of it. -/
  | typed (v : Variable)
  /-- Anything else; only its text is known. -/
  | unread (text : String)
  deriving DecidableEq, Repr

namespace Proposition

def text : Proposition → String
  | truth b => if b then "true" else "false"
  | compare c l r => l.text ++ " " ++ c.text ++ " " ++ r.text
  | typed v => v.text
  | unread text => text

/-- The sign of a real variable negates to a bound; where there is nothing to negate the text is
marked instead. -/
def negate : Proposition → Proposition
  | truth b => truth !b
  | compare c l r => compare c.negate l r
  | typed v =>
    if v.isReal && v.isPositive then compare .le (.var v) (.const 0)
    else if v.isReal && v.isNonnegative then compare .lt (.var v) (.const 0)
    else unread ("¬" ++ v.text)
  | unread text => unread ("¬" ++ text)

def isComparison : Proposition → Bool
  | compare .. => true
  | _ => false

end Proposition
end LinearArith
