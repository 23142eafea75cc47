import LinearArith.SortedBy
import LinearArith.Rational
import LinearArith.Variable

/-! Arithmetic terms over variables and exact rational constants, with their text in prefix form. -/

namespace LinearArith

inductive Term where
  | const (q : Rat)
  | var (v : Variable)
  | add (terms : List Term)
  | mul (factors : List Term)
  | neg (t : Term)
  | div (numer denom : Term)
  deriving Repr

namespace Term

instance : Inhabited Term := ⟨const 0⟩

/-- The difference, as a sum with the negated second term. -/
def sub (t u : Term) : Term := add [t, neg u]

mutual

def text : Term → String
  | const q => ratText q
  | var v => v.name
  | add ts => "(+" ++ spacedText ts ++ ")"
  | mul ts => "(*" ++ spacedText ts ++ ")"
  | neg t => "(- " ++ t.text ++ ")"
  | div t u => "(/ " ++ t.text ++ " " ++ u.text ++ ")"

def spacedText : List Term → String
  | [] => ""
  | t :: ts => " " ++ t.text ++ spacedText ts

end

mutual

def occurrences : Term → List Variable
  | const _ => []
  | var v => [v]
  | add ts => occurrencesIn ts
  | mul ts => occurrencesIn ts
  | neg t => t.occurrences
  | div t u => t.occurrences ++ u.occurrences

def occurrencesIn : List Term → List Variable
  | [] => []
  | t :: ts => t.occurrences ++ occurrencesIn ts

end

/-- The variables by name; of several occurrences of a name the leftmost is kept. -/
def vars (t : Term) : SortedBy Variable.name :=
  t.occurrences.foldl (fun s v => s.insertNew v) SortedBy.empty

mutual

def same : Term → Term → Bool
  | const p, const q => p == q
  | var v, var w => v == w
  | add ts, add us => sameAll ts us
  | mul ts, mul us => sameAll ts us
  | neg t, neg u => t.same u
  | div t u, div t' u' => t.same t' && u.same u'
  | _, _ => false

def sameAll : List Term → List Term → Bool
  | [], [] => true
  | t :: ts, u :: us => t.same u && sameAll ts us
  | _, _ => false

end

mutual

theorem same_iff : (t u : Term) → (t.same u = true ↔ t = u)
  | const _, u => by cases u <;> simp [same]
  | var _, u => by cases u <;> simp [same]
  | add ts, u => by cases u <;> simp [same, sameAll_iff ts]
  | mul ts, u => by cases u <;> simp [same, sameAll_iff ts]
  | neg t, u => by cases u <;> simp [same, same_iff t]
  | div t t', u => by cases u <;> simp [same, same_iff t, same_iff t']

theorem sameAll_iff : (ts us : List Term) → (sameAll ts us = true ↔ ts = us)
  | [], us => by cases us <;> simp [sameAll]
  | t :: ts, us => by cases us <;> simp [sameAll, same_iff t, sameAll_iff ts]

end

instance : DecidableEq Term := fun t u => decidable_of_iff _ (same_iff t u)

end Term
end LinearArith
