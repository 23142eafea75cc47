import LinearArith.LinComb

/-! Linear combinations of named unknowns and their text, such as `2*x - 1/2*y`. -/

namespace LinearArith

abbrev Linear := LinComb (id : String → String)

/-- One summand without its sign; the coefficient 1 is left out. -/
def monomialText (name : String) (q : Rat) : String :=
  if magnitude q = 1 then name else ratText (magnitude q) ++ "*" ++ name

def furtherText : List (String × Rat) → String
  | [] => ""
  | (x, q) :: es => (if q < 0 then " - " else " + ") ++ monomialText x q ++ furtherText es

def sumText : List (String × Rat) → String
  | [] => ""
  | (x, q) :: es => (if q < 0 then "-" else "") ++ monomialText x q ++ furtherText es

end LinearArith
