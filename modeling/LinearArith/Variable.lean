/-! Variables: a name, the domain it ranges over and a sign assumption. -/

namespace LinearArith

inductive Domain where
  | real
  | integer
  /-- A space other than the reals: nothing linear is known about its elements. -/
  | vector
  deriving DecidableEq, Repr

inductive Sign where
  | unknown
  | positive
  | nonnegative
  deriving DecidableEq, Repr

structure Variable where
  name : String
  domain : Domain := .real
  sign : Sign := .unknown
  deriving DecidableEq, Repr

def Domain.text : Domain → String
  | real => "real"
  | integer => "integer"
  | vector => "vector"

namespace Variable

/-- The integers are reals too. -/
def isReal (v : Variable) : Bool := v.domain != .vector

def isInteger (v : Variable) : Bool := v.domain == .integer

def isPositive (v : Variable) : Bool := v.sign == .positive

/-- A positive variable is nonnegative as well. -/
def isNonnegative (v : Variable) : Bool := v.sign != .unknown

/-- The declaration as a typed fact, such as `n: integer positive`. -/
def text (v : Variable) : String :=
  v.name ++ ": " ++ v.domain.text ++
    match v.sign with
    | .unknown => ""
    | .positive => " positive"
    | .nonnegative => " nonnegative"

end Variable
end LinearArith
