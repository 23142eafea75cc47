import LinearArith.Linear
import LinearArith.Term
import LinearArith.Error

/-! Linear forms: a linear combination of variables plus a constant, and the linear form of a term
where the term has one. -/

namespace LinearArith

/-- `Σ q · v + constant`; each variable is the one that brought its name into the sum. -/
structure LinearForm where
  linear : LinComb Variable.name
  constant : Rat
  deriving DecidableEq

namespace LinearForm

def zero : LinearForm := ⟨LinComb.empty, 0⟩

instance : Inhabited LinearForm := ⟨zero⟩

def const (q : Rat) : LinearForm := ⟨LinComb.empty, q⟩

def ofVariable (v : Variable) : LinearForm := ⟨LinComb.single v 1, 0⟩

def isConstant (f : LinearForm) : Bool := f.linear.isEmpty

def addScaled (f g : LinearForm) (q : Rat) : LinearForm :=
  ⟨f.linear.add (g.linear.scale q), f.constant + g.constant * q⟩

def scale (f : LinearForm) (q : Rat) : LinearForm := zero.addScaled f q

def sub (f g : LinearForm) : LinearForm := f.addScaled g (-1)

def eval (v : String → Rat) (f : LinearForm) : Rat := f.linear.eval v + f.constant

/-- Equality of names, coefficients and constant; what is declared of the names does not count. -/
def sameAs (f g : LinearForm) : Bool := f.linear.names = g.linear.names && f.constant = g.constant

def text (f : LinearForm) : String :=
  if f.isConstant then ratText f.constant
  else
    sumText f.linear.names.toList ++
      if f.constant = 0 then ""
      else (if f.constant < 0 then " - " else " + ") ++ ratText (magnitude f.constant)

end LinearForm

namespace Term

mutual

/-- The linear form of a term. A product may have one factor that is not constant, a divisor has to
be a constant other than 0; faults are looked for from left to right, in a quotient first in the
divisor. -/
def linearize : Term → Except Error LinearForm
  | const q => .ok (.const q)
  | var v => .ok (.ofVariable v)
  | add ts => linearizeSum .zero ts
  | mul ts => linearizeProduct (mul ts) 1 none ts
  | neg t => do
    let f ← t.linearize
    return f.scale (-1)
  | div t u => do
    let d ← u.linearize
    if !d.isConstant then throw (.nonLinear (div t u).text)
    if d.constant = 0 then throw .divisionByZero
    let f ← t.linearize
    return f.scale d.constant⁻¹

def linearizeSum (sum : LinearForm) : List Term → Except Error LinearForm
  | [] => .ok sum
  | t :: ts => do
    let f ← t.linearize
    linearizeSum (sum.addScaled f 1) ts

/-- Multiplies further factors of `whole` to the constant `scale` and the factor found before that
is not constant. -/
def linearizeProduct (whole : Term) (scale : Rat) (symbolic : Option LinearForm) :
    List Term → Except Error LinearForm
  | [] => .ok ((symbolic.map (·.scale scale)).getD (.const scale))
  | t :: ts => do
    let f ← t.linearize
    if f.isConstant then linearizeProduct whole (scale * f.constant) symbolic ts
    else if symbolic.isNone then linearizeProduct whole scale (some f) ts
    else throw (.nonLinear whole.text)

end

/-- The linear form of the difference `t - u`; a fault of `t` is reported first. -/
def linearDifference (t u : Term) : Except Error LinearForm := do
  let f ← t.linearize
  let g ← u.linearize
  return f.sub g

end Term
end LinearArith
