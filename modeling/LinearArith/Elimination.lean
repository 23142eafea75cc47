import LinearArith.Certificate

/-! Fourier–Motzkin elimination. A scenario is a list of upper bounds `Σ a · x ≤ b` or `< b`, and an
unknown is eliminated by adding every row that bounds it from above to every row that bounds it from
below. Each row knows the multipliers of the constraints it is the sum of, so a false row without
unknowns is a certificate; without one, values are chosen for the unknowns in reverse order. -/

namespace LinearArith

/-- The upper bound `linear ≤ bound`, or `<`, which is the sum of constraints with the multipliers
`origin`. -/
structure Row where
  linear : Linear
  bound : Rat
  strict : Bool
  origin : LinComb (id : Constraint → Constraint)
  deriving DecidableEq

namespace Row

def holdsAt (v : String → Rat) (r : Row) : Bool :=
  if r.strict then r.linear.eval v < r.bound else r.linear.eval v ≤ r.bound

def isConstant (r : Row) : Bool := r.linear.isEmpty

def isContradiction (r : Row) : Bool :=
  r.isConstant && if r.strict then r.bound ≤ 0 else r.bound < 0

def scale (q : Rat) (r : Row) : Row :=
  ⟨r.linear.scale q, r.bound * q, r.strict, r.origin.scale q⟩

def add (r s : Row) : Row :=
  ⟨r.linear.add s.linear, r.bound + s.bound, r.strict || s.strict, r.origin.add s.origin⟩

/-- The rows that say the same as a constraint: one, or two opposite ones for an equation. -/
def ofConstraint (c : Constraint) : List Row :=
  let d := c.canonical
  let row : Row := ⟨d.linear, d.bound, d.kind = .strict, LinComb.single c 1⟩
  if d.kind = .equal then [row, ⟨d.linear.neg, -d.bound, false, LinComb.single c (-1)⟩] else [row]

/-- The multiple whose first coefficient is 1 or -1. -/
def normalize (r : Row) : Row :=
  match r.linear.toList with
  | [] => r
  | e :: _ => r.scale (magnitude e.2)⁻¹

/-- Of two rows with the same left side, `r` says more than `s`. -/
def tighter (r s : Row) : Bool := r.bound < s.bound || r.bound = s.bound && r.strict && !s.strict

/-- Keeps of all rows whose left sides are positive multiples of each other one that says the
most. -/
def tightest (rows : List Row) : List Row :=
  (rows.foldl (fun kept r => kept.place tighter r.normalize)
    (SortedBy.empty : SortedBy Row.linear)).toList

/-- The sum of an upper and a lower row in which `x` cancels. -/
def resolve (x : String) (upper lower : Row) : Row :=
  (upper.scale (upper.linear.coeff x)⁻¹).add (lower.scale (-lower.linear.coeff x)⁻¹)

end Row

/-- An unknown with the rows in which it occurred when it was eliminated. -/
structure Stage where
  unknown : String
  rows : List Row

namespace Elimination

/-- All sums of an upper and a lower row in which `x` cancels. -/
def resolvents (x : String) (rows : List Row) : List Row :=
  (rows.filter fun r => 0 < r.linear.coeff x).flatMap fun upper =>
    (rows.filter fun r => r.linear.coeff x < 0).map (Row.resolve x upper)

def mentions (x : String) (r : Row) : Bool := r.linear.hasKey x

/-- Eliminates one unknown: the rows that are left, or a contradiction. -/
def project (x : String) (rows : List Row) : Except Row (List Row) :=
  let derived := resolvents x rows
  match derived.find? Row.isContradiction with
  | some r => .error r
  | none =>
    .ok (Row.tightest (rows.filter (!mentions x ·) ++ derived.filter (!·.isConstant)))

def eliminate : List String → List Row → Except Row (List Stage)
  | [], _ => .ok []
  | x :: xs, rows => do
    let left ← project x rows
    let stages ← eliminate xs left
    return ⟨x, rows.filter (mentions x)⟩ :: stages

def unknowns (rows : List Row) : List String :=
  (SortedBy.ofList (rows.flatMap fun r => r.linear.keys) : SortedBy (id : String → String)).toList

def run (rows : List Row) : Except Row (List Stage) :=
  match rows.find? Row.isContradiction with
  | some r => .error r
  | none =>
    let live := rows.filter (!·.isConstant)
    eliminate (unknowns live) live

end Elimination

structure Limit where
  value : Rat
  strict : Bool
  deriving DecidableEq

namespace Limit

def lower (a b : Limit) : Limit :=
  if b.value < a.value || b.value = a.value && b.strict then b else a

def higher (a b : Limit) : Limit :=
  if a.value < b.value || b.value = a.value && b.strict then b else a

def admitsAbove (l : Limit) (q : Rat) : Bool := if l.strict then l.value < q else l.value ≤ q

def admitsBelow (l : Limit) (q : Rat) : Bool := if l.strict then q < l.value else q ≤ l.value

end Limit

/-- A value between two ends: 0 if it is allowed, else a closed end, the lower one first, else the
middle, else one step away from the only end. -/
def chooseBetween (lower upper : Option Limit) : Rat :=
  if lower.all (·.admitsAbove 0) && upper.all (·.admitsBelow 0) then 0
  else
    match lower, upper with
    | some ⟨l, false⟩, _ => l
    | _, some ⟨u, false⟩ => u
    | some ⟨l, true⟩, some ⟨u, true⟩ => (l + u) / 2
    | some ⟨l, true⟩, none => l + 1
    | none, some ⟨u, true⟩ => u - 1
    | none, none => 0

namespace Stage

/-- The end that a row sets for `x` once the other unknowns have values. -/
def limit (x : String) (values : Witness) (r : Row) : Limit :=
  let rest := r.linear.eval fun y => if y = x then 0 else values.value y
  ⟨(r.bound - rest) / r.linear.coeff x, r.strict⟩

def upper (s : Stage) (values : Witness) : Option Limit :=
  ((s.rows.filter fun r => 0 < r.linear.coeff s.unknown).map (limit s.unknown values)).foldl
    (fun best b => some (best.elim b (·.lower b))) none

def lower (s : Stage) (values : Witness) : Option Limit :=
  ((s.rows.filter fun r => r.linear.coeff s.unknown < 0).map (limit s.unknown values)).foldl
    (fun best b => some (best.elim b (·.higher b))) none

def choose (s : Stage) (values : Witness) : Rat := chooseBetween (s.lower values) (s.upper values)

end Stage

/-- Values for the unknowns of the stages, chosen from the last stage to the first. -/
def backSubstitute : List Stage → Witness
  | [] => SortedBy.empty
  | s :: ss =>
    let values := backSubstitute ss
    values.insert (s.unknown, s.choose values)

namespace Scenario

def multipliersOf (s : Scenario) (r : Row) : Multipliers :=
  s.map (fun c => (c, r.origin.coeff c)) (fun _ _ h => h)

/-- Decides a scenario. Unknowns that elimination leaves free are 0. -/
def certificate (s : Scenario) : Certificate :=
  match Elimination.run (s.toList.flatMap Row.ofConstraint) with
  | .error r => .infeasible (s.multipliersOf r)
  | .ok stages =>
    .feasible (s.unknowns.toList.foldl (fun w x => w.insertNew (x, 0)) (backSubstitute stages))

end Scenario
end LinearArith
