/-! Positions in a problem text and the errors of the library. Each error is a cause; its wording is
in `Error.message` alone. -/

namespace LinearArith

/-- Line and column, both counted from 1 in characters. -/
structure Position where
  line : Nat
  column : Nat
  deriving DecidableEq, Repr

namespace Position

def start : Position := ⟨1, 1⟩

def next (p : Position) (c : Char) : Position :=
  if c = '\n' then ⟨p.line + 1, 1⟩ else ⟨p.line, p.column + 1⟩

def after (p : Position) (text : List Char) : Position := text.foldl next p

@[simp] theorem after_nil (p : Position) : p.after [] = p := rfl

@[simp] theorem after_cons (p : Position) (c : Char) (cs : List Char) :
    p.after (c :: cs) = (p.next c).after cs := rfl

theorem after_append (p : Position) (cs ds : List Char) :
    p.after (cs ++ ds) = (p.after cs).after ds := List.foldl_append

end Position

inductive Error where
  | syntaxError (position : Position) (reason : String)
  | unexpectedEof
  | unexpectedToken (expected got : String)
  | unknownVariable (name : String)
  | duplicateVariable (name : String)
  | duplicateGoal
  /-- A product of two variables or a variable divisor, in the printed term. -/
  | nonLinear (term : String)
  | divisionByZero
  | invalidConfig (reason : String)
  | oracleFailure (reason : String)
  deriving DecidableEq, Repr

inductive Severity where
  | fatal
  | recoverable
  deriving DecidableEq, Repr

namespace Error

def message : Error → String
  | syntaxError p reason =>
    "Syntax error at line " ++ p.line.repr ++ ", column " ++ p.column.repr ++ ": " ++ reason
  | unexpectedEof => "Unexpected end of file"
  | unexpectedToken expected got => "Unexpected token: expected " ++ expected ++ ", got " ++ got
  | unknownVariable name => "Undeclared variable: " ++ name
  | duplicateVariable name => "Variable declared twice: " ++ name
  | duplicateGoal => "Problem already has a goal"
  | nonLinear term => "Non-linear term: " ++ term
  | divisionByZero => "Division by zero"
  | invalidConfig reason => "Invalid configuration: " ++ reason
  | oracleFailure reason => "Feasibility oracle failed: " ++ reason

/-- A hypothesis whose terms are not linear is dropped and the search goes on; every other error
ends it. -/
def severity : Error → Severity
  | nonLinear _ => .recoverable
  | divisionByZero => .recoverable
  | _ => .fatal

def isRecoverable (e : Error) : Bool := e.severity = .recoverable

end Error

theorem bind_eq_ok_iff {ε α β : Type} {x : Except ε α} {f : α → Except ε β} {b : β} :
    x >>= f = .ok b ↔ ∃ a, x = .ok a ∧ f a = .ok b := by
  cases x <;> simp [bind, Except.bind]

theorem bind_eq_error_iff {ε α β : Type} {x : Except ε α} {f : α → Except ε β} {e : ε} :
    x >>= f = .error e ↔ x = .error e ∨ ∃ a, x = .ok a ∧ f a = .error e := by
  cases x <;> simp [bind, Except.bind]

theorem map_eq_ok_iff {ε α β : Type} {x : Except ε α} {f : α → β} {b : β} :
    x.map f = .ok b ↔ ∃ a, x = .ok a ∧ f a = b := by
  cases x <;> simp [Except.map]

theorem mapM_eq_ok {ε α β : Type} {f : α → Except ε β} {g : α → β} {l : List α}
    (h : ∀ a ∈ l, f a = .ok (g a)) : l.mapM f = .ok (l.map g) := by
  induction l with
  | nil => rfl
  | cons a l ih =>
    rw [List.mapM_cons, h a (by simp), ih fun b hb => h b (by simp [hb])]
    rfl

theorem toOption_bind {ε α β : Type} (x : Except ε α) (g : α → Except ε β) :
    (x >>= g).toOption = x.toOption.bind fun a => (g a).toOption := by
  cases x <;> rfl

end LinearArith
