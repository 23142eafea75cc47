import LinearArith.Error

/-! The configuration of the tactic and its JSON form: an object that may have the one key
`verbose`, or an array of at most one truth value. -/

namespace LinearArith

structure Config where
  verbose : Bool := false
  deriving DecidableEq, Repr

namespace Config

def isBlank (c : Char) : Bool := c = ' ' || c = '\t' || c = '\n' || c = '\r'

def skipBlanks (cs : List Char) : List Char := cs.dropWhile isBlank

def expect? : List Char → List Char → Option (List Char)
  | [], cs => some cs
  | e :: es, c :: cs => if e = c then expect? es cs else none
  | _ :: _, [] => none

def hexDigit? (c : Char) : Option Nat :=
  if '0' ≤ c && c ≤ '9' then some (c.toNat - '0'.toNat)
  else if 'a' ≤ c && c ≤ 'f' then some (c.toNat - 'a'.toNat + 10)
  else if 'A' ≤ c && c ≤ 'F' then some (c.toNat - 'A'.toNat + 10)
  else none

/-- What follows the character `e` within quotes, where it stands plain or as `\u` and four
hexadecimal digits. -/
def expectQuoted? (e : Char) : List Char → Option (List Char)
  | '\\' :: 'u' :: a :: b :: c :: d :: cs => do
    let code := (((← hexDigit? a) * 16 + (← hexDigit? b)) * 16 + (← hexDigit? c)) * 16 +
      (← hexDigit? d)
    if code = e.toNat then some cs else none
  | c :: cs => if c = e then some cs else none
  | [] => none

def expectWord? : List Char → List Char → Option (List Char)
  | [], cs => expect? ['"'] cs
  | e :: es, cs => (expectQuoted? e cs).bind (expectWord? es)

def truth? (cs : List Char) : Option (Bool × List Char) :=
  match expect? "true".toList cs with
  | some rest => some (true, rest)
  | none => (expect? "false".toList cs).map fun rest => (false, rest)

def close? (closing : Char) (config : Config) (cs : List Char) : Option Config := do
  let rest ← expect? [closing] (skipBlanks cs)
  if (skipBlanks rest).isEmpty then some config else none

def ofObject? (cs : List Char) : Option Config :=
  match skipBlanks cs with
  | '"' :: cs => do
    let cs ← expectWord? "verbose".toList cs
    let cs ← expect? [':'] (skipBlanks cs)
    let (verbose, cs) ← truth? (skipBlanks cs)
    close? '}' ⟨verbose⟩ cs
  | cs => close? '}' {} cs

def ofArray? (cs : List Char) : Option Config :=
  match truth? (skipBlanks cs) with
  | some (verbose, cs) => close? ']' ⟨verbose⟩ cs
  | none => close? ']' {} cs

def ofJson? (text : String) : Option Config :=
  match skipBlanks text.toList with
  | '{' :: cs => ofObject? cs
  | '[' :: cs => ofArray? cs
  | _ => none

def ofJson (text : String) : Except Error Config :=
  match ofJson? text with
  | some config => .ok config
  | none => .error (.invalidConfig "not an object with the key verbose or an array of one truth value")

end Config
end LinearArith
