import LinearArith.Numeral
import LinearArith.Text.Alphabetic
import LinearArith.Token

/-! The scanner: problem text to tokens. A failing call leaves the scanner after the characters it
could not read, with the tokens found so far, and the next call goes on from there. -/

namespace LinearArith

inductive LexicalFault where
  | unexpectedCharacter (c : Char)
  | zeroDenominator
  /-- A numeral runs into a symbol; `text` ends with its first character. -/
  | invalidNumeral (text : List Char)
  deriving DecidableEq, Repr

def LexicalFault.message : LexicalFault → String
  | unexpectedCharacter c => "Unexpected character '" ++ String.singleton c ++ "'"
  | zeroDenominator => "Zero denominator in numeral"
  | invalidNumeral text => "Invalid numeral '" ++ String.ofList text ++ "'"

inductive Finding where
  | gap
  | token (kind : TokenKind)
  | fault (f : LexicalFault)
  deriving DecidableEq, Repr

structure Reading (input : List Char) where
  text : List Char
  rest : List Char
  found : Finding
  split : text ++ rest = input
  text_ne_nil : text ≠ []

theorem Reading.length_rest_lt {input : List Char} (r : Reading input) :
    r.rest.length < input.length := by
  have h := congrArg List.length r.split
  have := List.length_pos_iff.2 r.text_ne_nil
  simp only [List.length_append] at h
  omega

def isSymbolChar (c : Char) : Bool :=
  Text.isAlphabetic c || "_-+*/<>=!?.'^".toList.contains c

def continuesSymbol (c : Char) : Bool := isSymbolChar c || c.isDigit

namespace Reading

def one (c : Char) (cs : List Char) (found : Finding) : Reading (c :: cs) :=
  ⟨[c], cs, found, rfl, by simp⟩

def span (p : Char → Bool) (c : Char) (cs : List Char) (found : List Char → Finding) :
    Reading (c :: cs) :=
  ⟨c :: cs.takeWhile p, cs.dropWhile p, found (c :: cs.takeWhile p),
    by simp [List.takeWhile_append_dropWhile], by simp⟩

/-- What a numeral is, once its sign is known. -/
def ofNumeral (sign : List Char) (n : Numeral) : Finding :=
  match n.value, n.rest with
  | none, _ => .fault .zeroDenominator
  | some q, c :: _ =>
    if isSymbolChar c then .fault (.invalidNumeral (sign ++ n.text ++ [c]))
    else .token (.number (if sign.isEmpty then q else -q))
  | some q, [] => .token (.number (if sign.isEmpty then q else -q))

def numeral (c : Char) (cs : List Char) (hc : c.isDigit) : Reading (c :: cs) :=
  let n := Numeral.read (c :: cs)
  ⟨n.text, n.rest, ofNumeral [] n, Numeral.text_append_rest _, Numeral.text_ne_nil hc cs⟩

def negativeNumeral (cs : List Char) : Reading ('-' :: cs) :=
  let n := Numeral.read cs
  ⟨'-' :: n.text, n.rest, ofNumeral ['-'] n,
    by simpa using Numeral.text_append_rest cs, by simp⟩

def symbol (c : Char) (cs : List Char) : Reading (c :: cs) :=
  span continuesSymbol c cs fun text => .token (.symbol (String.ofList text))

/-- Reads what a text starts with. A minus sign belongs to a numeral if a digit follows it. -/
def first : (c : Char) → (cs : List Char) → Reading (c :: cs)
  | '-', c :: cs => if c.isDigit then negativeNumeral (c :: cs) else symbol '-' (c :: cs)
  | c, cs =>
    if c = ' ' || c = '\r' || c = '\t' || c = '\n' then one c cs .gap
    else if c = ';' then span (· != '\n') c cs fun _ => .gap
    else if c = '(' then one c cs (.token .leftParen)
    else if c = ')' then one c cs (.token .rightParen)
    else if hc : c.isDigit then numeral c cs hc
    else if isSymbolChar c then symbol c cs
    else one c cs (.fault (.unexpectedCharacter c))

end Reading

structure Scanner where
  rest : List Char
  position : Position
  /-- Tokens found but not yet delivered, the latest first. -/
  pending : List Token

namespace Scanner

def ofText (text : String) : Scanner := ⟨text.toList, .start, []⟩

/-- Scans to the end of the text or to the first fault. At the end all pending tokens are delivered,
followed by the end-of-file token. -/
def scan (s : Scanner) : Except Error (List Token) × Scanner :=
  match h : s.rest with
  | [] => (.ok (⟨.eof, "", s.position⟩ :: s.pending).reverse, { s with pending := [] })
  | c :: cs =>
    let r := Reading.first c cs
    have : r.rest.length < s.rest.length := by rw [h]; exact r.length_rest_lt
    let later : Scanner := ⟨r.rest, s.position.after r.text, s.pending⟩
    match r.found with
    | .gap => scan later
    | .token kind =>
      scan { later with pending := ⟨kind, String.ofList r.text, s.position⟩ :: s.pending }
    | .fault f => (.error (.syntaxError s.position f.message), later)
termination_by s.rest.length

end Scanner
end LinearArith
