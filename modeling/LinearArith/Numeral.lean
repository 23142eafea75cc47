import LinearArith.Rational

/-! Numerals: digits, digits with a decimal fraction, or a quotient of digits. -/

namespace LinearArith

structure Numeral where
  text : List Char
  /-- None if the denominator is zero. -/
  value : Option Rat
  rest : List Char

namespace Numeral

def digits (cs : List Char) : List Char := cs.takeWhile Char.isDigit

def afterDigits (cs : List Char) : List Char := cs.dropWhile Char.isDigit

theorem digits_append (cs : List Char) : digits cs ++ afterDigits cs = cs :=
  List.takeWhile_append_dropWhile

def natValue (ds : List Char) : Nat := Nat.ofDigitChars 10 ds 0

/-- What a decimal fraction is divided by. The number of its digits is a 32-bit number. -/
def decimalScale (es : List Char) : Nat := Nat.pow 10 (es.length % UInt32.size)

def whole (ds rest : List Char) : Numeral := ⟨ds, some (natValue ds : Nat), rest⟩

/-- Reads the numeral that a text starts with; the text starts with a digit. A point or a slash
belongs to it only if a digit follows. -/
def read (cs : List Char) : Numeral :=
  let ds := digits cs
  match afterDigits cs with
  | '.' :: d :: rest =>
    if d.isDigit then
      let es := digits (d :: rest)
      ⟨ds ++ '.' :: es, some (mkRat (natValue (ds ++ es)) (decimalScale es)),
        afterDigits (d :: rest)⟩
    else whole ds ('.' :: d :: rest)
  | '/' :: d :: rest =>
    if d.isDigit then
      let es := digits (d :: rest)
      ⟨ds ++ '/' :: es,
        if natValue es = 0 then none else some (mkRat (natValue ds) (natValue es)),
        afterDigits (d :: rest)⟩
    else whole ds ('/' :: d :: rest)
  | rest => whole ds rest

theorem text_append_rest (cs : List Char) : (read cs).text ++ (read cs).rest = cs := by
  have h := digits_append cs
  unfold read
  split
  next d rest hr =>
    rw [hr] at h
    split
    · simpa [digits_append] using h
    · exact h
  next d rest hr =>
    rw [hr] at h
    split
    · simpa [digits_append] using h
    · exact h
  next => exact h

theorem text_ne_nil {c : Char} (hc : c.isDigit) (cs : List Char) : (read (c :: cs)).text ≠ [] := by
  have h : digits (c :: cs) ≠ [] := by simp [digits, hc]
  unfold read
  split
  · split <;> simp [whole, h]
  · split <;> simp [whole, h]
  · simpa [whole] using h

end Numeral
end LinearArith
