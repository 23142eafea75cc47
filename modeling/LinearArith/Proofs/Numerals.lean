import LinearArith.Proofs.Scanning
import Mathlib.Data.List.Induction
import Mathlib.Data.Nat.Digits.Defs

/-! Numerals as they are written, in three shapes, and what they are scanned as: a number of exactly that
value where nothing goes on with them, and a fault otherwise. -/

namespace LinearArith
namespace Numeral

/-- The number in decimal notation, the last digit counting ones. -/
def decimalValue (ds : List Char) : Nat :=
  Nat.ofDigits 10 (ds.reverse.map fun c => c.toNat - '0'.toNat)

theorem natValue_append_singleton (ds : List Char) (d : Char) :
    natValue (ds ++ [d]) = 10 * natValue ds + (d.toNat - '0'.toNat) := by
  rw [natValue, Nat.ofDigitChars_append]
  rfl

theorem natValue_eq_decimalValue (ds : List Char) : natValue ds = decimalValue ds := by
  induction ds using List.reverseRecOn with
  | nil => rfl
  | append_singleton ds d ih =>
    rw [natValue_append_singleton, ih, decimalValue, decimalValue, List.reverse_append,
      List.reverse_singleton, List.singleton_append, List.map_cons, Nat.ofDigits_cons, Nat.add_comm]

theorem eq_zero_of_isDigit {c : Char} (hc : c.isDigit = true) (h : c.toNat - '0'.toNat = 0) :
    c = '0' := by
  have hlow : '0'.toNat ≤ c.toNat := by
    simp only [Char.isDigit, Bool.and_eq_true, decide_eq_true_eq] at hc
    exact UInt32.le_iff_toNat_le.mp hc.1
  have hcode : c.toNat = '0'.toNat := by omega
  exact Char.toNat_inj.mp hcode

theorem natValue_eq_zero_iff {es : List Char} (hes : ∀ c ∈ es, c.isDigit = true) :
    natValue es = 0 ↔ ∀ c ∈ es, c = '0' := by
  induction es using List.reverseRecOn with
  | nil => simp [natValue]
  | append_singleton es e ih =>
    have ih := ih fun c hc => hes c (by simp [hc])
    have he : e.isDigit = true := hes e (by simp)
    rw [natValue_append_singleton, List.forall_mem_append, List.forall_mem_singleton, ← ih]
    constructor
    · intro h
      exact ⟨by omega, eq_zero_of_isDigit he (by omega)⟩
    · rintro ⟨hzero, rfl⟩
      rw [hzero]
      rfl

/-- A numeral as it is written, without a sign. -/
inductive Spelling where
  | whole (ds : List Char)
  | decimal (ds es : List Char)
  | quotient (ds es : List Char)

namespace Spelling
variable {w : Spelling} {rest : List Char}

def text : Spelling → List Char
  | whole ds => ds
  | decimal ds es => ds ++ '.' :: es
  | quotient ds es => ds ++ '/' :: es

def value : Spelling → Rat
  | whole ds => decimalValue ds
  | decimal ds es => decimalValue (ds ++ es) / 10 ^ es.length
  | quotient ds es => decimalValue ds / decimalValue es

def dividesByZero : Spelling → Bool
  | quotient _ es => es.all (· = '0')
  | _ => false

def IsDigits (ds : List Char) : Prop := ds ≠ [] ∧ ∀ c ∈ ds, c.isDigit = true

instance (ds : List Char) : Decidable (IsDigits ds) :=
  decidable_of_iff (ds ≠ [] ∧ ds.all Char.isDigit = true) (and_congr_right' List.all_eq_true)

def WellFormed : Spelling → Prop
  | whole ds => IsDigits ds
  | decimal ds es => IsDigits ds ∧ IsDigits es ∧ es.length < UInt32.size
  | quotient ds es => IsDigits ds ∧ IsDigits es

/-- The characters that follow make it a longer numeral. -/
def ExtendedBy (w : Spelling) (rest : List Char) : Prop :=
  ∃ longer : Spelling, longer.WellFormed ∧
    ∃ more, more ≠ [] ∧ longer.text = w.text ++ more ∧ more <+: rest

theorem exists_isDigit_text (hw : w.WellFormed) : ∃ d ds, w.text = d :: ds ∧ d.isDigit = true := by
  have hhead : ∀ {ds : List Char}, IsDigits ds → ∃ d ds', ds = d :: ds' ∧ d.isDigit = true := by
    intro ds hds
    obtain ⟨d, ds', rfl⟩ := List.exists_cons_of_ne_nil hds.1
    exact ⟨d, ds', rfl, hds.2 d (by simp)⟩
  cases w with
  | whole ds => exact hhead hw
  | decimal ds es | quotient ds es =>
    obtain ⟨d, ds', rfl, hd⟩ := hhead hw.1
    exact ⟨d, _, rfl, hd⟩

theorem countP_eq_zero_of_isDigits {ds : List Char} (h : IsDigits ds) :
    ds.countP (fun c => !c.isDigit) = 0 := by
  rw [List.countP_eq_zero]
  intro c hc
  simp [h.2 c hc]

theorem countP_text_le (hw : w.WellFormed) : w.text.countP (fun c => !c.isDigit) ≤ 1 := by
  cases w with
  | whole ds => simp [text, countP_eq_zero_of_isDigits hw]
  | decimal ds es =>
    simp [text, List.countP_append, countP_eq_zero_of_isDigits hw.1,
      countP_eq_zero_of_isDigits hw.2.1]
  | quotient ds es =>
    simp [text, List.countP_append, countP_eq_zero_of_isDigits hw.1,
      countP_eq_zero_of_isDigits hw.2]

theorem exists_whole_of_extendedBy (hdigit : ∀ c ∈ rest.head?, c.isDigit = false)
    (h : w.ExtendedBy rest) : ∃ ds, w = whole ds := by
  obtain ⟨longer, hlonger, more, hmore, htext, tail, rfl⟩ := h
  obtain ⟨c, cs, rfl⟩ := List.exists_cons_of_ne_nil hmore
  have hc : c.isDigit = false := hdigit c rfl
  have hmarks := countP_text_le hlonger
  rw [htext, List.countP_append, List.countP_cons_of_pos (by simp [hc])] at hmarks
  have hnone : w.text.countP (fun c => !c.isDigit) = 0 := by omega
  cases w with
  | whole ds => exact ⟨ds, rfl⟩
  | decimal ds es | quotient ds es => simp [text, List.countP_append] at hnone

/-- A point or a slash before a digit makes a whole number a longer numeral. -/
theorem endsWhole_of_not_extendedBy {ds : List Char} (hds : IsDigits ds)
    (h : ¬(whole ds).ExtendedBy rest) : EndsWhole rest := by
  intro mark hmark d tail hrest
  by_contra hd
  have hd : d.isDigit = true := by simpa using hd
  have hsingle : IsDigits [d] := ⟨by simp, by simpa using hd⟩
  have hbegins : [mark, d] <+: rest := ⟨tail, hrest.symm⟩
  apply h
  rcases List.mem_cons.mp hmark with rfl | hmark
  · have hwell : (decimal ds [d]).WellFormed := ⟨hds, hsingle, by simp⟩
    exact ⟨_, hwell, _, by simp, rfl, hbegins⟩
  · obtain rfl := List.mem_singleton.mp hmark
    have hwell : (quotient ds [d]).WellFormed := ⟨hds, hsingle⟩
    exact ⟨_, hwell, _, by simp, rfl, hbegins⟩

def value? (w : Spelling) : Option Rat := if w.dividesByZero then none else some w.value

theorem mkRat_decimalScale {ds es : List Char} (h : es.length < UInt32.size) :
    mkRat (natValue (ds ++ es)) (decimalScale es) = (decimal ds es).value := by
  have hscale : decimalScale es = 10 ^ es.length := by
    rw [decimalScale, Nat.mod_eq_of_lt h]
    rfl
  rw [hscale, Rat.mkRat_eq_div, natValue_eq_decimalValue, value]
  push_cast
  rfl

theorem mkRat_natValue (ds es : List Char) :
    mkRat (natValue ds) (natValue es) = (quotient ds es).value := by
  rw [Rat.mkRat_eq_div, natValue_eq_decimalValue, natValue_eq_decimalValue, value]
  rfl

theorem dividesByZero_quotient_iff {ds es : List Char} (hes : ∀ c ∈ es, c.isDigit = true) :
    (quotient ds es).dividesByZero = true ↔ natValue es = 0 := by
  rw [natValue_eq_zero_iff hes, dividesByZero, List.all_eq_true]
  simp only [decide_eq_true_eq]

/-- A numeral is read up to a character that is no digit; a whole number must not be followed by a
fraction or a denominator. -/
theorem read_text (hw : w.WellFormed) (hdigit : ∀ c ∈ rest.head?, c.isDigit = false)
    (hends : ∀ ds, w = whole ds → EndsWhole rest) : read (w.text ++ rest) = ⟨w.text, w.value?, rest⟩ := by
  cases w with
  | whole ds =>
    rw [text, read_whole hw.2 hdigit (hends ds rfl), Numeral.whole,
      natValue_eq_decimalValue]
    rfl
  | decimal ds es =>
    obtain ⟨hds, hes, hlength⟩ := hw
    rw [text, List.append_assoc, List.cons_append, read_decimal hds.2 hes.2 hes.1 hdigit,
      mkRat_decimalScale hlength]
    rfl
  | quotient ds es =>
    obtain ⟨hds, hes⟩ := hw
    have hzero : (quotient ds es).dividesByZero = true ↔ natValue es = 0 :=
      dividesByZero_quotient_iff hes.2
    rw [text, List.append_assoc, List.cons_append, read_quotient hds.2 hes.2 hes.1 hdigit,
      mkRat_natValue, value?]
    simp only [hzero]

/-! ### Numerals with a sign -/

def sign (negative : Bool) : List Char := if negative then ['-'] else []

def signedText (negative : Bool) (w : Spelling) : List Char := sign negative ++ w.text

def signedValue (negative : Bool) (w : Spelling) : Rat := if negative then -w.value else w.value

theorem exists_first_signed (negative : Bool) {d : Char} (hd : d.isDigit = true) (ds : List Char) :
    ∃ c cs, sign negative ++ d :: ds = c :: cs ∧
      (Reading.first c cs).text = sign negative ++ (read (d :: ds)).text ∧
      (Reading.first c cs).rest = (read (d :: ds)).rest ∧
      (Reading.first c cs).found = Reading.ofNumeral (sign negative) (read (d :: ds)) := by
  cases negative with
  | false =>
    refine ⟨d, ds, rfl, ?_⟩
    rw [Reading.first_of_isDigit hd]
    exact ⟨rfl, rfl, rfl⟩
  | true =>
    refine ⟨'-', d :: ds, rfl, ?_⟩
    rw [Reading.first_minus_of_isDigit hd]
    exact ⟨rfl, rfl, rfl⟩

theorem exists_first_text (negative : Bool) (hw : w.WellFormed)
    (hdigit : ∀ c ∈ rest.head?, c.isDigit = false) (hends : ∀ ds, w = whole ds → EndsWhole rest) :
    ∃ c cs, w.signedText negative ++ rest = c :: cs ∧
      (Reading.first c cs).text = w.signedText negative ∧ (Reading.first c cs).rest = rest ∧
      (Reading.first c cs).found =
        Reading.ofNumeral (sign negative) ⟨w.text, w.value?, rest⟩ := by
  obtain ⟨d, ds, htext, hd⟩ := exists_isDigit_text hw
  have hread : read (d :: (ds ++ rest)) = ⟨w.text, w.value?, rest⟩ := by
    rw [← List.cons_append, ← htext]
    exact read_text hw hdigit hends
  obtain ⟨c, cs, hcs, hfirst⟩ := exists_first_signed negative hd (ds ++ rest)
  rw [hread] at hfirst
  refine ⟨c, cs, ?_, hfirst⟩
  rw [signedText, htext, List.append_assoc, List.cons_append]
  exact hcs

end Spelling

/-! ### What is scanned -/

open Scanner Spelling

variable {w : Spelling} {rest : List Char} {p : Position} {pending : List Token}

theorem ofNumeral_of_delimited (negative : Bool) (hzero : w.dividesByZero = false)
    (hrest : Delimited rest) : Reading.ofNumeral (sign negative) ⟨w.text, w.value?, rest⟩ =
      .token (.number (w.signedValue negative)) := by
  have hvalue : w.value? = some w.value := by rw [value?, hzero]; rfl
  have hsign : (if (sign negative).isEmpty then w.value else -w.value) = w.signedValue negative := by
    cases negative <;> rfl
  rw [hvalue, ← hsign]
  cases rest with
  | nil => rfl
  | cons c cs =>
    have hc : ¬isSymbolChar c = true := by simp [(Bool.or_eq_false_iff.mp (hrest c rfl)).1]
    exact if_neg hc

theorem ofNumeral_of_dividesByZero (negative : Bool) (hzero : w.dividesByZero = true) :
    Reading.ofNumeral (sign negative) ⟨w.text, w.value?, rest⟩ = .fault .zeroDenominator := by
  have hvalue : w.value? = none := by rw [value?, hzero]; rfl
  rw [hvalue]
  rfl

theorem ofNumeral_of_isSymbolChar (negative : Bool) (hzero : w.dividesByZero = false) {c : Char}
    (hc : isSymbolChar c = true) (cs : List Char) :
    Reading.ofNumeral (sign negative) ⟨w.text, w.value?, c :: cs⟩ =
      .fault (.invalidNumeral (w.signedText negative ++ [c])) := by
  have hvalue : w.value? = some w.value := by rw [value?, hzero]; rfl
  rw [hvalue]
  exact if_pos hc

theorem scan_of_token_text {negative : Bool} {kind : TokenKind} (hw : w.WellFormed)
    (hdigit : ∀ c ∈ rest.head?, c.isDigit = false) (hends : ∀ ds, w = .whole ds → EndsWhole rest)
    (h : Reading.ofNumeral (sign negative) ⟨w.text, w.value?, rest⟩ = .token kind) :
    scan ⟨w.signedText negative ++ rest, p, pending⟩ =
      scan ⟨rest, p.after (w.signedText negative),
        ⟨kind, String.ofList (w.signedText negative), p⟩ :: pending⟩ := by
  obtain ⟨c, cs, hcs, htext, hrest, hfound⟩ := exists_first_text negative hw hdigit hends
  rw [h] at hfound
  rw [hcs, scan_of_token hfound, htext, hrest]

theorem scan_of_fault_text {negative : Bool} {f : LexicalFault} (hw : w.WellFormed)
    (hdigit : ∀ c ∈ rest.head?, c.isDigit = false) (hends : ∀ ds, w = .whole ds → EndsWhole rest)
    (h : Reading.ofNumeral (sign negative) ⟨w.text, w.value?, rest⟩ = .fault f) :
    scan ⟨w.signedText negative ++ rest, p, pending⟩ =
      (.error (.syntaxError p f.message), ⟨rest, p.after (w.signedText negative), pending⟩) := by
  obtain ⟨c, cs, hcs, htext, hrest, hfound⟩ := exists_first_text negative hw hdigit hends
  rw [h] at hfound
  rw [hcs, scan_of_fault hfound, htext, hrest]

/-- A numeral with or without a minus sign, where a token starts. If neither a digit nor a symbol
character follows, it is scanned as one number of its value. If its denominator is zero, or if a symbol
character follows that makes it no longer numeral, the scan fails at it and adds no token. -/
theorem numeral_exact (hw : w.WellFormed) (negative : Bool) (rest : List Char) (p : Position)
    (pending : List Token) :
    (Delimited rest → w.dividesByZero = false →
      scan ⟨w.signedText negative ++ rest, p, pending⟩ =
        scan ⟨rest, p.after (w.signedText negative),
          ⟨.number (w.signedValue negative), String.ofList (w.signedText negative), p⟩ :: pending⟩) ∧
    ((∀ c ∈ rest.head?, c.isDigit = false) → w.dividesByZero = true →
      scan ⟨w.signedText negative ++ rest, p, pending⟩ =
        (.error (.syntaxError p "Zero denominator in numeral"),
          ⟨rest, p.after (w.signedText negative), pending⟩)) ∧
    ∀ c ∈ rest.head?, isSymbolChar c = true → ¬w.ExtendedBy rest → w.dividesByZero = false →
      scan ⟨w.signedText negative ++ rest, p, pending⟩ =
        (.error (.syntaxError p
            ("Invalid numeral '" ++ String.ofList (w.signedText negative ++ [c]) ++ "'")),
          ⟨rest, p.after (w.signedText negative), pending⟩) := by
  refine ⟨fun hrest hzero => ?_, fun hdigit hzero => ?_, fun c hc hsymbol hends hzero => ?_⟩
  · have hfound := ofNumeral_of_delimited negative hzero hrest
    exact scan_of_token_text hw (isDigit_of_delimited hrest)
      (fun _ _ => endsWhole_of_delimited hrest) hfound
  · refine scan_of_fault_text hw hdigit (fun ds hds => ?_) (ofNumeral_of_dividesByZero negative hzero)
    rw [hds] at hzero
    cases hzero
  · obtain ⟨cs, rfl⟩ := List.head?_eq_some_iff.mp hc
    have hdigit : ∀ d ∈ (c :: cs).head?, d.isDigit = false := by
      intro d hd
      obtain rfl := Option.some.inj hd
      by_contra hnot
      rw [isSymbolChar_of_isDigit (by simpa using hnot)] at hsymbol
      cases hsymbol
    have hfound := ofNumeral_of_isSymbolChar negative hzero hsymbol cs
    refine scan_of_fault_text hw hdigit (fun ds hds => ?_) hfound
    subst hds
    exact endsWhole_of_not_extendedBy hw hends

/-- `-0.05` is a number before a parenthesis; `7/00` and `1.5/2` are none. -/
theorem numeral_exact_at_small_fraction :
    scan ⟨"-0.05)".toList, .start, []⟩ =
        scan ⟨[')'], ⟨1, 6⟩, [⟨.number (-1 / 20), "-0.05", ⟨1, 1⟩⟩]⟩ ∧
      (scan ⟨"7/00".toList, .start, []⟩).1 =
        .error (.syntaxError .start "Zero denominator in numeral") ∧
      scan ⟨"1.5/2".toList, .start, []⟩ =
        (.error (.syntaxError .start "Invalid numeral '1.5/'"), ⟨['/', '2'], ⟨1, 4⟩, []⟩) := by
  have hsmall : (Spelling.decimal ['0'] ['0', '5']).WellFormed := by
    exact ⟨by decide, by decide, by decide⟩
  have hzero : (Spelling.quotient ['7'] ['0', '0']).WellFormed := ⟨by decide, by decide⟩
  have hlong : (Spelling.decimal ['1'] ['5']).WellFormed := ⟨by decide, by decide, by decide⟩
  refine ⟨?_, ?_, ?_⟩
  · have hvalue : (Spelling.decimal ['0'] ['0', '5']).signedValue true = -1 / 20 := by
      decide +kernel
    have h := (numeral_exact hsmall true [')'] .start []).1 (delimited_separator (by decide) []) rfl
    rw [hvalue] at h
    exact h
  · exact congrArg Prod.fst ((numeral_exact hzero false [] .start []).2.1 nofun rfl)
  · have hends : ¬(Spelling.decimal ['1'] ['5']).ExtendedBy ['/', '2'] := by
      intro h
      have hslash : ∀ c ∈ ['/', '2'].head?, c.isDigit = false := by
        rintro c ⟨⟩
        rfl
      obtain ⟨ds, hds⟩ := exists_whole_of_extendedBy hslash h
      cases hds
    exact (numeral_exact hlong false ['/', '2'] .start []).2.2 '/' rfl (by decide +kernel) hends rfl

end Numeral
end LinearArith
