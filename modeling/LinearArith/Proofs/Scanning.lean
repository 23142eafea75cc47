import LinearArith.Scanner
import Mathlib.Data.List.TakeWhile
import Mathlib.Data.Rat.Defs

/-! Texts that are scanned piece by piece. A piece is read as its tokens whatever stands before it, and
after it comes what cannot go on a symbol or a numeral. Rationals and symbols are read as what they
are. -/

namespace LinearArith

/-! ### Classes of characters -/

theorem Text.inRanges_of_lt {c : Char} (h : c.toNat < 0xAA) :
    inRanges alphabeticRanges c = false := by
  have hlow : ∀ r ∈ alphabeticRanges, 0xAA ≤ r.1 := by decide +kernel
  rw [inRanges, List.any_eq_false]
  intro r hr
  have hr := hlow r hr
  simp only [Bool.and_eq_true, decide_eq_true_eq]
  omega

theorem isSymbolChar_of_isDigit {c : Char} (h : c.isDigit = true) : isSymbolChar c = false := by
  have hmarks : "_-+*/<>=!?.'^".toList.any Char.isDigit = false := by decide
  have hmark : "_-+*/<>=!?.'^".toList.contains c = false := by
    rw [List.contains_eq_mem, decide_eq_false_iff_not]
    exact fun hc => List.any_eq_false.mp hmarks c hc h
  have hcode : 48 ≤ c.toNat ∧ c.toNat ≤ 57 := by
    simpa [Char.isDigit, UInt32.le_iff_toNat_le] using h
  have hupper : c.isUpper = false := by
    refine decide_eq_false fun hc => ?_
    have hA : 65 ≤ c.toNat := UInt32.le_iff_toNat_le.mp hc.1
    omega
  have hlower : c.isLower = false := by
    refine Bool.and_eq_false_iff.mpr (Or.inl (decide_eq_false fun hc => ?_))
    have ha : 97 ≤ c.toNat := UInt32.le_iff_toNat_le.mp hc
    omega
  have halpha : c.isAlpha = false := Bool.or_eq_false_iff.mpr ⟨hupper, hlower⟩
  rw [isSymbolChar, Text.isAlphabetic, halpha, hmark, Text.inRanges_of_lt (by omega)]
  rfl

def isBlank (c : Char) : Bool := c = ' ' || c = '\r' || c = '\t' || c = '\n'

/-- The characters that begin a gap, and the parentheses. -/
def separators : List Char := [' ', '\r', '\t', '\n', ';', '(', ')']

theorem mem_separators_of_isBlank {c : Char} (h : isBlank c = true) : c ∈ separators := by
  simp only [isBlank, Bool.or_eq_true, decide_eq_true_eq] at h
  rcases h with ((rfl | rfl) | rfl) | rfl <;> decide

theorem not_mem_separators_of_isSymbolChar {c : Char} (h : isSymbolChar c = true) :
    c ∉ separators := by
  have hnone : separators.any isSymbolChar = false := by decide +kernel
  exact fun hc => List.any_eq_false.mp hnone c hc h

theorem not_mem_separators_of_isDigit {c : Char} (h : c.isDigit = true) : c ∉ separators := by
  have hnone : separators.any Char.isDigit = false := by decide
  exact fun hc => List.any_eq_false.mp hnone c hc h

/-- What comes next does not go on a symbol or a numeral. -/
def Delimited (rest : List Char) : Prop := ∀ c ∈ rest.head?, continuesSymbol c = false

theorem delimited_nil : Delimited [] := nofun

theorem delimited_separator {c : Char} (h : c ∈ separators) (cs : List Char) :
    Delimited (c :: cs) := by
  have hnone : separators.any continuesSymbol = false := by decide +kernel
  intro d hd
  obtain rfl := Option.some.inj hd
  exact Bool.eq_false_iff.mpr (List.any_eq_false.mp hnone c h)

/-! ### Numerals -/

namespace Numeral

theorem digits_of_append {ds rest : List Char} (hds : ∀ c ∈ ds, c.isDigit = true)
    (hrest : ∀ c ∈ rest.head?, c.isDigit = false) :
    digits (ds ++ rest) = ds ∧ afterDigits (ds ++ rest) = rest := by
  rw [digits, afterDigits, List.takeWhile_append_of_pos hds, List.dropWhile_append_of_pos hds]
  cases rest with
  | nil => simp
  | cons c cs =>
    have hc : c.isDigit = false := hrest c rfl
    simp [hc]

theorem isDigit_of_delimited {rest : List Char} (h : Delimited rest) :
    ∀ c ∈ rest.head?, c.isDigit = false :=
  fun c hc => (Bool.or_eq_false_iff.mp (h c hc)).2

/-- What comes next is neither a decimal fraction nor a denominator. -/
def EndsWhole (rest : List Char) : Prop :=
  ∀ mark ∈ ['.', '/'], ∀ d tail, rest = mark :: d :: tail → d.isDigit = false

theorem endsWhole_of_delimited {rest : List Char} (h : Delimited rest) : EndsWhole rest := by
  intro mark hmark d tail hrest
  have hmarks : ['.', '/'].all continuesSymbol = true := by decide +kernel
  have hcontinues : continuesSymbol mark = true := List.all_eq_true.mp hmarks mark hmark
  have hends : continuesSymbol mark = false := h mark (by rw [hrest]; rfl)
  rw [hcontinues] at hends
  cases hends

theorem read_whole {ds rest : List Char} (hds : ∀ c ∈ ds, c.isDigit = true)
    (hrest : ∀ c ∈ rest.head?, c.isDigit = false) (hends : EndsWhole rest) :
    read (ds ++ rest) = whole ds rest := by
  obtain ⟨hdigits, hafter⟩ := digits_of_append hds hrest
  rw [read, hdigits, hafter]
  split
  case h_1 d tail => exact if_neg (by rw [hends '.' (by simp) d tail rfl]; exact Bool.false_ne_true)
  case h_2 d tail => exact if_neg (by rw [hends '/' (by simp) d tail rfl]; exact Bool.false_ne_true)
  case h_3 => rfl

theorem digits_of_two_parts {ds es rest : List Char} {mark : Char}
    (hds : ∀ c ∈ ds, c.isDigit = true) (hes : ∀ c ∈ es, c.isDigit = true) (hne : es ≠ [])
    (hmark : mark.isDigit = false) (hrest : ∀ c ∈ rest.head?, c.isDigit = false) :
    digits (ds ++ mark :: (es ++ rest)) = ds ∧
      ∃ e tail, e.isDigit = true ∧ afterDigits (ds ++ mark :: (es ++ rest)) = mark :: e :: tail ∧
        digits (e :: tail) = es ∧ afterDigits (e :: tail) = rest := by
  have hstop : ∀ c ∈ (mark :: (es ++ rest)).head?, c.isDigit = false := by simpa using hmark
  obtain ⟨hdigits, hafter⟩ := digits_of_append hds hstop
  obtain ⟨hfollowing, hend⟩ := digits_of_append hes hrest
  obtain ⟨e, es, rfl⟩ := List.exists_cons_of_ne_nil hne
  exact ⟨hdigits, e, es ++ rest, hes e (by simp), hafter, hfollowing, hend⟩

theorem read_decimal {ds es rest : List Char} (hds : ∀ c ∈ ds, c.isDigit = true)
    (hes : ∀ c ∈ es, c.isDigit = true) (hne : es ≠ [])
    (hrest : ∀ c ∈ rest.head?, c.isDigit = false) :
    read (ds ++ '.' :: (es ++ rest)) =
      ⟨ds ++ '.' :: es, some (mkRat (natValue (ds ++ es)) (decimalScale es)), rest⟩ := by
  obtain ⟨hdigits, e, tail, he, hafter, hfraction, hend⟩ :=
    digits_of_two_parts hds hes hne (show '.'.isDigit = false by decide) hrest
  rw [read, hdigits, hafter]
  simp only [he, if_true, hfraction, hend]

theorem read_quotient {ds es rest : List Char} (hds : ∀ c ∈ ds, c.isDigit = true)
    (hes : ∀ c ∈ es, c.isDigit = true) (hne : es ≠ [])
    (hrest : ∀ c ∈ rest.head?, c.isDigit = false) :
    read (ds ++ '/' :: (es ++ rest)) = ⟨ds ++ '/' :: es,
      if natValue es = 0 then none else some (mkRat (natValue ds) (natValue es)), rest⟩ := by
  obtain ⟨hdigits, e, tail, he, hafter, hdenom, hend⟩ :=
    digits_of_two_parts hds hes hne (show '/'.isDigit = false by decide) hrest
  rw [read, hdigits, hafter]
  simp only [he, if_true, hdenom, hend]

theorem isDigit_of_head?_afterDigits {cs : List Char} :
    ∀ c ∈ (afterDigits cs).head?, c.isDigit = false := by
  intro c hc
  have hfirst := List.head?_dropWhile_not Char.isDigit cs
  rw [← afterDigits, Option.mem_def.mp hc] at hfirst
  exact hfirst

theorem isDigit_of_head?_rest (cs : List Char) :
    ∀ c ∈ (read cs).rest.head?, c.isDigit = false := by
  have hend : ∀ c ∈ (afterDigits cs).head?, c.isDigit = false := isDigit_of_head?_afterDigits
  unfold read
  split
  next d tail hafter =>
    rw [hafter] at hend
    split
    · exact isDigit_of_head?_afterDigits
    · exact hend
  next d tail hafter =>
    rw [hafter] at hend
    split
    · exact isDigit_of_head?_afterDigits
    · exact hend
  next => exact hend

theorem natValue_toDigits (n : Nat) : natValue (Nat.toDigits 10 n) = n :=
  Nat.ofDigitChars_ten_toDigits

end Numeral

theorem isDigit_of_mem_toDigits {n : Nat} {c : Char} (h : c ∈ Nat.toDigits 10 n) :
    c.isDigit = true := Nat.isDigit_of_mem_toDigits (by omega) (by omega) h

def unsignedText (q : Rat) : List Char :=
  if q.den = 1 then Nat.toDigits 10 q.num.natAbs
  else Nat.toDigits 10 q.num.natAbs ++ '/' :: Nat.toDigits 10 q.den

theorem toList_ratText (q : Rat) :
    (ratText q).toList = if q.num < 0 then '-' :: unsignedText q else unsignedText q := by
  by_cases hden : q.den = 1 <;> by_cases hneg : q.num < 0 <;>
    simp [ratText, intText, unsignedText, Nat.repr_eq_ofList_toDigits, hden, hneg]

theorem exists_isDigit_unsignedText (q : Rat) :
    ∃ c cs, unsignedText q = c :: cs ∧ c.isDigit = true := by
  obtain ⟨c, cs, hcs⟩ := List.exists_cons_of_ne_nil
    (Nat.toDigits_ne_nil : Nat.toDigits 10 q.num.natAbs ≠ [])
  have hc : c.isDigit = true := isDigit_of_mem_toDigits (by rw [hcs]; simp)
  by_cases hden : q.den = 1
  · exact ⟨c, cs, by rw [unsignedText, if_pos hden, hcs], hc⟩
  · exact ⟨c, cs ++ '/' :: Nat.toDigits 10 q.den,
      by rw [unsignedText, if_neg hden, hcs, List.cons_append], hc⟩

theorem read_unsignedText (q : Rat) {rest : List Char} (hrest : Delimited rest) :
    Numeral.read (unsignedText q ++ rest) =
      ⟨unsignedText q, some (mkRat q.num.natAbs q.den), rest⟩ := by
  have hdigit := Numeral.isDigit_of_delimited hrest
  by_cases hden : q.den = 1
  · rw [unsignedText, if_pos hden, Numeral.read_whole (fun _ => isDigit_of_mem_toDigits) hdigit
        (Numeral.endsWhole_of_delimited hrest),
      Numeral.whole, Numeral.natValue_toDigits, hden, Rat.mkRat_one]
    rfl
  · rw [unsignedText, if_neg hden, List.append_assoc, List.cons_append,
      Numeral.read_quotient (fun _ => isDigit_of_mem_toDigits) (fun _ => isDigit_of_mem_toDigits)
        Nat.toDigits_ne_nil hdigit,
      Numeral.natValue_toDigits, Numeral.natValue_toDigits, if_neg q.den_nz]

theorem signed_mkRat_natAbs (q : Rat) :
    (if q.num < 0 then -mkRat q.num.natAbs q.den else mkRat q.num.natAbs q.den) = q := by
  split
  next hneg =>
    rw [Rat.neg_mkRat, show -(q.num.natAbs : Int) = q.num by omega, Rat.mkRat_self]
  next hneg => rw [show (q.num.natAbs : Int) = q.num by omega, Rat.mkRat_self]

/-! ### The first token of a text -/

namespace Reading

theorem first_of_not_mem_separators {c : Char} (hc : c ∉ separators) (hminus : c ≠ '-')
    (cs : List Char) : first c cs =
      if hd : c.isDigit then numeral c cs hd
      else if isSymbolChar c then symbol c cs
      else one c cs (.fault (.unexpectedCharacter c)) := by
  simp only [separators, List.mem_cons, List.not_mem_nil, or_false, not_or] at hc
  obtain ⟨h1, h2, h3, h4, h5, h6, h7⟩ := hc
  unfold first
  split
  case h_1 => exact absurd rfl hminus
  case h_2 => simp only [h1, h2, h3, h4, h5, h6, h7, decide_false, Bool.or_self, if_false,
      Bool.false_eq_true]

theorem first_of_isDigit {c : Char} (hc : c.isDigit = true) (cs : List Char) :
    first c cs = numeral c cs hc := by
  have hminus : c ≠ '-' := by
    rintro rfl
    exact absurd hc (by decide)
  rw [first_of_not_mem_separators (not_mem_separators_of_isDigit hc) hminus, dif_pos hc]

theorem first_minus_of_isDigit {c : Char} (hc : c.isDigit = true) (cs : List Char) :
    first '-' (c :: cs) = negativeNumeral (c :: cs) := if_pos hc

theorem first_of_isSymbolChar {c : Char} (hc : isSymbolChar c = true) {cs : List Char}
    (hminus : c = '-' → ∀ d ∈ cs.head?, d.isDigit = false) : first c cs = symbol c cs := by
  by_cases h : c = '-'
  · subst h
    cases cs with
    | nil => simp [first, hc]
    | cons d ds =>
      have hd : d.isDigit = false := hminus rfl d rfl
      exact if_neg (by rw [hd]; exact Bool.false_ne_true)
  · have hdigit : ¬c.isDigit = true := fun hd => by
      rw [isSymbolChar_of_isDigit hd] at hc
      cases hc
    rw [first_of_not_mem_separators (not_mem_separators_of_isSymbolChar hc) h, dif_neg hdigit,
      if_pos hc]

/-- What a text can start with, and how that is read. -/
inductive Starts : (c : Char) → (cs : List Char) → Reading (c :: cs) → Prop
  | blank {c : Char} {cs : List Char} (hc : isBlank c = true) : Starts c cs (one c cs .gap)
  | comment {cs : List Char} : Starts ';' cs (span (· != '\n') ';' cs fun _ => .gap)
  | leftParen {cs : List Char} : Starts '(' cs (one '(' cs (.token .leftParen))
  | rightParen {cs : List Char} : Starts ')' cs (one ')' cs (.token .rightParen))
  | numeral {c : Char} {cs : List Char} (hc : c.isDigit = true) : Starts c cs (numeral c cs hc)
  | negativeNumeral {c : Char} {cs : List Char} (hc : c.isDigit = true) :
      Starts '-' (c :: cs) (negativeNumeral (c :: cs))
  /-- A minus sign begins a symbol only if no digit follows. -/
  | symbol {c : Char} {cs : List Char} (hc : isSymbolChar c = true)
      (hminus : c = '-' → ∀ d ∈ cs.head?, d.isDigit = false) : Starts c cs (symbol c cs)
  | unexpected {c : Char} {cs : List Char} (hseparator : c ∉ separators) (hdigit : c.isDigit = false)
      (hsymbol : isSymbolChar c = false) :
      Starts c cs (one c cs (.fault (.unexpectedCharacter c)))

theorem starts_first (c : Char) (cs : List Char) : Starts c cs (first c cs) := by
  by_cases hseparator : c ∈ separators
  · simp only [separators, List.mem_cons, List.not_mem_nil, or_false] at hseparator
    rcases hseparator with rfl | rfl | rfl | rfl | rfl | rfl | rfl
    · exact .blank rfl
    · exact .blank rfl
    · exact .blank rfl
    · exact .blank rfl
    · exact .comment
    · exact .leftParen
    · exact .rightParen
  · by_cases hdigit : c.isDigit = true
    · rw [first_of_isDigit hdigit]
      exact .numeral hdigit
    · by_cases hsymbol : isSymbolChar c = true
      · by_cases hminus : c = '-' → ∀ d ∈ cs.head?, d.isDigit = false
        · rw [first_of_isSymbolChar hsymbol hminus]
          exact .symbol hsymbol hminus
        · obtain ⟨rfl, hnext⟩ := Classical.not_imp.mp hminus
          cases cs with
          | nil => exact absurd nofun hnext
          | cons d ds =>
            have hd : d.isDigit = true := by simpa using hnext
            rw [first_minus_of_isDigit hd]
            exact .negativeNumeral hd
      · have hminus : c ≠ '-' := fun he => hsymbol (he ▸ by decide +kernel)
        rw [first_of_not_mem_separators hseparator hminus, dif_neg hdigit, if_neg hsymbol]
        exact .unexpected hseparator (Bool.eq_false_iff.mpr hdigit) (Bool.eq_false_iff.mpr hsymbol)

end Reading

namespace Scanner
variable {c : Char} {cs rest : List Char} {p : Position} {pending : List Token}

theorem scan_nil : scan ⟨[], p, pending⟩ =
    (.ok (⟨.eof, "", p⟩ :: pending).reverse, ⟨[], p, []⟩) := by rw [scan]

theorem scan_of_gap (h : (Reading.first c cs).found = .gap) : scan ⟨c :: cs, p, pending⟩ =
    scan ⟨(Reading.first c cs).rest, p.after (Reading.first c cs).text, pending⟩ := by
  rw [scan]
  simp only [h]

theorem scan_of_token {kind : TokenKind} (h : (Reading.first c cs).found = .token kind) :
    scan ⟨c :: cs, p, pending⟩ =
      scan ⟨(Reading.first c cs).rest, p.after (Reading.first c cs).text,
        ⟨kind, String.ofList (Reading.first c cs).text, p⟩ :: pending⟩ := by
  rw [scan]
  simp only [h]

theorem scan_of_fault {f : LexicalFault} (h : (Reading.first c cs).found = .fault f) :
    scan ⟨c :: cs, p, pending⟩ = (.error (.syntaxError p f.message),
      ⟨(Reading.first c cs).rest, p.after (Reading.first c cs).text, pending⟩) := by
  rw [scan]
  simp only [h]

/-- What holds of all that can be found holds of all tokens that are delivered. -/
theorem forall_of_scan {P : Token → Prop}
    (hfirst : ∀ c cs kind p, (Reading.first c cs).found = .token kind →
      P ⟨kind, String.ofList (Reading.first c cs).text, p⟩)
    (heof : ∀ p, P ⟨.eof, "", p⟩) {s : Scanner} {tokens : List Token}
    (hs : ∀ t ∈ s.pending, P t) (h : s.scan.1 = .ok tokens) : ∀ t ∈ tokens, P t := by
  obtain ⟨text, p, pending⟩ := s
  -- the scan goes on behind the characters that are read together, and there are often several
  induction hn : text.length using Nat.strongRecOn generalizing text p pending with
  | _ n ih =>
    cases text with
    | nil =>
      rw [scan_nil] at h
      obtain rfl := Except.ok.inj h
      intro t ht
      rcases List.mem_cons.mp (List.mem_reverse.mp ht) with rfl | ht
      · exact heof p
      · exact hs t ht
    | cons c cs =>
      have hlt : (Reading.first c cs).rest.length < n := hn ▸ (Reading.first c cs).length_rest_lt
      cases hfound : (Reading.first c cs).found with
      | gap =>
        rw [scan_of_gap hfound] at h
        exact ih _ hlt (Reading.first c cs).rest _ pending hs h rfl
      | token kind =>
        rw [scan_of_token hfound] at h
        refine ih _ hlt (Reading.first c cs).rest _ _ (fun t ht => ?_) h rfl
        rcases List.mem_cons.mp ht with rfl | ht
        · exact hfirst c cs kind p hfound
        · exact hs t ht
      | fault f =>
        rw [scan_of_fault hfound] at h
        cases h

/-! ### Pieces of a text -/

/-- The text is scanned as tokens of these kinds, whatever has been scanned before, and the scan goes
on with the rest. -/
def Reads (text : List Char) (kinds : List TokenKind) (rest : List Char) : Prop :=
  ∀ (p : Position) (pending : List Token), ∃ tokens : List Token, tokens.map (·.kind) = kinds ∧
    scan ⟨text ++ rest, p, pending⟩ = scan ⟨rest, p.after text, tokens.reverse ++ pending⟩

theorem Reads.nil (rest : List Char) : Reads [] [] rest := fun _ _ => ⟨[], rfl, rfl⟩

theorem Reads.append {text text' : List Char} {kinds kinds' : List TokenKind}
    (h : Reads text kinds (text' ++ rest)) (h' : Reads text' kinds' rest) :
    Reads (text ++ text') (kinds ++ kinds') rest := by
  intro p pending
  obtain ⟨tokens, hkinds, hscan⟩ := h p pending
  obtain ⟨tokens', hkinds', hscan'⟩ := h' (p.after text) (tokens.reverse ++ pending)
  refine ⟨tokens ++ tokens', by rw [List.map_append, hkinds, hkinds'], ?_⟩
  rw [List.append_assoc, hscan, hscan', Position.after_append, List.reverse_append,
    List.append_assoc]

theorem rest_first (htext : (Reading.first c (cs ++ rest)).text = c :: cs) :
    (Reading.first c (cs ++ rest)).rest = rest := by
  have hsplit := (Reading.first c (cs ++ rest)).split
  rw [htext, List.cons_append, List.cons.injEq] at hsplit
  exact List.append_cancel_left hsplit.2

theorem Reads.gap (htext : (Reading.first c (cs ++ rest)).text = c :: cs)
    (hfound : (Reading.first c (cs ++ rest)).found = .gap) : Reads (c :: cs) [] rest := by
  intro p pending
  refine ⟨[], rfl, ?_⟩
  rw [List.cons_append, scan_of_gap hfound, rest_first htext, htext]
  rfl

theorem Reads.token {kind : TokenKind} (htext : (Reading.first c (cs ++ rest)).text = c :: cs)
    (hfound : (Reading.first c (cs ++ rest)).found = .token kind) :
    Reads (c :: cs) [kind] rest := by
  intro p pending
  refine ⟨[⟨kind, String.ofList (c :: cs), p⟩], rfl, ?_⟩
  rw [List.cons_append, scan_of_token hfound, rest_first htext, htext]
  rfl

theorem reads_leftParen (rest : List Char) : Reads ['('] [.leftParen] rest :=
  Reads.token rfl rfl

theorem reads_rightParen (rest : List Char) : Reads [')'] [.rightParen] rest :=
  Reads.token rfl rfl

theorem reads_blanks {blanks : List Char} (h : ∀ c ∈ blanks, isBlank c = true)
    (rest : List Char) : Reads blanks [] rest := by
  induction blanks with
  | nil => exact Reads.nil rest
  | cons c cs ih =>
    have hone : Reads [c] [] (cs ++ rest) := by
      have hc : isBlank c = true := h c (by simp)
      simp only [isBlank, Bool.or_eq_true, decide_eq_true_eq] at hc
      rcases hc with ((rfl | rfl) | rfl) | rfl <;> exact Reads.gap rfl rfl
    exact hone.append (ih fun d hd => h d (by simp [hd]))

theorem reads_ratText (q : Rat) (hrest : Delimited rest) :
    Reads (ratText q).toList [.number q] rest := by
  obtain ⟨c, cs, hcs, hc⟩ := exists_isDigit_unsignedText q
  have hread := read_unsignedText q hrest
  have hsigned := signed_mkRat_natAbs q
  rw [hcs, List.cons_append] at hread
  have hnumeral : ∀ sign, Reading.ofNumeral sign (Numeral.read (c :: (cs ++ rest))) = .token
      (.number (if sign.isEmpty then mkRat q.num.natAbs q.den else -mkRat q.num.natAbs q.den)) := by
    intro sign
    rw [hread]
    cases rest with
    | nil => rfl
    | cons d ds =>
      have hd : ¬isSymbolChar d = true := by simp [(Bool.or_eq_false_iff.mp (hrest d rfl)).1]
      exact if_neg hd
  rw [toList_ratText, hcs]
  by_cases hneg : q.num < 0
  · rw [if_pos hneg] at hsigned ⊢
    have hfirst := Reading.first_minus_of_isDigit hc (cs ++ rest)
    apply Reads.token
    · rw [List.cons_append, hfirst]
      exact congrArg ('-' :: Numeral.text ·) hread
    · rw [List.cons_append, hfirst, ← hsigned]
      exact hnumeral ['-']
  · rw [if_neg hneg] at hsigned ⊢
    have hfirst := Reading.first_of_isDigit hc (cs ++ rest)
    apply Reads.token
    · rw [hfirst]
      exact congrArg Numeral.text hread
    · rw [hfirst, ← hsigned]
      exact hnumeral []

/-! ### Symbols -/

def kindsOf (text : String) : Except Error (List TokenKind) :=
  (ofText text).scan.1.map (·.map (·.kind))

theorem exists_tokens_of_reads {text : String} {kinds : List TokenKind}
    (h : Reads text.toList kinds []) :
    ∃ tokens, (ofText text).scan.1 = .ok tokens ∧ tokens.map (·.kind) = kinds ++ [.eof] := by
  obtain ⟨tokens, hkinds, hscan⟩ := h .start []
  rw [List.append_nil, scan_nil] at hscan
  refine ⟨_, congrArg Prod.fst hscan, ?_⟩
  simp [hkinds]

/-- The text is scanned as one symbol, which is the whole text. -/
def IsSymbol (name : String) : Prop := kindsOf name = .ok [.symbol name, .eof]

instance (name : String) : Decidable (IsSymbol name) :=
  inferInstanceAs (Decidable (kindsOf name = .ok [.symbol name, .eof]))

inductive SymbolText : List Char → Prop
  | mk {c : Char} {cs : List Char} (head : isSymbolChar c = true)
      (tail : ∀ d ∈ cs, continuesSymbol d = true)
      (minus : c = '-' → ∀ d ∈ cs.head?, d.isDigit = false) : SymbolText (c :: cs)

theorem reads_symbolText {name : String} (h : SymbolText name.toList) (hrest : Delimited rest) :
    Reads name.toList [.symbol name] rest := by
  obtain ⟨cs, rfl⟩ : ∃ cs, name = String.ofList cs := ⟨name.toList, String.ofList_toList.symm⟩
  rw [String.toList_ofList] at h ⊢
  cases h with
  | @mk c cs head tail minus =>
    have hspan : (cs ++ rest).takeWhile continuesSymbol = cs := by
      rw [List.takeWhile_append_of_pos tail]
      cases rest with
      | nil => simp
      | cons d ds =>
        have hd : continuesSymbol d = false := hrest d rfl
        simp [hd]
    have hminus : c = '-' → ∀ d ∈ (cs ++ rest).head?, d.isDigit = false := by
      intro hc d hd
      cases cs with
      | nil => exact Numeral.isDigit_of_delimited hrest d hd
      | cons d' ds => exact minus hc d hd
    have hfirst := Reading.first_of_isSymbolChar head hminus
    apply Reads.token
    · rw [hfirst]
      exact congrArg (c :: ·) hspan
    · rw [hfirst]
      exact congrArg (fun ds => Finding.token (.symbol (String.ofList (c :: ds)))) hspan

theorem ofNumeral_cases (sign : List Char) (n : Numeral) :
    (∃ f, Reading.ofNumeral sign n = .fault f) ∨
      ∃ q, Reading.ofNumeral sign n = .token (.number q) ∧
        ∀ c ∈ n.rest.head?, isSymbolChar c = false := by
  unfold Reading.ofNumeral
  split
  · exact Or.inl ⟨_, rfl⟩
  · next q c cs hvalue hrest =>
    split
    · exact Or.inl ⟨_, rfl⟩
    · next hsymbol =>
      refine Or.inr ⟨_, rfl, fun d hd => ?_⟩
      rw [hrest] at hd
      rw [← Option.some.inj hd]
      exact Bool.eq_false_iff.mpr hsymbol
  · next q hvalue hrest =>
    rw [hrest]
    exact Or.inr ⟨_, rfl, nofun⟩

theorem symbolText_of_first {name : String}
    (h : (Reading.first c cs).found = .token (.symbol name)) : SymbolText name.toList := by
  have hstarts := Reading.starts_first c cs
  generalize Reading.first c cs = r at h hstarts
  cases hstarts with
  | numeral hc | negativeNumeral hc =>
    rcases ofNumeral_cases _ _ with ⟨f, hf⟩ | ⟨q, hq, -⟩
    · cases hf.symm.trans h
    · cases hq.symm.trans h
  | symbol hc hminus =>
    obtain rfl := TokenKind.symbol.inj (Finding.token.inj h)
    rw [String.toList_ofList]
    refine .mk hc (fun d hd => List.mem_takeWhile_imp hd) fun he d hd => ?_
    cases cs with
    | nil => cases hd
    | cons d' ds =>
      rw [List.takeWhile_cons] at hd
      split at hd
      · exact hminus he d hd
      · cases hd
  | blank | comment | leftParen | rightParen | unexpected => cases h

theorem symbolText_of_scan {text name : String} {tokens : List Token} {t : Token}
    (h : (ofText text).scan.1 = .ok tokens) (ht : t ∈ tokens) (hname : t.kind = .symbol name) :
    SymbolText name.toList := by
  have hall : ∀ t ∈ tokens, ∀ name, t.kind = .symbol name → SymbolText name.toList := by
    refine forall_of_scan (fun c cs kind p hfound name hkind => ?_) (fun p name hkind => ?_)
      (List.forall_mem_nil _) h
    · obtain rfl : kind = .symbol name := hkind
      exact symbolText_of_first hfound
    · cases hkind
  exact hall t ht name hname

/-- Each symbol that is delivered would be one on its own. -/
theorem isSymbol_of_scan {text name : String} {tokens : List Token} {t : Token}
    (h : (ofText text).scan.1 = .ok tokens) (ht : t ∈ tokens) (hname : t.kind = .symbol name) :
    IsSymbol name := by
  have hreads := reads_symbolText (symbolText_of_scan h ht hname) delimited_nil
  obtain ⟨tokens', hscan, hkinds⟩ := exists_tokens_of_reads hreads
  rw [IsSymbol, kindsOf, hscan]
  exact congrArg Except.ok hkinds

theorem reads_symbol {name : String} (h : IsSymbol name) (hrest : Delimited rest) :
    Reads name.toList [.symbol name] rest := by
  rw [IsSymbol, kindsOf] at h
  cases hscan : (ofText name).scan.1 with
  | error e => rw [hscan] at h; cases h
  | ok tokens =>
    rw [hscan] at h
    have hkinds : tokens.map (·.kind) = [.symbol name, .eof] := Except.ok.inj h
    have hmem : TokenKind.symbol name ∈ tokens.map (·.kind) := by simp [hkinds]
    obtain ⟨t, ht, hname⟩ := List.mem_map.mp hmem
    exact reads_symbolText (symbolText_of_scan hscan ht hname) hrest

end Scanner
end LinearArith
