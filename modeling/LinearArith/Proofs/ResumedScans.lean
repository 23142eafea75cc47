import LinearArith.Proofs.Pieces

/-! One scanner called again and again. A failing call is gone on with behind the characters that could
not be read; the first call that does not fail delivers the tokens of all calls so far, and later calls
find nothing. -/

namespace LinearArith

def LexicalFault.quoted : LexicalFault → List Char
  | unexpectedCharacter c => [c]
  | zeroDenominator => []
  | invalidNumeral text => text

theorem Reading.quoted_ofNumeral {sign : List Char} {n : Numeral} {f : LexicalFault}
    (h : ofNumeral sign n = .fault f) : f.quoted <+: sign ++ n.text ++ n.rest := by
  unfold ofNumeral at h
  split at h
  · obtain rfl := Finding.fault.inj h
    exact List.nil_prefix
  · next c cs hvalue hrest =>
    split at h
    · obtain rfl := Finding.fault.inj h
      rw [hrest]
      exact ⟨cs, by simp [LexicalFault.quoted]⟩
    · cases h
  · cases h

theorem Reading.quoted_of_first {c : Char} {cs : List Char} {f : LexicalFault}
    (h : (first c cs).found = .fault f) : f.quoted <+: c :: cs := by
  have hsplit := (first c cs).split
  have hstarts := starts_first c cs
  generalize first c cs = r at h hsplit hstarts
  cases hstarts with
  | numeral hc => exact hsplit ▸ quoted_ofNumeral h
  | negativeNumeral hc => exact hsplit ▸ quoted_ofNumeral h
  | unexpected =>
    obtain rfl := Finding.fault.inj h
    exact ⟨cs, rfl⟩
  | blank | comment | leftParen | rightParen | symbol => cases h

/-- The token is not the end of the text, and its lexeme stands in the text at its position. -/
structure Token.StandsIn (text : List Char) (t : Token) : Prop where
  kind_ne_eof : t.kind ≠ .eof
  lexeme_ne : t.lexeme ≠ ""
  lexeme : ∃ before, before ++ t.lexeme.toList <+: text ∧ t.position = .counted before

namespace Piece

theorem exists_quoted_of_mem_failuresOf {text : List Char} {e : Failure}
    (h : e ∈ failuresOf (cut .start text)) :
    ∃ before, before ++ e.fault.quoted <+: text ∧ e.position = .counted before := by
  obtain ⟨x, hx, he⟩ := List.mem_filterMap.mp h
  obtain ⟨before, c, cs, rfl, rfl⟩ := exists_first_of_mem_cut hx
  refine ⟨before, ?_⟩
  rw [Position.start_after] at he
  cases hfound : (Reading.first c cs).found with
  | gap | token =>
    simp only [failure?, first, hfound] at he
    cases he
  | fault f =>
    simp only [failure?, first, hfound] at he
    obtain rfl := Option.some.inj he
    exact ⟨(List.prefix_append_right_inj before).mpr (Reading.quoted_of_first hfound), rfl⟩

theorem standsIn_of_mem_tokensOf {text : List Char} {t : Token}
    (h : t ∈ tokensOf (cut .start text)) : t.StandsIn text := by
  obtain ⟨x, hx, ht⟩ := List.mem_filterMap.mp h
  obtain ⟨before, c, cs, rfl, rfl⟩ := exists_first_of_mem_cut hx
  rw [Position.start_after] at ht
  cases hfound : (Reading.first c cs).found with
  | gap | fault =>
    simp only [token?, first, hfound] at ht
    cases ht
  | token kind =>
    simp only [token?, first, hfound] at ht
    obtain rfl := Option.some.inj ht
    have hsplit := (Reading.first c cs).split
    have hlexeme : (String.ofList (Reading.first c cs).text).toList = (Reading.first c cs).text :=
      String.toList_ofList
    refine ⟨Reading.kind_ne_eof_of_first hfound, ?_, before, ?_, rfl⟩
    · intro hempty
      exact (Reading.first c cs).text_ne_nil (hlexeme ▸ congrArg String.toList hempty)
    · rw [hlexeme]
      exact (List.prefix_append_right_inj before).mpr ⟨_, hsplit⟩

end Piece

namespace Scanner
open Piece

def afterCalls : Nat → Scanner → Scanner
  | 0, s => s
  | n + 1, s => afterCalls n s.scan.2

/-- What a call returns that comes after `n` others. -/
def call (n : Nat) (s : Scanner) : Except Error (List Token) := (afterCalls n s).scan.1

/-- The tokens that the next call recognizes: those before the first fault. -/
def recognized (s : Scanner) : List Token := tokensOf (s.pieces.takeWhile isClean)

def failures (s : Scanner) : List Failure := failuresOf s.pieces

def endToken (s : Scanner) : Token := ⟨.eof, "", s.position.after s.rest⟩

/-- What one call does: it delivers, or it fails and leaves the scanner `later`. -/
inductive Outcome (s : Scanner) : Except Error (List Token) × Scanner → Prop
  | delivers (hfailures : s.failures = []) (htokens : tokensOf s.pieces = s.recognized) :
      Outcome s (.ok (s.pending.reverse ++ s.recognized ++ [s.endToken]),
        ⟨[], s.position.after s.rest, []⟩)
  | fails {later : Scanner} {e : Failure} {read : List Char}
      (hfailures : s.failures = e :: later.failures)
      (htokens : tokensOf s.pieces = s.recognized ++ tokensOf later.pieces)
      (hpending : later.pending = s.recognized.reverse ++ s.pending)
      (hread : read ≠ []) (hrest : s.rest = read ++ later.rest)
      (hposition : later.position = s.position.after read) : Outcome s (.error e.error, later)

theorem outcome_scan (s : Scanner) : Outcome s s.scan := by
  obtain ⟨hclean, hcases⟩ := takeWhile_isClean_cases s.pieces
  have hrecognized : s.recognized = tokensOf (s.pieces.takeWhile isClean) := rfl
  generalize s.pieces.takeWhile isClean = before at hclean hcases hrecognized
  have hnone : failuresOf before = [] := List.filterMap_eq_nil_iff.mpr hclean
  rcases hcases with rfl | ⟨bad, e, after, hbad, hsplit⟩
  · rw [scan_of_clean hclean, ← hrecognized]
    exact .delivers hnone hrecognized.symm
  · obtain ⟨later, hscan, rfl, hpending, hposition⟩ := scan_of_faulty hsplit hclean hbad
    have hfailures : s.failures = e :: later.failures := by
      rw [failures, hsplit, failuresOf, List.filterMap_append, ← failuresOf, hnone,
        List.filterMap_cons_some hbad]
      rfl
    have htokens : tokensOf s.pieces = s.recognized ++ tokensOf later.pieces := by
      rw [hrecognized, hsplit, tokensOf_append, tokensOf_cons, token?_of_failure? hbad]
      rfl
    have hrest : s.rest = textOf before ++ bad.text ++ later.rest := by
      calc s.rest = textOf s.pieces := (textOf_cut _ _).symm
        _ = textOf before ++ (bad.text ++ textOf later.pieces) := by
          rw [hsplit, textOf_append, textOf_cons]
        _ = textOf before ++ bad.text ++ later.rest := by
          rw [pieces, textOf_cut, List.append_assoc]
    have hmem : bad ∈ s.pieces := by simp [hsplit]
    have hread : textOf before ++ bad.text ≠ [] := by simp [text_ne_nil_of_mem_cut hmem]
    rw [hscan]
    exact .fails hfailures htokens (hrecognized ▸ hpending) hread hrest hposition

theorem call_succ (n : Nat) (s : Scanner) : call (n + 1) s = call n s.scan.2 := rfl

theorem afterCalls_end (n : Nat) (p : Position) : afterCalls n ⟨[], p, []⟩ = ⟨[], p, []⟩ := by
  induction n with
  | zero => rfl
  | succ n ih =>
    rw [afterCalls, scan_nil]
    exact ih

/-- What the calls of one scanner do, one after another: as many fail as there are faults, the next one
delivers, and the end is all that is left. -/
structure Resumes (s : Scanner) (failures : List Failure) : Prop where
  fails : ∀ n (h : n < failures.length), s.call n = .error failures[n].error
  proceeds : ∀ n < failures.length, (afterCalls (n + 1) s).rest.length < (afterCalls n s).rest.length
  bounded : failures.length ≤ s.rest.length
  delivers : s.call failures.length = .ok (s.pending.reverse ++ tokensOf s.pieces ++ [s.endToken])
  recognizes : tokensOf s.pieces =
    (List.range (failures.length + 1)).flatMap fun n => (afterCalls n s).recognized
  ends : ∀ n, failures.length < n → s.call n = .ok [s.endToken]

theorem resumes_of_delivers {s : Scanner} (htokens : tokensOf s.pieces = s.recognized)
    (hscan : s.scan = (.ok (s.pending.reverse ++ s.recognized ++ [s.endToken]),
      ⟨[], s.position.after s.rest, []⟩)) : s.Resumes [] where
  fails := nofun
  proceeds := nofun
  bounded := Nat.zero_le _
  delivers := by
    rw [htokens]
    exact congrArg Prod.fst hscan
  recognizes := by
    rw [htokens]
    exact (List.append_nil _).symm
  ends := by
    intro n hn
    obtain ⟨m, rfl⟩ := Nat.exists_eq_succ_of_ne_zero (Nat.ne_of_gt hn)
    rw [call_succ, hscan, call, afterCalls_end, scan_nil]
    rfl

theorem resumes_of_fails {s later : Scanner} {e : Failure} {es : List Failure} {read : List Char}
    (htokens : tokensOf s.pieces = s.recognized ++ tokensOf later.pieces)
    (hpending : later.pending = s.recognized.reverse ++ s.pending) (hread : read ≠ [])
    (hrest : s.rest = read ++ later.rest) (hposition : later.position = s.position.after read)
    (hscan : s.scan = (.error e.error, later)) (h : later.Resumes es) : s.Resumes (e :: es) := by
  have hcall : ∀ n, call (n + 1) s = call n later := by
    intro n
    rw [call_succ, hscan]
  have hafter : ∀ n, afterCalls (n + 1) s = afterCalls n later := by
    intro n
    rw [afterCalls, hscan]
  -- a call that fails goes on by a character at least, which bounds how many can fail
  have hshorter : later.rest.length < s.rest.length := by
    have hpos := List.length_pos_iff.mpr hread
    rw [hrest, List.length_append]
    omega
  have hend : later.endToken = s.endToken := by
    rw [endToken, endToken, hposition, hrest, Position.after_append]
  constructor
  case fails =>
    intro n hn
    cases n with
    | zero => exact congrArg Prod.fst hscan
    | succ n =>
      rw [hcall]
      exact h.fails n (Nat.lt_of_succ_lt_succ hn)
  case proceeds =>
    intro n hn
    cases n with
    | zero =>
      rw [hafter]
      exact hshorter
    | succ n =>
      rw [hafter, hafter]
      exact h.proceeds n (Nat.lt_of_succ_lt_succ hn)
  case bounded =>
    have hbounded := h.bounded
    rw [List.length_cons]
    omega
  case delivers =>
    rw [List.length_cons, hcall, h.delivers, hpending, htokens, hend, List.reverse_append,
      List.reverse_reverse, List.append_assoc s.pending.reverse]
  case recognizes =>
    have hlater : ∀ ns : List Nat, (ns.map Nat.succ).flatMap (fun n => (afterCalls n s).recognized) =
        ns.flatMap fun n => (afterCalls n later).recognized := by
      intro ns
      rw [List.flatMap_map]
      exact List.flatMap_congr fun n _ => congrArg recognized (hafter n)
    rw [List.length_cons, List.range_succ_eq_map, List.flatMap_cons, hlater, ← h.recognizes]
    exact htokens
  case ends =>
    intro n hn
    obtain ⟨m, rfl⟩ := Nat.exists_eq_succ_of_ne_zero (Nat.ne_of_gt (Nat.zero_lt_of_lt hn))
    rw [Nat.succ_eq_add_one, hcall, ← hend]
    exact h.ends m (Nat.lt_of_succ_lt_succ hn)

theorem resumes_failures (s : Scanner) : s.Resumes s.failures := by
  induction hes : s.failures generalizing s with
  | nil =>
    have houtcome := outcome_scan s
    generalize hscan : s.scan = r at houtcome
    cases houtcome with
    | delivers hfailures htokens => exact resumes_of_delivers htokens hscan
    | fails hfailures => cases hes.symm.trans hfailures
  | cons e es ih =>
    have houtcome := outcome_scan s
    generalize hscan : s.scan = r at houtcome
    cases houtcome with
    | delivers hfailures => cases hes.symm.trans hfailures
    | @fails later _ _ hfailures htokens hpending hread hrest hposition =>
      obtain ⟨rfl, hlater⟩ := List.cons.inj (hes.symm.trans hfailures)
      exact resumes_of_fails htokens hpending hread hrest hposition hscan (ih later hlater.symm)

theorem exists_read (s : Scanner) :
    ∃ read, s.rest = read ++ s.scan.2.rest ∧ s.scan.2.position = s.position.after read := by
  have houtcome := outcome_scan s
  generalize s.scan = r at houtcome
  cases houtcome with
  | delivers => exact ⟨s.rest, (List.append_nil _).symm, rfl⟩
  | @fails _ _ read _ _ _ _ hrest hposition => exact ⟨read, hrest, hposition⟩

theorem exists_read_afterCalls (n : Nat) (s : Scanner) :
    ∃ read, s.rest = read ++ (afterCalls n s).rest ∧
      (afterCalls n s).position = s.position.after read := by
  induction n generalizing s with
  | zero => exact ⟨[], rfl, rfl⟩
  | succ n ih =>
    obtain ⟨read, hrest, hposition⟩ := exists_read s
    obtain ⟨later, hlaterRest, hlaterPosition⟩ := ih s.scan.2
    refine ⟨read ++ later, ?_, ?_⟩
    · rw [hrest, hlaterRest, List.append_assoc]
      rfl
    · rw [Position.after_append, ← hposition, ← hlaterPosition]
      rfl

/-! ### A text from its start -/

theorem endToken_ofText (text : String) : (ofText text).endToken = .endOf text.toList :=
  congrArg (Token.mk .eof "") (Position.start_after _)

theorem pairwise_precedes_failures (text : String) :
    (ofText text).failures.Pairwise fun e e' => e.position.Precedes e'.position := by
  have hpieces := (pairwise_precedes_cut .start text.toList).1
  refine hpieces.filterMap _ fun x y hxy e he e' he' => ?_
  rwa [position_of_failure? he, position_of_failure? he']

theorem pairwise_precedes_tokens (text : String) :
    (tokensOf (ofText text).pieces ++ [Token.endOf text.toList]).Pairwise
      fun t t' => t.position.Precedes t'.position := by
  have hpieces := (pairwise_precedes_cut .start text.toList).1
  refine List.pairwise_append.mpr ⟨?_, List.pairwise_singleton _ _, ?_⟩
  · refine hpieces.filterMap _ fun x y hxy t ht t' ht' => ?_
    rwa [position_of_token? ht, position_of_token? ht']
  · intro t ht t' ht'
    obtain ⟨x, hx, hxt⟩ := List.mem_filterMap.mp ht
    have hend : t'.position = Position.start.after text.toList := by
      rw [List.mem_singleton.mp ht', Position.start_after]
      rfl
    rw [position_of_token? hxt, hend]
    exact precedes_end_of_mem_cut hx

/-- All calls of one scanner on a text. As many fail as there are faults, each at a later position than the
one before, having gone on by a character at least, and its message shows what stands there. The next call
delivers what all calls have recognized, in the order of the text; later ones deliver the end of the text
alone. No call leaves the text. -/
theorem calls_deliver_once (text : String) :
    ∃ (failures : List Failure) (tokens : List Token),
      (∀ n (h : n < failures.length), call n (ofText text) = .error failures[n].error ∧
        (afterCalls (n + 1) (ofText text)).rest.length < (afterCalls n (ofText text)).rest.length) ∧
      failures.length ≤ text.length ∧
      (failures.Pairwise fun e e' => e.position.Precedes e'.position) ∧
      (∀ e ∈ failures, ∃ before, before ++ e.fault.quoted <+: text.toList ∧
        e.position = .counted before) ∧
      call failures.length (ofText text) = .ok (tokens ++ [.endOf text.toList]) ∧
      (tokens = (List.range (failures.length + 1)).flatMap fun n =>
        (afterCalls n (ofText text)).recognized) ∧
      ((tokens ++ [Token.endOf text.toList]).Pairwise fun t t' => t.position.Precedes t'.position) ∧
      (∀ t ∈ tokens, t.StandsIn text.toList) ∧
      (∀ n, failures.length < n → call n (ofText text) = .ok [.endOf text.toList]) ∧
      ∀ n, ∃ read, text.toList = read ++ (afterCalls n (ofText text)).rest ∧
        (afterCalls n (ofText text)).position = .counted read := by
  have hresumes := resumes_failures (ofText text)
  have hend := endToken_ofText text
  refine ⟨(ofText text).failures, tokensOf (ofText text).pieces, ?_, ?_, ?_, ?_, ?_, ?_, ?_, ?_, ?_, ?_⟩
  · intro n h
    exact ⟨hresumes.fails n h, hresumes.proceeds n h⟩
  · exact hresumes.bounded
  · exact pairwise_precedes_failures text
  · exact fun e he => exists_quoted_of_mem_failuresOf he
  · rw [← hend]
    exact hresumes.delivers
  · exact hresumes.recognizes
  · exact pairwise_precedes_tokens text
  · exact fun t ht => standsIn_of_mem_tokensOf ht
  · rw [← hend]
    exact hresumes.ends
  · intro n
    obtain ⟨read, hrest, hposition⟩ := exists_read_afterCalls n (ofText text)
    exact ⟨read, hrest, hposition.trans (Position.start_after read)⟩

/-- Behind a numeral that runs into a symbol the scan goes on with the symbol. -/
example : (List.range 4).map (fun n => call n (ofText "1x\n2/0")) =
    [.error (.syntaxError ⟨1, 1⟩ "Invalid numeral '1x'"),
      .error (.syntaxError ⟨2, 1⟩ "Zero denominator in numeral"),
      .ok [⟨.symbol "x", "x", ⟨1, 2⟩⟩, ⟨.eof, "", ⟨2, 4⟩⟩], .ok [⟨.eof, "", ⟨2, 4⟩⟩]] := by
  decide +kernel

end Scanner
end LinearArith
