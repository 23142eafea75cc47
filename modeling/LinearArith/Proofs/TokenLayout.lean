import LinearArith.Proofs.ResumedScans
import Mathlib.Data.List.Chain

/-! How the tokens of a text lie in it: every lexeme at the position that its token has, blanks and
comments and nothing else between them, and never two words without a gap. -/

namespace LinearArith

/-- Blanks and comments that stand before `rest`. A comment goes to the end of its line. -/
inductive GapBefore (rest : List Char) : List Char → Prop
  | nil : GapBefore rest []
  | blank {c : Char} {cs : List Char} (hc : isBlank c = true) (h : GapBefore rest cs) :
      GapBefore rest (c :: cs)
  | comment {body cs : List Char} (hbody : '\n' ∉ body)
      (hend : ∀ c ∈ (cs ++ rest).head?, c = '\n') (h : GapBefore rest cs) :
      GapBefore rest (';' :: (body ++ cs))

theorem GapBefore.append {gap gap' rest : List Char} (h : GapBefore (gap' ++ rest) gap)
    (h' : GapBefore rest gap') : GapBefore rest (gap ++ gap') := by
  induction h with
  | nil => exact h'
  | blank hc _ ih => exact .blank hc ih
  | @comment body cs hbody hend _ ih =>
    rw [List.cons_append, List.append_assoc]
    rw [← List.append_assoc] at hend
    exact .comment hbody hend ih

/-- Numbers and symbols: a parenthesis ends where it begins, a word where something else follows. -/
def TokenKind.isWord : TokenKind → Bool
  | number _ => true
  | symbol _ => true
  | _ => false

namespace Reading

theorem gapBefore_of_first {c : Char} {cs : List Char} (h : (first c cs).found = .gap) :
    GapBefore (first c cs).rest (first c cs).text := by
  have hstarts := starts_first c cs
  generalize first c cs = r at h hstarts
  cases hstarts with
  | blank hc => exact .blank hc .nil
  | comment =>
    have hbody : '\n' ∉ cs.takeWhile (· != '\n') := by
      intro hmem
      exact absurd (List.all_eq_true.mp List.all_takeWhile _ hmem) (by simp)
    have hend : ∀ d ∈ ([] ++ cs.dropWhile (· != '\n')).head?, d = '\n' := by
      intro d hd
      have hfirst := List.head?_dropWhile_not (· != '\n') cs
      rw [List.nil_append] at hd
      rw [Option.mem_def.mp hd] at hfirst
      simpa using hfirst
    have hgap := GapBefore.comment hbody hend .nil
    rw [List.append_nil] at hgap
    exact hgap
  | numeral hc | negativeNumeral hc =>
    rcases Scanner.ofNumeral_cases _ _ with ⟨f, hf⟩ | ⟨q, hq, -⟩
    · cases hf.symm.trans h
    · cases hq.symm.trans h
  | leftParen | rightParen | symbol | unexpected => cases h

theorem delimited_of_ofNumeral {sign : List Char} {cs : List Char} {kind : TokenKind}
    (h : ofNumeral sign (Numeral.read cs) = .token kind) : Delimited (Numeral.read cs).rest := by
  rcases Scanner.ofNumeral_cases sign (Numeral.read cs) with ⟨f, hf⟩ | ⟨q, -, hsymbol⟩
  · cases hf.symm.trans h
  · exact fun c hc => Bool.or_eq_false_iff.mpr ⟨hsymbol c hc, Numeral.isDigit_of_head?_rest cs c hc⟩

theorem delimited_of_first {c : Char} {cs : List Char} {kind : TokenKind}
    (h : (first c cs).found = .token kind) (hword : kind.isWord = true) :
    Delimited (first c cs).rest ∧ continuesSymbol c = true := by
  have hstarts := starts_first c cs
  generalize first c cs = r at h hstarts
  cases hstarts with
  | numeral hc => exact ⟨delimited_of_ofNumeral h, Bool.or_eq_true_iff.mpr (Or.inr hc)⟩
  | negativeNumeral hc => exact ⟨delimited_of_ofNumeral h, by decide +kernel⟩
  | symbol hc =>
    refine ⟨fun d hd => ?_, Bool.or_eq_true_iff.mpr (Or.inl hc)⟩
    have hfirst := List.head?_dropWhile_not continuesSymbol cs
    have hd : (cs.dropWhile continuesSymbol).head? = some d := hd
    rw [hd] at hfirst
    exact hfirst
  | leftParen | rightParen =>
    obtain rfl := Finding.token.inj h
    cases hword
  | blank | comment | unexpected => cases h

end Reading

structure Placed where
  gap : List Char
  token : Token

def Placed.text (x : Placed) : List Char := x.gap ++ x.token.lexeme.toList

/-- The tokens `placed` and the gap `last` make up a text that comes after the text `behind`. -/
structure Layout (behind source : List Char) (placed : List Placed) (last : List Char) : Prop where
  source_eq : source = placed.flatMap Placed.text ++ last
  position : ∀ before x after, placed = before ++ x :: after →
    x.token.position = .counted (behind ++ (before.flatMap Placed.text ++ x.gap))
  lexeme_ne : ∀ x ∈ placed, x.token.lexeme ≠ ""
  kind_ne_eof : ∀ x ∈ placed, x.token.kind ≠ .eof
  gap : ∀ before x after, placed = before ++ x :: after →
    GapBefore (x.token.lexeme.toList ++ (after.flatMap Placed.text ++ last)) x.gap
  last_gap : GapBefore [] last
  separated : placed.IsChain fun x y =>
    x.token.kind.isWord = true → y.token.kind.isWord = true → y.gap ≠ []

namespace Layout
variable {behind source last : List Char} {placed : List Placed}

theorem nil (h : GapBefore [] last) : Layout behind last [] last where
  source_eq := rfl
  position := by simp
  lexeme_ne := List.forall_mem_nil _
  kind_ne_eof := List.forall_mem_nil _
  gap := by simp
  last_gap := h
  separated := .nil

theorem cons {x : Placed} (h : Layout (behind ++ x.text) source placed last)
    (hgap : GapBefore (x.token.lexeme.toList ++ source) x.gap)
    (hposition : x.token.position = .counted (behind ++ x.gap)) (hlexeme : x.token.lexeme ≠ "")
    (hkind : x.token.kind ≠ .eof)
    (hseparated : ∀ y ∈ placed.head?, x.token.kind.isWord = true → y.token.kind.isWord = true →
      y.gap ≠ []) : Layout behind (x.text ++ source) (x :: placed) last where
  source_eq := by
    rw [List.flatMap_cons, List.append_assoc, ← h.source_eq]
  position := by
    intro before y after hsplit
    cases before with
    | nil =>
      obtain ⟨rfl, rfl⟩ := List.cons.inj hsplit
      exact hposition
    | cons z before =>
      obtain ⟨rfl, hlater⟩ := List.cons.inj hsplit
      rw [h.position before y after hlater, List.flatMap_cons, List.append_assoc, List.append_assoc]
  lexeme_ne := List.forall_mem_cons.mpr ⟨hlexeme, h.lexeme_ne⟩
  kind_ne_eof := List.forall_mem_cons.mpr ⟨hkind, h.kind_ne_eof⟩
  gap := by
    intro before y after hsplit
    cases before with
    | nil =>
      obtain ⟨rfl, rfl⟩ := List.cons.inj hsplit
      rw [← h.source_eq]
      exact hgap
    | cons z before =>
      obtain ⟨rfl, hlater⟩ := List.cons.inj hsplit
      exact h.gap before y after hlater
  last_gap := h.last_gap
  separated := List.isChain_cons.mpr ⟨hseparated, h.separated⟩

theorem gap_ne_nil_of_delimited (h : Layout behind source placed last) (hsource : Delimited source)
    {y : Placed} (hy : y ∈ placed.head?)
    (hhead : ∃ c ∈ y.token.lexeme.toList.head?, continuesSymbol c = true) : y.gap ≠ [] := by
  obtain ⟨ys, rfl⟩ := List.head?_eq_some_iff.mp hy
  obtain ⟨c, hc, hcontinues⟩ := hhead
  obtain ⟨cs, hlexeme⟩ := List.head?_eq_some_iff.mp hc
  intro hgap
  have hstart : source.head? = some c := by
    rw [h.source_eq, List.flatMap_cons, Placed.text, hgap, hlexeme]
    rfl
  have hends : continuesSymbol c = false := hsource c hstart
  rw [hcontinues] at hends
  cases hends

end Layout

namespace Piece

theorem continuesSymbol_of_mem_tokensOf {p : Position} {text : List Char} {t : Token}
    (h : t ∈ tokensOf (cut p text)) (hword : t.kind.isWord = true) :
    ∃ c ∈ t.lexeme.toList.head?, continuesSymbol c = true := by
  obtain ⟨x, hx, ht⟩ := List.mem_filterMap.mp h
  obtain ⟨before, c, cs, rfl, rfl⟩ := exists_first_of_mem_cut hx
  cases hfound : (Reading.first c cs).found with
  | gap | fault =>
    simp only [token?, first, hfound] at ht
    cases ht
  | token kind =>
    simp only [token?, first, hfound] at ht
    obtain rfl := Option.some.inj ht
    have hhead : (Reading.first c cs).text.head? = some c := by
      have hsplit := congrArg List.head? (Reading.first c cs).split
      rw [List.head?_append_of_ne_nil _ (Reading.first c cs).text_ne_nil] at hsplit
      exact hsplit
    refine ⟨c, ?_, (Reading.delimited_of_first hfound hword).2⟩
    rw [String.toList_ofList]
    exact hhead

theorem exists_rest_of_cut_eq_cons {p : Position} {text : List Char} {x : Piece} {xs : List Piece}
    (h : cut p text = x :: xs) : ∃ rest, text = x.text ++ rest ∧ xs = cut (p.after x.text) rest ∧
      x.position = p ∧ (x.found = .gap → GapBefore rest x.text) ∧
      ∀ kind, x.found = .token kind → x.text ≠ [] ∧ kind ≠ .eof ∧
        (kind.isWord = true → Delimited rest) := by
  obtain ⟨c, cs, rfl, rfl, hxs⟩ := cut_eq_cons h
  refine ⟨_, (Reading.first c cs).split.symm, hxs, rfl, Reading.gapBefore_of_first, ?_⟩
  intro kind hfound
  exact ⟨(Reading.first c cs).text_ne_nil, Reading.kind_ne_eof_of_first hfound,
    fun hword => (Reading.delimited_of_first hfound hword).1⟩

/-- The clean pieces of a text, the gaps between its tokens put together. The gap `gap` has been read
before them. -/
theorem exists_layout {behind gap text : List Char} {p : Position}
    (hp : p = .counted (behind ++ gap)) (hgap : GapBefore text gap)
    (hclean : ∀ x ∈ cut p text, x.failure? = none) :
    ∃ placed last, tokensOf (cut p text) = placed.map (·.token) ∧
      Layout behind (gap ++ text) placed last := by
  induction hxs : cut p text generalizing p text gap behind with
  | nil =>
    obtain rfl := cut_eq_nil hxs
    rw [List.append_nil]
    exact ⟨[], gap, rfl, .nil hgap⟩
  | cons x xs ih =>
    rw [hxs] at hclean
    obtain ⟨hfirst, hlater⟩ := List.forall_mem_cons.mp hclean
    obtain ⟨rest, rfl, rfl, hposition, hfoundGap, hfoundToken⟩ := exists_rest_of_cut_eq_cons hxs
    have hbehind : p.after x.text = .counted (behind ++ (gap ++ x.text)) := by
      rw [hp, ← List.append_assoc, ← Position.counted_append]
    -- a piece that is a gap makes the gap longer, a token ends it
    cases hfound : x.found with
    | gap =>
      have hnext : GapBefore rest (gap ++ x.text) := hgap.append (hfoundGap hfound)
      obtain ⟨placed, last, htokens, hlayout⟩ := ih hbehind hnext hlater rfl
      have hnone : x.token? = none := by simp only [token?, hfound]
      refine ⟨placed, last, ?_, ?_⟩
      · rw [tokensOf_cons, hnone, htokens]
        rfl
      · rw [← List.append_assoc]
        exact hlayout
    | token kind =>
      obtain ⟨hne, hkind, hdelimited⟩ := hfoundToken kind hfound
      have hbehind' : p.after x.text = .counted (behind ++ (gap ++ x.text) ++ []) := by
        rw [hbehind, List.append_nil]
      obtain ⟨placed, last, htokens, hlayout⟩ := ih hbehind' .nil hlater rfl
      have hsome : x.token? = some ⟨kind, String.ofList x.text, p⟩ := by
        simp only [token?, hfound, hposition]
      have hlexeme : (String.ofList x.text).toList = x.text := String.toList_ofList
      have htext : (Placed.mk gap ⟨kind, String.ofList x.text, p⟩).text = gap ++ x.text :=
        congrArg (gap ++ ·) hlexeme
      refine ⟨⟨gap, ⟨kind, String.ofList x.text, p⟩⟩ :: placed, last, ?_, ?_⟩
      · rw [tokensOf_cons, hsome, htokens]
        rfl
      · rw [← List.append_assoc, ← htext]
        rw [← htext] at hlayout
        refine hlayout.cons ?_ hp ?_ hkind fun y hy hword hyword => ?_
        · rw [hlexeme]
          exact hgap
        · intro hempty
          exact hne (hlexeme ▸ congrArg String.toList hempty)
        · -- without a gap the word `y` would have been read as part of the word before it
          have hmem : y.token ∈ tokensOf (cut (p.after x.text) rest) := by
            rw [htokens]
            exact List.mem_map_of_mem (List.mem_of_mem_head? hy)
          exact hlayout.gap_ne_nil_of_delimited (hdelimited hword) hy
            (continuesSymbol_of_mem_tokensOf hmem hyword)
    | fault f =>
      simp only [failure?, hfound] at hfirst
      cases hfirst

end Piece

namespace Scanner

theorem failures_eq_nil_of_scan {s : Scanner} {tokens : List Token} (h : s.scan.1 = .ok tokens) :
    s.failures = [] ∧ tokens = s.pending.reverse ++ Piece.tokensOf s.pieces ++ [s.endToken] := by
  have houtcome := outcome_scan s
  generalize s.scan = r at h houtcome
  cases houtcome with
  | delivers hfailures htokens =>
    rw [htokens]
    exact ⟨hfailures, (Except.ok.inj h).symm⟩
  | fails => cases h

/-- The tokens that the first scan of a text delivers make up the text together with gaps: each lexeme
stands where its token says, counted in lines and characters, the gaps are blanks and comments, two
words have a gap between them, and the end-of-file token stands behind the last character. -/
theorem layout_of_scan {text : String} {tokens : List Token}
    (h : (ofText text).scan.1 = .ok tokens) :
    ∃ placed last, tokens = placed.map (·.token) ++ [Token.endOf text.toList] ∧
      Layout [] text.toList placed last := by
  obtain ⟨hfailures, htokens⟩ := failures_eq_nil_of_scan h
  have hclean : ∀ x ∈ Piece.cut .start text.toList, x.failure? = none :=
    List.filterMap_eq_nil_iff.mp hfailures
  have hstart : Position.start = .counted ([] ++ []) := rfl
  obtain ⟨placed, last, hplaced, hlayout⟩ := Piece.exists_layout hstart .nil hclean
  refine ⟨placed, last, ?_, hlayout⟩
  rw [htokens, endToken_ofText, ← hplaced]
  rfl

/-- A comment, a line break and a numeral without a gap before a parenthesis. -/
theorem layout_of_scan_of_comment :
    ∃ placed last, [⟨.leftParen, "(", ⟨2, 2⟩⟩, ⟨.symbol "x", "x", ⟨2, 3⟩⟩,
        ⟨.number (-1 / 2), "-1/2", ⟨2, 5⟩⟩, ⟨.rightParen, ")", ⟨2, 9⟩⟩] =
          placed.map (fun x : Placed => x.token) ∧
      Layout [] "; (\n (x -1/2);".toList placed last := by
  have hscan : (ofText "; (\n (x -1/2);").scan.1 =
      .ok [⟨.leftParen, "(", ⟨2, 2⟩⟩, ⟨.symbol "x", "x", ⟨2, 3⟩⟩,
        ⟨.number (-1 / 2), "-1/2", ⟨2, 5⟩⟩, ⟨.rightParen, ")", ⟨2, 9⟩⟩, ⟨.eof, "", ⟨2, 11⟩⟩] := by
    decide +kernel
  obtain ⟨placed, last, htokens, hlayout⟩ := layout_of_scan hscan
  exact ⟨placed, last, (List.append_inj' htokens rfl).1, hlayout⟩

end Scanner
end LinearArith
