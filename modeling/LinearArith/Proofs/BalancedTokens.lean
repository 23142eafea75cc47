import LinearArith.Proofs.PrintedTrees
import LinearArith.Proofs.RecursiveDescent
import LinearArith.Proofs.ResumedScans
import Mathlib.Data.List.Infix

/-! Which tokens are read as trees. A reading keeps as many lists open as parentheses have been opened and
not closed; so it is decided by counting them, and so is what further readings find. -/

namespace LinearArith
namespace SExpr

/-! ### Counting parentheses -/

def opening (tokens : List Token) : Nat := tokens.countP (·.kind = .leftParen)

def closing (tokens : List Token) : Nat := tokens.countP (·.kind = .rightParen)

@[simp] theorem opening_append (ts us : List Token) : opening (ts ++ us) = opening ts + opening us :=
  List.countP_append

@[simp] theorem closing_append (ts us : List Token) : closing (ts ++ us) = closing ts + closing us :=
  List.countP_append

theorem opening_singleton (t : Token) : opening [t] = if t.kind = .leftParen then 1 else 0 := by
  simp [opening, List.countP_singleton]

theorem closing_singleton (t : Token) : closing [t] = if t.kind = .rightParen then 1 else 0 := by
  simp [closing, List.countP_singleton]

/-- Wherever one stops, no more parentheses have been closed than opened. -/
def NeverOvercloses (tokens : List Token) : Prop :=
  ∀ before, before <+: tokens → closing before ≤ opening before

instance (tokens : List Token) : Decidable (NeverOvercloses tokens) :=
  decidable_of_iff (∀ before ∈ tokens.inits, closing before ≤ opening before)
    (forall_congr' fun before => by rw [List.mem_inits])

def Balanced (tokens : List Token) : Prop :=
  NeverOvercloses tokens ∧ closing tokens = opening tokens

instance (tokens : List Token) : Decidable (Balanced tokens) := inferInstanceAs (Decidable (_ ∧ _))

theorem neverOvercloses_nil : NeverOvercloses [] := by
  intro before hbefore
  rw [List.prefix_nil.mp hbefore]
  exact Nat.le_refl _

theorem not_neverOvercloses_of_split {tokens before after : List Token} {t : Token}
    (hsplit : tokens = before ++ t :: after) (h : ¬ NeverOvercloses (before ++ [t])) :
    ¬ NeverOvercloses tokens := by
  have hpre : before ++ [t] <+: tokens := ⟨after, by rw [hsplit, List.append_assoc]; rfl⟩
  exact fun hnever => h fun us hus => hnever us (hus.trans hpre)

theorem neverOvercloses_concat_iff {ts : List Token} {t : Token} :
    NeverOvercloses (ts ++ [t]) ↔
      NeverOvercloses ts ∧ closing (ts ++ [t]) ≤ opening (ts ++ [t]) := by
  simp only [NeverOvercloses, List.prefix_concat_iff, forall_eq_or_imp]
  exact and_comm

/-- The first parenthesis that closes too many. -/
theorem exists_unopened {tokens : List Token} (h : ¬ NeverOvercloses tokens) :
    ∃ before t after, tokens = before ++ t :: after ∧ t.kind = .rightParen ∧
      NeverOvercloses before ∧ closing before = opening before := by
  induction tokens using List.reverseRecOn with
  | nil => exact absurd neverOvercloses_nil h
  | append_singleton ts t ih =>
    by_cases hts : NeverOvercloses ts
    · have hexceeds : opening (ts ++ [t]) < closing (ts ++ [t]) :=
        Nat.lt_of_not_le fun hle => h (neverOvercloses_concat_iff.mpr ⟨hts, hle⟩)
      have hcount := hts ts (List.prefix_refl ts)
      rw [opening_append, closing_append, closing_singleton] at hexceeds
      by_cases ht : t.kind = .rightParen
      · rw [if_pos ht] at hexceeds
        exact ⟨ts, t, [], rfl, ht, hts, by omega⟩
      · rw [if_neg ht] at hexceeds
        omega
    · obtain ⟨before, u, after, rfl, hu, hbefore, hcount⟩ := ih hts
      exact ⟨before, u, after ++ [t], by simp, hu, hbefore, hcount⟩

/-! ### Readings of tokens with their end -/

/-- The end of file is the last token, and the only one of its kind. -/
def Ends (tokens : List Token) : Prop :=
  ∃ ts e, tokens = ts ++ [e] ∧ e.kind = .eof ∧ ∀ t ∈ ts, t.kind ≠ .eof

theorem Ends.hasEnd {tokens : List Token} (h : Ends tokens) : HasEnd tokens := by
  obtain ⟨ts, e, rfl, he, -⟩ := h
  exact ⟨e, by simp, he⟩

namespace Unfinished

theorem length_opened_push (e : SExpr) (u : Unfinished) :
    (u.push e).opened.length = u.opened.length := by
  obtain ⟨opened, finished⟩ := u
  cases opened <;> rfl

end Unfinished

/-- A token that is not the end of file, and closes a list only if one is open, is read. -/
theorem exists_readFrom_token {u : Unfinished} {t : Token} (hne : t.kind ≠ .eof)
    (hopened : closing [t] ≤ u.opened.length + opening [t]) :
    ∃ v : Unfinished, v.opened.length + closing [t] = u.opened.length + opening [t] ∧
      ∀ rest, readFrom u (t :: rest) = readFrom v rest := by
  rw [closing_singleton, opening_singleton] at hopened ⊢
  cases hkind : t.kind with
  | leftParen => exact ⟨u.enter t.position, rfl, fun rest => by simp [readFrom, hkind]⟩
  | rightParen =>
    obtain ⟨opened, finished⟩ := u
    cases opened with
    | nil => simp [hkind] at hopened
    | cons o os =>
      refine ⟨.push (list o.position o.items.reverse) ⟨os, finished⟩, ?_, fun rest => ?_⟩
      · rw [Unfinished.length_opened_push]
        rfl
      · simp [readFrom, hkind]
  | number q =>
    exact ⟨u.push (number t.position q), Unfinished.length_opened_push _ u,
      fun rest => by simp [readFrom, hkind]⟩
  | symbol name =>
    exact ⟨u.push (symbol t.position name), Unfinished.length_opened_push _ u,
      fun rest => by simp [readFrom, hkind]⟩
  | eof => exact absurd hkind hne

/-- As many lists are open as parentheses have been opened and not closed. -/
theorem exists_readAll {ts : List Token} (hne : ∀ t ∈ ts, t.kind ≠ .eof) (h : NeverOvercloses ts) :
    ∃ u : Unfinished, u.opened.length + closing ts = opening ts ∧
      ∀ rest, readAll (ts ++ rest) = readFrom u rest := by
  induction ts using List.reverseRecOn with
  | nil => exact ⟨⟨[], []⟩, rfl, fun rest => rfl⟩
  | append_singleton ts t ih =>
    obtain ⟨hts, hcount⟩ := neverOvercloses_concat_iff.mp h
    obtain ⟨hnets, hnet⟩ := List.forall_mem_append.mp hne
    obtain ⟨u, hu, hread⟩ := ih hnets hts
    rw [closing_append, opening_append] at hcount
    obtain ⟨v, hv, hstep⟩ := exists_readFrom_token (u := u) (hnet t List.mem_cons_self) (by omega)
    refine ⟨v, ?_, fun rest => ?_⟩
    · rw [closing_append, opening_append]
      omega
    · rw [List.append_assoc, hread]
      exact hstep rest

/-- What a reading makes of tokens, and what it leaves: the end of file, or the parenthesis that it cannot
pass. -/
inductive Outcome (tokens : List Token) : Except Error (List SExpr) × List Token → Prop
  | reads {forms : List SExpr} {e : Token} (h : Balanced tokens) (he : e.kind = .eof) :
      Outcome tokens (.ok forms, [e])
  | unclosed {e : Token} (h : NeverOvercloses tokens) (hcount : closing tokens ≠ opening tokens)
      (he : e.kind = .eof) : Outcome tokens (.error .unexpectedEof, [e])
  | overcloses {before after : List Token} {t : Token} (htokens : tokens = before ++ t :: after)
      (ht : t.kind = .rightParen) (hbefore : NeverOvercloses before)
      (hcount : closing before = opening before) (hleft : Ends (t :: after)) :
      Outcome tokens (.error t.unopened, t :: after)

theorem outcome_of_neverOvercloses {ts : List Token} {e : Token} (he : e.kind = .eof)
    (hne : ∀ t ∈ ts, t.kind ≠ .eof) (hts : NeverOvercloses ts) :
    Outcome (ts ++ [e]) (readAll (ts ++ [e])) := by
  obtain ⟨u, hu, hread⟩ := exists_readAll hne hts
  have hclosing : closing (ts ++ [e]) = closing ts := by simp [closing_singleton, he]
  have hopening : opening (ts ++ [e]) = opening ts := by simp [opening_singleton, he]
  have hall : NeverOvercloses (ts ++ [e]) := by
    refine neverOvercloses_concat_iff.mpr ⟨hts, ?_⟩
    rw [hclosing, hopening]
    exact hts ts (List.prefix_refl ts)
  rw [hread]
  cases hopened : u.opened with
  | nil =>
    have hcount : closing ts = opening ts := by simpa [hopened] using hu
    have hstop : readFrom u [e] = (.ok u.finished.reverse, [e]) := by simp [readFrom, he, hopened]
    rw [hstop]
    exact .reads ⟨hall, by rw [hclosing, hopening, hcount]⟩ he
  | cons o os =>
    have hcount : closing ts ≠ opening ts := by
      rw [hopened, List.length_cons] at hu
      omega
    have hstop : readFrom u [e] = (.error .unexpectedEof, [e]) := by simp [readFrom, he, hopened]
    rw [hstop]
    exact .unclosed hall (by rwa [hclosing, hopening]) he

theorem outcome_of_overcloses {ts : List Token} {e : Token} (he : e.kind = .eof)
    (hne : ∀ t ∈ ts, t.kind ≠ .eof) (hts : ¬ NeverOvercloses ts) :
    Outcome (ts ++ [e]) (readAll (ts ++ [e])) := by
  obtain ⟨before, t, after, rfl, ht, hbefore, hcount⟩ := exists_unopened hts
  obtain ⟨hnebefore, hneafter⟩ := List.forall_mem_append.mp hne
  obtain ⟨u, hu, hread⟩ := exists_readAll hnebefore hbefore
  have hopened : u.opened = [] := List.eq_nil_of_length_eq_zero (by omega)
  have hstop : readFrom u (t :: (after ++ [e])) = (.error t.unopened, t :: (after ++ [e])) := by
    simp [readFrom, ht, hopened, Token.unopened]
  rw [List.append_assoc, List.cons_append, hread, hstop]
  exact .overcloses rfl ht hbefore hcount ⟨t :: after, e, rfl, he, hneafter⟩

theorem outcome_readAll {tokens : List Token} (h : Ends tokens) : Outcome tokens (readAll tokens) := by
  obtain ⟨ts, e, rfl, he, hne⟩ := h
  by_cases hts : NeverOvercloses ts
  · exact outcome_of_neverOvercloses he hne hts
  · exact outcome_of_overcloses he hne hts

/-! ### Reading again and again -/

def leftAfter : Nat → List Token → List Token
  | 0, tokens => tokens
  | n + 1, tokens => (readAll (leftAfter n tokens)).2

/-- What the reading finds that comes after `n` others. -/
def reading (n : Nat) (tokens : List Token) : Except Error (List SExpr) :=
  (readAll (leftAfter n tokens)).1

theorem ends_singleton {e : Token} (he : e.kind = .eof) : Ends [e] :=
  ⟨[], e, rfl, he, List.forall_mem_nil _⟩

theorem ends_readAll {tokens : List Token} (h : Ends tokens) : Ends (readAll tokens).2 := by
  have houtcome := outcome_readAll h
  generalize readAll tokens = r at houtcome
  cases houtcome with
  | reads _ he | unclosed _ _ he => exact ends_singleton he
  | overcloses _ _ _ _ hleft => exact hleft

theorem ends_leftAfter {tokens : List Token} (h : Ends tokens) (n : Nat) :
    Ends (leftAfter n tokens) := by
  induction n with
  | zero => exact h
  | succ n ih => exact ends_readAll ih

theorem reading_of_stays {tokens rest : List Token} {result : Except Error (List SExpr)}
    (h : (readAll tokens).2 = rest) (hstays : readAll rest = (result, rest)) (n : Nat) :
    reading (n + 1) tokens = result := by
  have hleft : leftAfter (n + 1) tokens = rest := by
    induction n with
    | zero => exact h
    | succ n ih => rw [leftAfter, ih, hstays]
  rw [reading, hleft, hstays]

theorem readAll_end {e : Token} (he : e.kind = .eof) : readAll [e] = (.ok [], [e]) := by
  simp [readAll, readFrom, he]

theorem readAll_unopened {t : Token} (ht : t.kind = .rightParen) (ts : List Token) :
    readAll (t :: ts) = (.error t.unopened, t :: ts) := by
  simp [readAll, readFrom, ht, Token.unopened]

inductive Readings (tokens : List Token) : Prop
  | reads {forms : List SExpr} (h : Balanced tokens) (hfirst : reading 0 tokens = .ok forms)
      (hlater : ∀ n, reading (n + 1) tokens = .ok [])
  | unclosed (h : NeverOvercloses tokens) (hcount : closing tokens ≠ opening tokens)
      (hfirst : reading 0 tokens = .error .unexpectedEof)
      (hlater : ∀ n, reading (n + 1) tokens = .ok [])
  | overcloses {before after : List Token} {t : Token} (htokens : tokens = before ++ t :: after)
      (ht : t.kind = .rightParen) (hbefore : NeverOvercloses before)
      (hexceeds : ¬ NeverOvercloses (before ++ [t]))
      (hall : ∀ n, reading n tokens = .error t.unopened)

theorem readings_of_ends {tokens : List Token} (h : Ends tokens) : Readings tokens := by
  have houtcome := outcome_readAll h
  generalize hread : readAll tokens = r at houtcome
  have hfirst : reading 0 tokens = r.1 := congrArg Prod.fst hread
  have hleft : (readAll tokens).2 = r.2 := congrArg Prod.snd hread
  cases houtcome with
  | reads hbalanced he =>
    exact .reads hbalanced hfirst (reading_of_stays hleft (readAll_end he))
  | unclosed hnever hcount he =>
    exact .unclosed hnever hcount hfirst (reading_of_stays hleft (readAll_end he))
  | @overcloses before after t htokens ht hbefore hcount _ =>
    have hlater := reading_of_stays hleft (readAll_unopened ht after)
    refine .overcloses htokens ht hbefore ?_ fun n => ?_
    · intro hnever
      have hle := hnever _ (List.prefix_refl _)
      rw [closing_append, opening_append, hcount, closing_singleton, if_pos ht, opening_singleton,
        if_neg (by simp [ht])] at hle
      exact Nat.not_succ_le_self _ hle
    · cases n with
      | zero => exact hfirst
      | succ n => exact hlater n

namespace Readings
variable {tokens : List Token}

theorem ok_iff (h : Readings tokens) :
    (∃ forms, reading 0 tokens = .ok forms) ↔ Balanced tokens := by
  cases h with
  | reads hbalanced hfirst => exact ⟨fun _ => hbalanced, fun _ => ⟨_, hfirst⟩⟩
  | unclosed _ hcount hfirst =>
    refine ⟨fun ⟨forms, hforms⟩ => ?_, fun hbalanced => absurd hbalanced.2 hcount⟩
    cases hfirst.symm.trans hforms
  | overcloses htokens _ _ hexceeds hall =>
    refine ⟨fun ⟨forms, hforms⟩ => ?_, fun hbalanced => ?_⟩
    · cases (hall 0).symm.trans hforms
    · exact absurd hbalanced.1 (not_neverOvercloses_of_split htokens hexceeds)

theorem error_of_overcloses (h : Readings tokens) (hnever : ¬ NeverOvercloses tokens) :
    ∃ before t after, tokens = before ++ t :: after ∧ t.kind = .rightParen ∧
      NeverOvercloses before ∧ ¬ NeverOvercloses (before ++ [t]) ∧
      ∀ n, reading n tokens = .error t.unopened := by
  cases h with
  | reads hbalanced => exact absurd hbalanced.1 hnever
  | unclosed hopens => exact absurd hopens hnever
  | overcloses htokens ht hbefore hexceeds hall =>
    exact ⟨_, _, _, htokens, ht, hbefore, hexceeds, hall⟩

theorem error_of_unclosed (h : Readings tokens) (hnever : NeverOvercloses tokens)
    (hbalanced : ¬ Balanced tokens) : reading 0 tokens = .error .unexpectedEof := by
  cases h with
  | reads h => exact absurd h hbalanced
  | unclosed _ _ hfirst => exact hfirst
  | overcloses htokens _ _ hexceeds =>
    exact absurd hnever (not_neverOvercloses_of_split htokens hexceeds)

theorem nothing_left (h : Readings tokens) (hfirst : (∃ forms, reading 0 tokens = .ok forms) ∨
    reading 0 tokens = .error .unexpectedEof) (n : Nat) : reading (n + 1) tokens = .ok [] := by
  cases h with
  | reads _ _ hlater | unclosed _ _ _ hlater => exact hlater n
  | overcloses _ _ _ _ hall =>
    rw [hall 0] at hfirst
    simp [Token.unopened] at hfirst

end Readings

/-- The forms consist of the tokens before the end of file, each form and each item at the position of its
first token. -/
theorem kinds_and_positions_of_reading {tokens : List Token} {forms : List SExpr} (h : Ends tokens)
    (hforms : reading 0 tokens = .ok forms) :
    kindsIn forms ++ [.eof] = tokens.map (·.kind) ∧ positionsIn forms = firstPositions tokens := by
  have houtcome := outcome_readAll h
  generalize hread : readAll tokens = r at houtcome
  have hfirst : r.1 = .ok forms := hread ▸ hforms
  cases houtcome with
  | unclosed | overcloses => cases hfirst
  | @reads forms e _ he =>
    obtain rfl := Except.ok.inj hfirst
    have hpositions := ((descendsAll_iff h.hasEnd).mpr hread).firstPositions_eq _ rfl
    obtain ⟨read, rfl, hkinds⟩ := completes_of_readFrom hread
    constructor
    · rw [List.map_append, hkinds]
      simp [Unfinished.kinds, kindsIn, he]
    · rw [hpositions, firstPositions_cons]
      simp [Token.isFirst, he, firstPositions]

theorem reading_ne_syntaxError {tokens : List Token} (h : Ends tokens) (n : Nat) (p : Position)
    (reason : String) : reading n tokens ≠ .error (.syntaxError p reason) := by
  have houtcome := outcome_readAll (ends_leftAfter h n)
  rw [reading]
  generalize readAll (leftAfter n tokens) = r at houtcome
  cases houtcome with
  | reads | unclosed | overcloses => simp [Token.unopened]

/-! ### Tokens of a text -/

theorem ends_of_call {text : String} {n : Nat} {tokens : List Token}
    (h : Scanner.call n (Scanner.ofText text) = .ok tokens) : Ends tokens := by
  have hresumes := Scanner.resumes_failures (Scanner.ofText text)
  rcases Nat.lt_trichotomy n (Scanner.ofText text).failures.length with hlt | rfl | hgt
  · cases (hresumes.fails n hlt).symm.trans h
  · obtain rfl := Except.ok.inj (hresumes.delivers.symm.trans h)
    exact ⟨_, _, rfl, rfl, fun t ht => (Piece.standsIn_of_mem_tokensOf ht).kind_ne_eof⟩
  · obtain rfl := Except.ok.inj ((hresumes.ends n hgt).symm.trans h)
    exact ends_singleton rfl

/-- The tokens that a scan delivers are read as trees exactly if they are balanced, and each tree stands
where its first token does. Otherwise the first parenthesis that closes too many is the error, then and
in all further readings, or the tokens end too early; then, as behind a success, nothing is left. Recursive
descent comes to the same end in each reading, and never to an unbalanced parenthesis inside of an
expression. -/
theorem readAll_balanced {text : String} {n : Nat} {tokens : List Token}
    (h : Scanner.call n (Scanner.ofText text) = .ok tokens) :
    ((∃ forms, reading 0 tokens = .ok forms) ↔ Balanced tokens) ∧
      (∀ forms, reading 0 tokens = .ok forms →
        kindsIn forms ++ [.eof] = tokens.map (·.kind) ∧ positionsIn forms = firstPositions tokens) ∧
      (¬ NeverOvercloses tokens → ∃ before t after, tokens = before ++ t :: after ∧
        t.kind = .rightParen ∧ NeverOvercloses before ∧ ¬ NeverOvercloses (before ++ [t]) ∧
        ∀ k, reading k tokens = .error t.unopened) ∧
      (NeverOvercloses tokens → ¬ Balanced tokens → reading 0 tokens = .error .unexpectedEof) ∧
      ((∃ forms, reading 0 tokens = .ok forms) ∨ reading 0 tokens = .error .unexpectedEof →
        ∀ k, reading (k + 1) tokens = .ok []) ∧
      ∀ k, (∀ p reason, reading k tokens ≠ .error (.syntaxError p reason)) ∧
        ∀ result left, DescendsAll (leftAfter k tokens) result left ↔
          reading k tokens = result ∧ leftAfter (k + 1) tokens = left := by
  have hends := ends_of_call h
  have hreadings := readings_of_ends hends
  refine ⟨?_, fun forms => kinds_and_positions_of_reading hends, ?_, ?_, ?_, fun k => ⟨?_, ?_⟩⟩
  · exact hreadings.ok_iff
  · exact hreadings.error_of_overcloses
  · exact hreadings.error_of_unclosed
  · exact hreadings.nothing_left
  · exact reading_ne_syntaxError hends k
  · intro result left
    rw [descendsAll_iff (ends_leftAfter hends k).hasEnd]
    exact Prod.ext_iff

/-- The third closing parenthesis is the first that closes nothing. -/
theorem readAll_balanced_of_surplus :
    ∃ tokens, Scanner.call 0 (Scanner.ofText "(x (1))\n) (") = .ok tokens ∧
      closing tokens = opening tokens ∧ ¬ Balanced tokens ∧
      ∀ k, reading k tokens = .error (.unexpectedToken "`(`" "`)` at line 2") := by
  have hscan : Scanner.call 0 (Scanner.ofText "(x (1))\n) (") = .ok
      [⟨.leftParen, "(", ⟨1, 1⟩⟩, ⟨.symbol "x", "x", ⟨1, 2⟩⟩, ⟨.leftParen, "(", ⟨1, 4⟩⟩,
        ⟨.number 1, "1", ⟨1, 5⟩⟩, ⟨.rightParen, ")", ⟨1, 6⟩⟩, ⟨.rightParen, ")", ⟨1, 7⟩⟩,
        ⟨.rightParen, ")", ⟨2, 1⟩⟩, ⟨.leftParen, "(", ⟨2, 3⟩⟩, ⟨.eof, "", ⟨2, 4⟩⟩] := by
    decide +kernel
  obtain ⟨before, t, after, -, -, -, -, hall⟩ := (readAll_balanced hscan).2.2.1 (by decide +kernel)
  refine ⟨_, hscan, by decide +kernel, by decide +kernel, fun k => ?_⟩
  rw [hall k, ← hall 0]
  rfl

end SExpr
end LinearArith
