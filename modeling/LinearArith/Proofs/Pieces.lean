import LinearArith.Proofs.Scanning
import Mathlib.Data.List.DropRight

/-! A text cut into the pieces that the scanner reads one after another: where each stands, and what a
scan makes of those before the first fault. -/

namespace LinearArith

namespace Position

/-- The position behind a text, found by counting: its line breaks, and its characters after the last of
them. -/
def counted (before : List Char) : Position :=
  ⟨before.count '\n' + 1, (before.rtakeWhile (· ≠ '\n')).length + 1⟩

theorem counted_append_singleton (before : List Char) (c : Char) :
    counted (before ++ [c]) = (counted before).next c := by
  by_cases hc : c = '\n' <;> simp [counted, next, hc]

theorem counted_append (before text : List Char) :
    counted (before ++ text) = (counted before).after text := by
  induction text generalizing before with
  | nil => rw [List.append_nil, after_nil]
  | cons c cs ih =>
    rw [after_cons, ← counted_append_singleton, ← ih, List.append_assoc, List.singleton_append]

theorem start_after (text : List Char) : start.after text = counted text :=
  (counted_append [] text).symm

/-- Stands on an earlier line, or earlier on the same line. -/
def Precedes (p q : Position) : Prop :=
  p.line < q.line ∨ p.line = q.line ∧ p.column < q.column

theorem Precedes.trans {p q r : Position} (h : p.Precedes q) (h' : q.Precedes r) :
    p.Precedes r := by
  simp only [Precedes] at h h' ⊢
  omega

theorem precedes_next (p : Position) (c : Char) : p.Precedes (p.next c) := by
  rw [next]
  split
  · exact Or.inl (Nat.lt_succ_self _)
  · exact Or.inr ⟨rfl, Nat.lt_succ_self _⟩

theorem precedes_after {text : List Char} (h : text ≠ []) (p : Position) :
    p.Precedes (p.after text) := by
  induction text generalizing p with
  | nil => exact absurd rfl h
  | cons c cs ih =>
    rw [after_cons]
    by_cases hcs : cs = []
    · rw [hcs]
      exact precedes_next p c
    · exact (precedes_next p c).trans (ih hcs (p.next c))

end Position

theorem Reading.kind_ne_eof_of_first {c : Char} {cs : List Char} {kind : TokenKind}
    (h : (first c cs).found = .token kind) : kind ≠ .eof := by
  have hstarts := starts_first c cs
  generalize first c cs = r at h hstarts
  cases hstarts with
  | numeral hc | negativeNumeral hc =>
    rcases Scanner.ofNumeral_cases _ _ with ⟨f, hf⟩ | ⟨q, hq, -⟩
    · cases hf.symm.trans h
    · obtain rfl := Finding.token.inj (hq.symm.trans h)
      nofun
  | leftParen | rightParen | symbol =>
    obtain rfl := Finding.token.inj h
    nofun
  | blank | comment | unexpected => cases h

def Token.endOf (text : List Char) : Token := ⟨.eof, "", .counted text⟩

structure Failure where
  position : Position
  fault : LexicalFault

def Failure.error (x : Failure) : Error := .syntaxError x.position x.fault.message

/-- Characters that are read together: where they stand, and what they are. -/
structure Piece where
  position : Position
  text : List Char
  found : Finding

namespace Piece

def token? (x : Piece) : Option Token :=
  match x.found with
  | .token kind => some ⟨kind, String.ofList x.text, x.position⟩
  | _ => none

def failure? (x : Piece) : Option Failure :=
  match x.found with
  | .fault f => some ⟨x.position, f⟩
  | _ => none

def isClean (x : Piece) : Bool := x.failure?.isNone

theorem isClean_iff {x : Piece} : x.isClean = true ↔ x.failure? = none := Option.isNone_iff_eq_none

def textOf (xs : List Piece) : List Char := xs.flatMap text

def tokensOf (xs : List Piece) : List Token := xs.filterMap token?

def failuresOf (xs : List Piece) : List Failure := xs.filterMap failure?

theorem textOf_append (xs ys : List Piece) : textOf (xs ++ ys) = textOf xs ++ textOf ys :=
  List.flatMap_append

theorem textOf_cons (x : Piece) (xs : List Piece) : textOf (x :: xs) = x.text ++ textOf xs :=
  List.flatMap_cons

theorem tokensOf_cons (x : Piece) (xs : List Piece) :
    tokensOf (x :: xs) = x.token?.toList ++ tokensOf xs := by
  cases h : x.token? <;> simp [tokensOf, h]

theorem tokensOf_append (xs ys : List Piece) : tokensOf (xs ++ ys) = tokensOf xs ++ tokensOf ys :=
  List.filterMap_append

theorem token?_of_failure? {x : Piece} {e : Failure} (h : x.failure? = some e) : x.token? = none := by
  cases hfound : x.found with
  | gap | token =>
    simp only [failure?, hfound] at h
    cases h
  | fault f => simp only [token?, hfound]

theorem position_of_token? {x : Piece} {t : Token} (h : x.token? = some t) :
    t.position = x.position := by
  cases hfound : x.found with
  | gap | fault =>
    simp only [token?, hfound] at h
    cases h
  | token kind =>
    simp only [token?, hfound] at h
    rw [← Option.some.inj h]

theorem position_of_failure? {x : Piece} {e : Failure} (h : x.failure? = some e) :
    e.position = x.position := by
  cases hfound : x.found with
  | gap | token =>
    simp only [failure?, hfound] at h
    cases h
  | fault f =>
    simp only [failure?, hfound] at h
    rw [← Option.some.inj h]

theorem takeWhile_isClean_cases (xs : List Piece) :
    (∀ x ∈ xs.takeWhile isClean, x.failure? = none) ∧
      (xs.takeWhile isClean = xs ∨
        ∃ bad e after, bad.failure? = some e ∧ xs = xs.takeWhile isClean ++ bad :: after) := by
  refine ⟨fun x hx => isClean_iff.mp (List.mem_takeWhile_imp hx), ?_⟩
  induction xs with
  | nil => exact Or.inl rfl
  | cons x xs ih =>
    cases hx : x.failure? with
    | some e =>
      have hbad : x.isClean = false := by rw [isClean, hx]; rfl
      exact Or.inr ⟨x, e, xs, hx, by rw [List.takeWhile_cons, hbad]; rfl⟩
    | none =>
      rw [List.takeWhile_cons_of_pos (isClean_iff.mpr hx)]
      rcases ih with hall | ⟨bad, e, after, hbad, hsplit⟩
      · exact Or.inl (congrArg (x :: ·) hall)
      · exact Or.inr ⟨bad, e, after, hbad, congrArg (x :: ·) hsplit⟩

def first (p : Position) (c : Char) (cs : List Char) : Piece :=
  ⟨p, (Reading.first c cs).text, (Reading.first c cs).found⟩

/-- The pieces of a text at `p`, to its end. -/
def cut (p : Position) (text : List Char) : List Piece :=
  match text with
  | [] => []
  | c :: cs => first p c cs :: cut (p.after (first p c cs).text) (Reading.first c cs).rest
termination_by text.length
decreasing_by exact (Reading.first c cs).length_rest_lt

variable {p : Position} {text : List Char} {x : Piece} {xs : List Piece}

theorem cut_nil (p : Position) : cut p [] = [] := by rw [cut]

theorem cut_cons (p : Position) (c : Char) (cs : List Char) :
    cut p (c :: cs) =
      first p c cs :: cut (p.after (first p c cs).text) (Reading.first c cs).rest := by rw [cut]

theorem cut_eq_nil (h : cut p text = []) : text = [] := by
  cases text with
  | nil => rfl
  | cons c cs =>
    rw [cut_cons] at h
    cases h

theorem cut_eq_cons (h : cut p text = x :: xs) : ∃ c cs, text = c :: cs ∧ x = first p c cs ∧
    xs = cut (p.after x.text) (Reading.first c cs).rest := by
  cases text with
  | nil =>
    rw [cut_nil] at h
    cases h
  | cons c cs =>
    rw [cut_cons] at h
    obtain ⟨rfl, rfl⟩ := List.cons.inj h
    exact ⟨c, cs, rfl, rfl, rfl⟩

theorem textOf_cut (p : Position) (text : List Char) : textOf (cut p text) = text := by
  induction hxs : cut p text generalizing p text with
  | nil => exact (cut_eq_nil hxs).symm
  | cons x xs ih =>
    obtain ⟨c, cs, rfl, rfl, rfl⟩ := cut_eq_cons hxs
    have hrest := ih _ _ rfl
    have hsplit := (Reading.first c cs).split
    rw [textOf_cons, hrest]
    exact hsplit

theorem cut_eq_append {before after : List Piece} (h : cut p text = before ++ after) :
    after = cut (p.after (textOf before)) (textOf after) := by
  induction before generalizing p text with
  | nil =>
    have htext := textOf_cut p text
    rw [List.nil_append] at h
    rw [h] at htext
    rw [htext]
    exact h.symm
  | cons x before ih =>
    obtain ⟨c, cs, rfl, rfl, hrest⟩ := cut_eq_cons h
    rw [textOf_cons, Position.after_append]
    exact ih hrest.symm

theorem exists_first_of_mem_cut (h : x ∈ cut p text) :
    ∃ before c cs, text = before ++ c :: cs ∧ x = first (p.after before) c cs := by
  obtain ⟨before, after, hsplit⟩ := List.append_of_mem h
  obtain ⟨c, cs, htext, hfirst, -⟩ := cut_eq_cons (cut_eq_append hsplit).symm
  refine ⟨textOf before, c, cs, ?_, hfirst⟩
  rw [← htext, ← textOf_append, ← hsplit, textOf_cut]

theorem pairwise_precedes_cut (p : Position) (text : List Char) :
    (cut p text).Pairwise (fun x y => x.position.Precedes y.position) ∧
      ∀ x ∈ cut p text, x.position = p ∨ p.Precedes x.position := by
  induction hxs : cut p text generalizing p text with
  | nil => exact ⟨List.Pairwise.nil, List.forall_mem_nil _⟩
  | cons x xs ih =>
    obtain ⟨c, cs, rfl, rfl, rfl⟩ := cut_eq_cons hxs
    obtain ⟨hordered, hfrom⟩ := ih _ _ rfl
    have hbehind : ∀ y ∈ cut (p.after (first p c cs).text) (Reading.first c cs).rest,
        p.Precedes y.position := by
      intro y hy
      have hpast : p.Precedes (p.after (first p c cs).text) :=
        Position.precedes_after (Reading.first c cs).text_ne_nil p
      rcases hfrom y hy with heq | hlt
      · rw [heq]
        exact hpast
      · exact hpast.trans hlt
    exact ⟨List.pairwise_cons.mpr ⟨hbehind, hordered⟩,
      List.forall_mem_cons.mpr ⟨Or.inl rfl, fun y hy => Or.inr (hbehind y hy)⟩⟩

theorem text_ne_nil_of_mem_cut (h : x ∈ cut p text) : x.text ≠ [] := by
  obtain ⟨before, c, cs, -, rfl⟩ := exists_first_of_mem_cut h
  exact (Reading.first c cs).text_ne_nil

theorem precedes_end_of_mem_cut (h : x ∈ cut p text) : x.position.Precedes (p.after text) := by
  obtain ⟨before, c, cs, rfl, rfl⟩ := exists_first_of_mem_cut h
  rw [Position.after_append]
  exact Position.precedes_after (List.cons_ne_nil c cs) _

end Piece

namespace Scanner
open Piece

def pieces (s : Scanner) : List Piece := cut s.position s.rest

theorem scan_of_failure?_eq_none {p : Position} {c : Char} {cs : List Char} {pending : List Token}
    (h : (first p c cs).failure? = none) : scan ⟨c :: cs, p, pending⟩ =
      scan ⟨(Reading.first c cs).rest, p.after (first p c cs).text,
        (first p c cs).token?.toList ++ pending⟩ := by
  cases hfound : (Reading.first c cs).found with
  | gap =>
    have htoken : (first p c cs).token? = none := by simp only [token?, first, hfound]
    rw [scan_of_gap hfound, htoken]
    rfl
  | token kind =>
    have htoken : (first p c cs).token? =
        some ⟨kind, String.ofList (Reading.first c cs).text, p⟩ := by
      simp only [token?, first, hfound]
    rw [scan_of_token hfound, htoken]
    rfl
  | fault f =>
    have hfailure : (first p c cs).failure? = some ⟨p, f⟩ := by
      simp only [failure?, first, hfound]
    rw [hfailure] at h
    cases h

theorem scan_of_failure? {p : Position} {c : Char} {cs : List Char} {pending : List Token}
    {e : Failure} (h : (first p c cs).failure? = some e) : scan ⟨c :: cs, p, pending⟩ =
      (.error e.error, ⟨(Reading.first c cs).rest, p.after (first p c cs).text, pending⟩) := by
  cases hfound : (Reading.first c cs).found with
  | gap | token =>
    have hfailure : (first p c cs).failure? = none := by simp only [failure?, first, hfound]
    rw [hfailure] at h
    cases h
  | fault f =>
    have hfailure : (first p c cs).failure? = some ⟨p, f⟩ := by
      simp only [failure?, first, hfound]
    rw [hfailure] at h
    obtain rfl := Option.some.inj h
    exact scan_of_fault hfound

/-- A scan passes over pieces that are not faulty and keeps their tokens. -/
theorem scan_of_pieces_eq_append {s : Scanner} {before after : List Piece}
    (h : s.pieces = before ++ after) (hclean : ∀ x ∈ before, x.failure? = none) :
    s.scan = scan ⟨textOf after, s.position.after (textOf before),
      (tokensOf before).reverse ++ s.pending⟩ := by
  induction before generalizing s with
  | nil =>
    have htext : textOf after = s.rest := by
      rw [← textOf_cut s.position s.rest]
      exact congrArg textOf h.symm
    rw [htext]
    rfl
  | cons x before ih =>
    obtain ⟨text, p, pending⟩ := s
    obtain ⟨c, cs, rfl, rfl, hrest⟩ := cut_eq_cons h
    have hfirst : (first p c cs).failure? = none := hclean _ List.mem_cons_self
    have hlater := ih (s := ⟨(Reading.first c cs).rest, p.after (first p c cs).text,
        (first p c cs).token?.toList ++ pending⟩) hrest.symm
      fun y hy => hclean y (List.mem_cons_of_mem _ hy)
    have hpending : (tokensOf (first p c cs :: before)).reverse =
        (tokensOf before).reverse ++ (first p c cs).token?.toList := by
      rw [tokensOf_cons, List.reverse_append]
      cases (first p c cs).token? <;> rfl
    rw [scan_of_failure?_eq_none hfirst, hlater, hpending, textOf_cons, Position.after_append,
      List.append_assoc]

theorem scan_of_clean {s : Scanner} (hclean : ∀ x ∈ s.pieces, x.failure? = none) :
    s.scan = (.ok (s.pending.reverse ++ tokensOf s.pieces ++
        [⟨.eof, "", s.position.after s.rest⟩]),
      ⟨[], s.position.after s.rest, []⟩) := by
  have htext : textOf s.pieces = s.rest := textOf_cut s.position s.rest
  have hscan := scan_of_pieces_eq_append (List.append_nil s.pieces).symm hclean
  rw [hscan, htext]
  exact scan_nil.trans (by simp)

/-- The first faulty piece ends a scan; the pieces behind it are left. -/
theorem scan_of_faulty {s : Scanner} {before after : List Piece} {bad : Piece} {e : Failure}
    (h : s.pieces = before ++ bad :: after) (hclean : ∀ x ∈ before, x.failure? = none)
    (hbad : bad.failure? = some e) :
    ∃ later, s.scan = (.error e.error, later) ∧ later.pieces = after ∧
      later.pending = (tokensOf before).reverse ++ s.pending ∧
      later.position = s.position.after (textOf before ++ bad.text) := by
  have hrest : bad :: after = cut (s.position.after (textOf before)) (textOf (bad :: after)) :=
    cut_eq_append h
  obtain ⟨c, cs, htext, rfl, hafter⟩ := cut_eq_cons hrest.symm
  have hscan := scan_of_pieces_eq_append h hclean
  rw [htext, scan_of_failure? hbad] at hscan
  exact ⟨_, hscan, hafter.symm, rfl, (Position.after_append _ _ _).symm⟩

end Scanner
end LinearArith
