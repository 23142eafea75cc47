import LinearArith.Proofs.Scanning
import LinearArith.SExpr

/-! Trees and their texts: what is read from the text of a tree is the tree, but for the positions, and
what is read from any text can be printed and read again. -/

namespace LinearArith
namespace SExpr

mutual

/-- The tree with all positions forgotten. -/
def bare : SExpr → SExpr
  | number _ q => number .start q
  | symbol _ name => symbol .start name
  | list _ items => list .start (bareAll items)

def bareAll : List SExpr → List SExpr
  | [] => []
  | e :: es => e.bare :: bareAll es

end

mutual

def symbols : SExpr → List String
  | number _ _ => []
  | symbol _ name => [name]
  | list _ items => symbolsIn items

def symbolsIn : List SExpr → List String
  | [] => []
  | e :: es => e.symbols ++ symbolsIn es

end

mutual

def kinds : SExpr → List TokenKind
  | number _ q => [.number q]
  | symbol _ name => [.symbol name]
  | list _ items => .leftParen :: (kindsIn items ++ [.rightParen])

def kindsIn : List SExpr → List TokenKind
  | [] => []
  | e :: es => e.kinds ++ kindsIn es

end

theorem bareAll_eq_map (es : List SExpr) : bareAll es = es.map bare := by
  induction es with
  | nil => rfl
  | cons e es ih => rw [bareAll, ih, List.map_cons]

theorem symbolsIn_eq_flatMap (es : List SExpr) : symbolsIn es = es.flatMap symbols := by
  induction es with
  | nil => rfl
  | cons e es ih => rw [symbolsIn, ih, List.flatMap_cons]

theorem kindsIn_eq_flatMap (es : List SExpr) : kindsIn es = es.flatMap kinds := by
  induction es with
  | nil => rfl
  | cons e es ih => rw [kindsIn, ih, List.flatMap_cons]

@[simp] theorem kindsIn_append (es fs : List SExpr) :
    kindsIn (es ++ fs) = kindsIn es ++ kindsIn fs := by
  simp only [kindsIn_eq_flatMap, List.flatMap_append]

mutual

theorem text_bare : (e : SExpr) → e.bare.text = e.text
  | number _ _ => rfl
  | symbol _ _ => rfl
  | list _ [] => rfl
  | list _ (e :: es) => by rw [bare, bareAll, text, text, text_bare e, spacedText_bareAll es]

theorem spacedText_bareAll : (es : List SExpr) → spacedText (bareAll es) = spacedText es
  | [] => rfl
  | e :: es => by rw [bareAll, spacedText, spacedText, text_bare e, spacedText_bareAll es]

end

mutual

theorem mem_symbols_iff {name : String} : (e : SExpr) → (name ∈ e.symbols ↔ .symbol name ∈ e.kinds)
  | number _ _ => by simp [symbols, kinds]
  | symbol _ _ => by simp [symbols, kinds]
  | list _ items => by simp [symbols, kinds, mem_symbolsIn_iff items]

theorem mem_symbolsIn_iff {name : String} :
    (es : List SExpr) → (name ∈ symbolsIn es ↔ .symbol name ∈ kindsIn es)
  | [] => by simp [symbolsIn, kindsIn]
  | e :: es => by simp [symbolsIn, kindsIn, mem_symbols_iff e, mem_symbolsIn_iff es]

end

/-! ### From tokens to trees -/

namespace Unfinished

def pushAll (es : List SExpr) (u : Unfinished) : Unfinished := es.foldl (fun u e => u.push e) u

theorem pushAll_outside (es finished : List SExpr) :
    pushAll es ⟨[], finished⟩ = ⟨[], es.reverse ++ finished⟩ := by
  induction es generalizing finished with
  | nil => rfl
  | cons e es ih =>
    rw [List.reverse_cons, List.append_assoc]
    exact ih (e :: finished)

theorem pushAll_inside (es : List SExpr) (o : Open) (os : List Open) (finished : List SExpr) :
    pushAll es ⟨o :: os, finished⟩ =
      ⟨{ o with items := es.reverse ++ o.items } :: os, finished⟩ := by
  induction es generalizing o with
  | nil => rfl
  | cons e es ih =>
    rw [List.reverse_cons, List.append_assoc]
    exact ih { o with items := e :: o.items }

def kinds (u : Unfinished) : List TokenKind :=
  kindsIn u.finished.reverse ++
    u.opened.reverse.flatMap fun o => .leftParen :: kindsIn o.items.reverse

theorem kinds_push (e : SExpr) (u : Unfinished) : (u.push e).kinds = u.kinds ++ e.kinds := by
  obtain ⟨opened, finished⟩ := u
  cases opened <;> simp [push, kinds, kindsIn]

theorem kinds_enter (p : Position) (u : Unfinished) :
    (u.enter p).kinds = u.kinds ++ [.leftParen] := by
  simp [enter, kinds, kindsIn]

theorem kinds_close (o : Open) (os : List Open) (finished : List SExpr) :
    (push (list o.position o.items.reverse) ⟨os, finished⟩).kinds =
      kinds ⟨o :: os, finished⟩ ++ [.rightParen] := by
  rw [kinds_push]
  simp [kinds, SExpr.kinds]

end Unfinished

mutual

/-- From tokens of the kinds of a tree that tree is read, whatever has been read before and whatever
tokens follow. -/
theorem exists_readFrom : (e : SExpr) → {tokens : List Token} → tokens.map (·.kind) = e.kinds →
    ∃ e', e'.bare = e.bare ∧ ∀ u ts, readFrom u (tokens ++ ts) = readFrom (u.push e') ts
  | number _ q, tokens, h => by
    obtain ⟨t, rfl, ht⟩ := List.map_eq_singleton_iff.mp h
    exact ⟨number t.position q, rfl, fun u ts => by simp [readFrom, ht]⟩
  | symbol _ name, tokens, h => by
    obtain ⟨t, rfl, ht⟩ := List.map_eq_singleton_iff.mp h
    exact ⟨symbol t.position name, rfl, fun u ts => by simp [readFrom, ht]⟩
  | list _ items, tokens, h => by
    obtain ⟨left, inner, rfl, hleft, h⟩ := List.map_eq_cons_iff.mp h
    obtain ⟨inner, last, rfl, hinner, hlast⟩ := List.map_eq_append_iff.mp h
    obtain ⟨right, rfl, hright⟩ := List.map_eq_singleton_iff.mp hlast
    obtain ⟨items', hitems, hread⟩ := exists_readFrom_all items hinner
    refine ⟨list left.position items', by rw [bare, bare, hitems], fun u ts => ?_⟩
    calc readFrom u (left :: (inner ++ [right]) ++ ts)
        = readFrom (u.enter left.position) (inner ++ ([right] ++ ts)) := by
          simp [readFrom, hleft]
      _ = readFrom ⟨⟨left.position, items'.reverse⟩ :: u.opened, u.finished⟩ (right :: ts) := by
          rw [hread, Unfinished.enter, Unfinished.pushAll_inside, List.append_nil]
          rfl
      _ = readFrom (u.push (list left.position items')) ts := by
          simp [readFrom, hright]

theorem exists_readFrom_all :
    (es : List SExpr) → {tokens : List Token} → tokens.map (·.kind) = kindsIn es →
    ∃ es', bareAll es' = bareAll es ∧
      ∀ u ts, readFrom u (tokens ++ ts) = readFrom (u.pushAll es') ts
  | [], tokens, h => by
    obtain rfl := List.map_eq_nil_iff.mp h
    exact ⟨[], rfl, fun u ts => rfl⟩
  | e :: es, tokens, h => by
    obtain ⟨first, later, rfl, hfirst, hlater⟩ := List.map_eq_append_iff.mp h
    obtain ⟨e', he, hread⟩ := exists_readFrom e hfirst
    obtain ⟨es', hes, hreadAll⟩ := exists_readFrom_all es hlater
    refine ⟨e' :: es', by rw [bareAll, bareAll, he, hes], fun u ts => ?_⟩
    rw [List.append_assoc, hread, hreadAll]
    rfl

end

/-- The forms consist of what has been read so far and of the tokens before `rest`. -/
def Completes (u : Unfinished) (tokens rest : List Token) (forms : List SExpr) : Prop :=
  ∃ read, tokens = read ++ rest ∧ kindsIn forms = u.kinds ++ read.map (·.kind)

theorem Completes.finished {u : Unfinished} (h : u.opened = []) (rest : List Token) :
    Completes u rest rest u.finished.reverse :=
  ⟨[], rfl, by simp [Unfinished.kinds, h]⟩

theorem Completes.token {u v : Unfinished} {t : Token} {ts rest : List Token} {forms : List SExpr}
    (hv : v.kinds = u.kinds ++ [t.kind]) (h : Completes v ts rest forms) :
    Completes u (t :: ts) rest forms := by
  obtain ⟨read, rfl, hforms⟩ := h
  exact ⟨t :: read, rfl, by rw [hforms, hv, List.map_cons, List.append_assoc, List.singleton_append]⟩

theorem completes_of_readFrom {u : Unfinished} {tokens rest : List Token} {forms : List SExpr}
    (h : readFrom u tokens = (.ok forms, rest)) : Completes u tokens rest forms := by
  fun_induction readFrom u tokens with
  | case1 u =>
    obtain ⟨hforms, rfl⟩ := Prod.mk.inj h
    split at hforms
    case isTrue hopened =>
      obtain rfl := Except.ok.inj hforms
      exact .finished (List.isEmpty_iff.mp hopened) []
    case isFalse => cases hforms
  | case2 u t ts hopened hkind =>
    obtain ⟨hforms, rfl⟩ := Prod.mk.inj h
    obtain rfl := Except.ok.inj hforms
    exact .finished hopened (t :: ts)
  | case3 | case5 => cases h
  | case4 u t ts hkind ih =>
    exact .token (by rw [Unfinished.kinds_enter, hkind]) (ih h)
  | case6 u t ts o os hopened hkind ih =>
    obtain ⟨opened, finished⟩ := u
    obtain rfl : opened = o :: os := hopened
    exact .token (by rw [Unfinished.kinds_close, hkind]) (ih h)
  | case7 u t ts q hkind ih =>
    exact .token (by rw [Unfinished.kinds_push, hkind]; rfl) (ih h)
  | case8 u t ts name hkind ih =>
    exact .token (by rw [Unfinished.kinds_push, hkind]; rfl) (ih h)

/-! ### From texts to trees -/

def ofText (text : String) : Except Error (List SExpr) := do
  let tokens ← (Scanner.ofText text).scan.1
  (readAll tokens).1

theorem isSymbol_of_ofText {source : String} {forms : List SExpr} (h : ofText source = .ok forms) :
    ∀ e ∈ forms, ∀ name ∈ e.symbols, Scanner.IsSymbol name := by
  obtain ⟨tokens, hscan, hread⟩ := bind_eq_ok_iff.mp h
  obtain ⟨read, hsplit, hkinds⟩ := completes_of_readFrom (Prod.ext hread rfl)
  intro e he name hname
  have hmem : .symbol name ∈ kindsIn forms :=
    (mem_symbolsIn_iff forms).mp (symbolsIn_eq_flatMap forms ▸ List.mem_flatMap_of_mem he hname)
  rw [hkinds] at hmem
  obtain ⟨t, ht, hkind⟩ := List.mem_map.mp hmem
  exact Scanner.isSymbol_of_scan hscan (hsplit ▸ List.mem_append_left _ ht) hkind

theorem exists_ofText {text : String} {forms : List SExpr}
    (h : Scanner.Reads text.toList (kindsIn forms) []) :
    ∃ forms', ofText text = .ok forms' ∧ forms'.map bare = forms.map bare := by
  obtain ⟨tokens, hscan, hkinds⟩ := Scanner.exists_tokens_of_reads h
  obtain ⟨tokens, last, rfl, hforms, hlast⟩ := List.map_eq_append_iff.mp hkinds
  obtain ⟨eof, rfl, heof⟩ := List.map_eq_singleton_iff.mp hlast
  obtain ⟨forms', hbare, hread⟩ := exists_readFrom_all forms hforms
  refine ⟨forms', bind_eq_ok_iff.mpr ⟨_, hscan, ?_⟩, by simpa only [bareAll_eq_map] using hbare⟩
  rw [readAll, hread, Unfinished.pushAll_outside, List.append_nil]
  simp [readFrom, heof]

end SExpr

/-! ### From trees to texts -/

namespace SExpr
open Scanner

theorem toList_listText (p : Position) (e : SExpr) (es : List SExpr) :
    (list p (e :: es)).text.toList =
      ['('] ++ (e.text.toList ++ ((spacedText es).toList ++ [')'])) := by
  simp [text]

theorem toList_spacedText (e : SExpr) (es : List SExpr) :
    (spacedText (e :: es)).toList = [' '] ++ (e.text.toList ++ (spacedText es).toList) := by
  simp [spacedText]

theorem delimited_spacedText (es : List SExpr) {rest : List Char} (hrest : Delimited rest) :
    Delimited ((spacedText es).toList ++ rest) := by
  cases es with
  | nil => exact hrest
  | cons e es =>
    rw [toList_spacedText]
    exact delimited_separator (by decide) _

mutual

theorem reads_text {rest : List Char} : (e : SExpr) → (∀ name ∈ e.symbols, IsSymbol name) →
    Delimited rest → Reads e.text.toList e.kinds rest
  | number _ q, _, hrest => reads_ratText q hrest
  | symbol _ name, h, hrest => reads_symbol (h name (by simp [symbols])) hrest
  | list p items, h, _ => reads_listText p items h

theorem reads_listText {rest : List Char} : (p : Position) → (items : List SExpr) →
    (∀ name ∈ symbolsIn items, IsSymbol name) →
    Reads (list p items).text.toList (list p items).kinds rest
  | p, [], _ => by
    have htext : (list p []).text.toList = ['('] ++ [')'] := by simp [text]
    rw [htext]
    exact (reads_leftParen _).append (reads_rightParen rest)
  | p, e :: es, h => by
    have hright : Delimited ([')'] ++ rest) := delimited_separator (by decide) _
    have hhead := reads_text e (fun name hname => h name (by simp [symbolsIn, hname]))
      (delimited_spacedText es hright)
    have htail := reads_spacedText es (fun name hname => h name (by simp [symbolsIn, hname])) hright
    rw [toList_listText, kinds, kindsIn, List.append_assoc]
    rw [← List.append_assoc] at hhead
    exact (reads_leftParen _).append (hhead.append (htail.append (reads_rightParen rest)))

theorem reads_spacedText {rest : List Char} : (es : List SExpr) →
    (∀ name ∈ symbolsIn es, IsSymbol name) → Delimited rest →
    Reads (spacedText es).toList (kindsIn es) rest
  | [], _, _ => Reads.nil rest
  | e :: es, h, hrest => by
    have hblank : Reads [' '] [] (e.text.toList ++ (spacedText es).toList ++ rest) :=
      reads_blanks (List.forall_mem_singleton.mpr rfl) _
    have hhead := reads_text e (fun name hname => h name (by simp [symbolsIn, hname]))
      (delimited_spacedText es hrest)
    have htail := reads_spacedText es (fun name hname => h name (by simp [symbolsIn, hname])) hrest
    rw [toList_spacedText, kindsIn]
    exact hblank.append (hhead.append htail)

end

/-- A separator is needed only after what is not a list. -/
theorem reads_separated {sep : List Char} (hsep : ∀ c ∈ sep, isBlank c = true) :
    (forms : List SExpr) → (∀ e ∈ forms, ∀ name ∈ e.symbols, IsSymbol name) →
    (sep = [] → ∀ e ∈ forms, ∃ p items, e = list p items) →
    Reads (sep.intercalate (forms.map (·.text.toList))) (kindsIn forms) []
  | [], _, _ => Reads.nil []
  | [e], h, _ => by
    have he := reads_text e (h e List.mem_cons_self) delimited_nil
    simpa [kindsIn] using he
  | e :: e' :: es, h, hlists => by
    have htail := reads_separated hsep (e' :: es) (fun f hf => h f (List.mem_cons_of_mem _ hf))
      (fun hnil f hf => hlists hnil f (List.mem_cons_of_mem _ hf))
    have hhead : Reads e.text.toList e.kinds
        (sep ++ sep.intercalate ((e' :: es).map (·.text.toList)) ++ []) := by
      cases sep with
      | nil =>
        obtain ⟨p, items, rfl⟩ := hlists rfl e List.mem_cons_self
        exact reads_listText p items (h _ List.mem_cons_self)
      | cons c cs =>
        have hc := mem_separators_of_isBlank (hsep c List.mem_cons_self)
        exact reads_text e (h e List.mem_cons_self) (delimited_separator hc _)
    rw [List.map_cons, List.map_cons, List.intercalate_cons_cons, List.append_assoc, kindsIn]
    exact hhead.append ((reads_blanks hsep _).append htail)

/-! ### Printed and read again -/

theorem exists_ofText_separated {sep : String} (hsep : ∀ c ∈ sep.toList, isBlank c = true)
    {forms : List SExpr} (h : ∀ e ∈ forms, ∀ name ∈ e.symbols, IsSymbol name)
    (hlists : sep = "" → ∀ e ∈ forms, ∃ p items, e = list p items) :
    ∃ forms', ofText (sep.intercalate (forms.map text)) = .ok forms' ∧
      forms'.map bare = forms.map bare := by
  have hreads := reads_separated hsep forms h fun hnil => hlists (String.toList_eq_nil_iff.mp hnil)
  apply exists_ofText
  rwa [String.toList_intercalate, List.map_map]

theorem exists_ofText_text {e : SExpr} (h : ∀ name ∈ e.symbols, IsSymbol name) :
    ∃ e', ofText e.text = .ok [e'] ∧ e'.bare = e.bare := by
  have hsingle : ∀ f ∈ [e], ∀ name ∈ f.symbols, IsSymbol name := by simpa using h
  have hblank : ∀ c ∈ " ".toList, isBlank c = true := List.all_eq_true.mp (by decide)
  obtain ⟨forms, hforms, hbare⟩ := exists_ofText_separated hblank hsingle nofun
  obtain ⟨e', rfl, he'⟩ := List.map_eq_singleton_iff.mp hbare
  exact ⟨e', hforms, he'⟩

theorem map_text_of_map_bare {es fs : List SExpr} (h : es.map bare = fs.map bare) :
    es.map text = fs.map text := by
  have htexts := congrArg (List.map text) h
  simpa only [List.map_map, Function.comp_def, text_bare] using htexts

/-- From the text of a tree whose symbols are symbols on their own that tree is read, but for the
positions. Whatever is read from a text consists of such trees; their texts, separated by blanks, are
read as the same trees, and these have the same texts. -/
theorem texts_read_back :
    (∀ e : SExpr, (∀ name ∈ e.symbols, IsSymbol name) →
      ∃ e', ofText e.text = .ok [e'] ∧ e'.bare = e.bare) ∧
    ∀ (source : String) (forms : List SExpr), ofText source = .ok forms →
      (∀ e ∈ forms, ∀ name ∈ e.symbols, IsSymbol name) ∧
      ∀ sep : String, sep ≠ "" → (∀ c ∈ sep.toList, isBlank c = true) →
        ∃ forms', ofText (sep.intercalate (forms.map text)) = .ok forms' ∧
          forms'.map bare = forms.map bare ∧
          sep.intercalate (forms'.map text) = sep.intercalate (forms.map text) := by
  refine ⟨fun e he => exists_ofText_text he, fun source forms h => ?_⟩
  have hnames := isSymbol_of_ofText h
  refine ⟨hnames, fun sep hne hsep => ?_⟩
  obtain ⟨forms', hforms', hbare⟩ :=
    exists_ofText_separated hsep hnames fun hempty => absurd hempty hne
  exact ⟨forms', hforms', hbare, by rw [map_text_of_map_bare hbare]⟩

def signs : SExpr :=
  list .start [symbol .start "-", list .start [], number .start (-1 / 2), symbol .start "-x/2"]

/-- Of a decimal fraction the quotient is printed. -/
theorem signs_read_back :
    (∃ e', ofText "(- () -1/2 -x/2)" = .ok [e'] ∧ e'.bare = signs) ∧
    ∃ forms, ofText "(f-1 .5 -1.50) ; a comment\n2/4" = .ok forms ∧
      ∃ forms', ofText "(f-1 .5 -3/2)\n1/2" = .ok forms' ∧ forms'.map bare = forms.map bare := by
  constructor
  · have htext : signs.text = "(- () -1/2 -x/2)" := by decide +kernel
    obtain ⟨e', he', hbare⟩ := texts_read_back.1 signs (by decide +kernel)
    rw [htext] at he'
    exact ⟨e', he', hbare⟩
  · have htexts : (ofText "(f-1 .5 -1.50) ; a comment\n2/4").map (·.map text) =
        .ok ["(f-1 .5 -3/2)", "1/2"] := by decide +kernel
    cases hforms : ofText "(f-1 .5 -1.50) ; a comment\n2/4" with
    | error e => rw [hforms] at htexts; cases htexts
    | ok forms =>
      rw [hforms] at htexts
      have hprinted : forms.map text = ["(f-1 .5 -3/2)", "1/2"] := Except.ok.inj htexts
      obtain ⟨forms', hread, hbare, -⟩ :=
        (texts_read_back.2 _ forms hforms).2 "\n" (by decide) (List.all_eq_true.mp (by decide))
      rw [hprinted] at hread
      exact ⟨forms, rfl, forms', hread, hbare⟩

end SExpr
end LinearArith
