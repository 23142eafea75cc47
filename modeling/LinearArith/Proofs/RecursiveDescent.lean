import LinearArith.SExpr

/-! Expressions read by recursive descent: the items of a list are read one by one, each with the lists in
it, until a parenthesis closes the list. On tokens with an end of file this comes to an end, with what the
reading that keeps the open lists has. -/

namespace LinearArith

/-- The error at a parenthesis that closes nothing. -/
def Token.unopened (t : Token) : Error :=
  .unexpectedToken TokenKind.leftParen.text
    (TokenKind.rightParen.text ++ " at line " ++ t.position.line.repr)

def Token.isFirst (t : Token) : Bool :=
  match t.kind with
  | .rightParen | .eof => false
  | .leftParen | .number _ | .symbol _ => true

namespace SExpr

def StartsExpression (tokens : List Token) : Prop := ∃ t ts, tokens = t :: ts ∧ t.isFirst = true

theorem startsExpression_cons_iff {t : Token} {ts : List Token} :
    StartsExpression (t :: ts) ↔ t.isFirst = true := by
  simp [StartsExpression]

mutual

/-- Reading one expression from tokens has a result and leaves tokens. The end of file is never passed. -/
inductive Descends : List Token → Except Error SExpr → List Token → Prop
  | number {t : Token} {ts : List Token} {q : Rat} (h : t.kind = .number q) :
      Descends (t :: ts) (.ok (number t.position q)) ts
  | symbol {t : Token} {ts : List Token} {name : String} (h : t.kind = .symbol name) :
      Descends (t :: ts) (.ok (symbol t.position name)) ts
  | list {t : Token} {ts rest : List Token} {items : Except Error (List SExpr)}
      (h : t.kind = .leftParen) (hitems : DescendsItems ts items rest) :
      Descends (t :: ts) (items.map (list t.position)) rest
  | unbalanced {t : Token} {ts : List Token} (h : t.kind = .rightParen) :
      Descends (t :: ts) (.error (.syntaxError t.position "Unbalanced `)`")) ts
  | atEnd {t : Token} {ts : List Token} (h : t.kind = .eof) :
      Descends (t :: ts) (.error .unexpectedEof) (t :: ts)

inductive DescendsItems : List Token → Except Error (List SExpr) → List Token → Prop
  | close {t : Token} {ts : List Token} (h : t.kind = .rightParen) :
      DescendsItems (t :: ts) (.ok []) ts
  | unclosed {t : Token} {ts : List Token} (h : t.kind = .eof) :
      DescendsItems (t :: ts) (.error .unexpectedEof) (t :: ts)
  | item {tokens later rest : List Token} {e : SExpr} {items : Except Error (List SExpr)}
      (h : StartsExpression tokens) (hitem : Descends tokens (.ok e) later)
      (hitems : DescendsItems later items rest) : DescendsItems tokens (items.map (e :: ·)) rest
  | fails {tokens rest : List Token} {err : Error} (h : StartsExpression tokens)
      (hitem : Descends tokens (.error err) rest) : DescendsItems tokens (.error err) rest

end

inductive DescendsAll : List Token → Except Error (List SExpr) → List Token → Prop
  | done {t : Token} {ts : List Token} (h : t.kind = .eof) : DescendsAll (t :: ts) (.ok []) (t :: ts)
  | unopened {t : Token} {ts : List Token} (h : t.kind = .rightParen) :
      DescendsAll (t :: ts) (.error t.unopened) (t :: ts)
  | form {tokens later rest : List Token} {e : SExpr} {forms : Except Error (List SExpr)}
      (h : StartsExpression tokens) (hform : Descends tokens (.ok e) later)
      (hforms : DescendsAll later forms rest) : DescendsAll tokens (forms.map (e :: ·)) rest
  | fails {tokens rest : List Token} {err : Error} (h : StartsExpression tokens)
      (hform : Descends tokens (.error err) rest) : DescendsAll tokens (.error err) rest

/-! ### What a descent finds -/

def Unfinished.resume (u : Unfinished) :
    Except Error SExpr → List Token → Except Error (List SExpr) × List Token
  | .ok e, rest => readFrom (u.push e) rest
  | .error err, rest => (.error err, rest)

mutual

theorem readFrom_of_descends {tokens rest : List Token} {result : Except Error SExpr}
    (hstarts : StartsExpression tokens) (u : Unfinished) :
    Descends tokens result rest → readFrom u tokens = u.resume result rest
  | .number h | .symbol h => by simp [readFrom, h, Unfinished.resume]
  | .list (t := t) h hitems => by
    have hread := readFrom_of_descendsItems ⟨t.position, []⟩ u.opened u.finished hitems
    simpa [readFrom, h, Unfinished.enter] using hread
  | .unbalanced h | .atEnd h => by
    simp [startsExpression_cons_iff, Token.isFirst, h] at hstarts

/-- The items of a list that has been opened join those that it has. -/
theorem readFrom_of_descendsItems {tokens rest : List Token} {result : Except Error (List SExpr)}
    (o : Open) (os : List Open) (finished : List SExpr) : DescendsItems tokens result rest →
    readFrom ⟨o :: os, finished⟩ tokens = Unfinished.resume ⟨os, finished⟩
      (result.map fun items => list o.position (o.items.reverse ++ items)) rest
  | .close h | .unclosed h => by simp [readFrom, h, Unfinished.resume, Except.map]
  | @DescendsItems.item _ _ _ e items hstarts hitem hitems => by
    rw [readFrom_of_descends hstarts _ hitem]
    have hread := readFrom_of_descendsItems ⟨o.position, e :: o.items⟩ os finished hitems
    cases items <;> simpa [Unfinished.resume, Unfinished.push, Except.map] using hread
  | .fails hstarts hitem => readFrom_of_descends hstarts _ hitem

end

theorem readFrom_of_descendsAll {tokens rest : List Token} {result : Except Error (List SExpr)}
    (finished : List SExpr) (h : DescendsAll tokens result rest) :
    readFrom ⟨[], finished⟩ tokens = (result.map (finished.reverse ++ ·), rest) := by
  induction h generalizing finished with
  | done h => simp [readFrom, h, Except.map]
  | unopened h => simp [readFrom, h, Except.map, Token.unopened]
  | @form _ _ _ e forms hstarts hform _ ih =>
    rw [readFrom_of_descends hstarts _ hform, Unfinished.resume, Unfinished.push, ih]
    cases forms <;> simp [Except.map]
  | fails hstarts hform => exact readFrom_of_descends hstarts _ hform

/-! ### A descent comes to an end -/

def HasEnd (tokens : List Token) : Prop := ∃ t ∈ tokens, t.kind = .eof

theorem hasEnd_cons_iff {t : Token} {ts : List Token} (h : t.kind ≠ .eof) :
    HasEnd (t :: ts) ↔ HasEnd ts := by
  simp [HasEnd, h]

mutual

theorem Descends.left {tokens rest : List Token} {result : Except Error SExpr}
    (hstarts : StartsExpression tokens) (hend : HasEnd tokens) :
    Descends tokens result rest → rest.length < tokens.length ∧ HasEnd rest
  | .number h | .symbol h | .unbalanced h =>
    ⟨Nat.lt_succ_self _, (hasEnd_cons_iff (by simp [h])).mp hend⟩
  | .list h hitems => by
    obtain ⟨hle, hrest⟩ := hitems.left ((hasEnd_cons_iff (by simp [h])).mp hend)
    exact ⟨Nat.lt_succ_of_le hle, hrest⟩
  | .atEnd h => by simp [startsExpression_cons_iff, Token.isFirst, h] at hstarts

theorem DescendsItems.left {tokens rest : List Token} {result : Except Error (List SExpr)}
    (hend : HasEnd tokens) :
    DescendsItems tokens result rest → rest.length ≤ tokens.length ∧ HasEnd rest
  | .close h => ⟨Nat.le_succ _, (hasEnd_cons_iff (by simp [h])).mp hend⟩
  | .unclosed h => ⟨Nat.le_refl _, hend⟩
  | .item hstarts hitem hitems => by
    obtain ⟨hlt, hlater⟩ := hitem.left hstarts hend
    obtain ⟨hle, hrest⟩ := hitems.left hlater
    exact ⟨Nat.le_of_lt (Nat.lt_of_le_of_lt hle hlt), hrest⟩
  | .fails hstarts hitem => by
    obtain ⟨hlt, hrest⟩ := hitem.left hstarts hend
    exact ⟨Nat.le_of_lt hlt, hrest⟩

end

theorem startsExpression_cases {tokens : List Token} (hend : HasEnd tokens) :
    StartsExpression tokens ∨ (∃ t ts, tokens = t :: ts ∧ t.kind = .rightParen) ∨
      ∃ t ts, tokens = t :: ts ∧ t.kind = .eof := by
  obtain ⟨t, ts, rfl⟩ : ∃ t ts, tokens = t :: ts := by
    obtain ⟨t, ht, -⟩ := hend
    exact List.exists_cons_of_ne_nil (List.ne_nil_of_mem ht)
  cases hkind : t.kind with
  | rightParen => exact Or.inr (Or.inl ⟨t, ts, rfl, hkind⟩)
  | eof => exact Or.inr (Or.inr ⟨t, ts, rfl, hkind⟩)
  | leftParen | number | symbol => exact Or.inl ⟨t, ts, rfl, by simp [Token.isFirst, hkind]⟩

mutual

theorem exists_descends (tokens : List Token) (hstarts : StartsExpression tokens)
    (hend : HasEnd tokens) : ∃ result rest, Descends tokens result rest := by
  obtain ⟨t, ts, rfl, hfirst⟩ := hstarts
  cases hkind : t.kind with
  | leftParen =>
    obtain ⟨items, rest, hitems⟩ :=
      exists_descendsItems ts ((hasEnd_cons_iff (by simp [hkind])).mp hend)
    exact ⟨_, rest, .list hkind hitems⟩
  | number q => exact ⟨_, ts, .number hkind⟩
  | symbol name => exact ⟨_, ts, .symbol hkind⟩
  | rightParen => exact ⟨_, ts, .unbalanced hkind⟩
  | eof => exact ⟨_, t :: ts, .atEnd hkind⟩
termination_by (tokens.length, 0)

theorem exists_descendsItems (tokens : List Token) (hend : HasEnd tokens) :
    ∃ result rest, DescendsItems tokens result rest := by
  rcases startsExpression_cases hend with hstarts | ⟨t, ts, rfl, hkind⟩ | ⟨t, ts, rfl, hkind⟩
  · obtain ⟨result, later, hitem⟩ := exists_descends tokens hstarts hend
    cases result with
    | error err => exact ⟨_, later, .fails hstarts hitem⟩
    | ok e =>
      obtain ⟨hshorter, hlater⟩ := hitem.left hstarts hend
      obtain ⟨items, rest, hitems⟩ := exists_descendsItems later hlater
      exact ⟨_, rest, .item hstarts hitem hitems⟩
  · exact ⟨_, ts, .close hkind⟩
  · exact ⟨_, t :: ts, .unclosed hkind⟩
termination_by (tokens.length, 1)

end

theorem exists_descendsAll (tokens : List Token) (hend : HasEnd tokens) :
    ∃ result rest, DescendsAll tokens result rest := by
  rcases startsExpression_cases hend with hstarts | ⟨t, ts, rfl, hkind⟩ | ⟨t, ts, rfl, hkind⟩
  · obtain ⟨result, later, hform⟩ := exists_descends tokens hstarts hend
    cases result with
    | error err => exact ⟨_, later, .fails hstarts hform⟩
    | ok e =>
      obtain ⟨hshorter, hlater⟩ := hform.left hstarts hend
      obtain ⟨forms, rest, hforms⟩ := exists_descendsAll later hlater
      exact ⟨_, rest, .form hstarts hform hforms⟩
  · exact ⟨_, t :: ts, .unopened hkind⟩
  · exact ⟨_, t :: ts, .done hkind⟩
termination_by tokens.length

/-- Reading by recursive descent and reading with the open lists are the same. -/
theorem descendsAll_iff {tokens rest : List Token} {result : Except Error (List SExpr)}
    (hend : HasEnd tokens) : DescendsAll tokens result rest ↔ readAll tokens = (result, rest) := by
  have hread : ∀ {result rest}, DescendsAll tokens result rest → readAll tokens = (result, rest) := by
    intro result rest h
    rw [readAll, readFrom_of_descendsAll [] h]
    cases result <;> rfl
  refine ⟨hread, fun h => ?_⟩
  obtain ⟨result', rest', h'⟩ := exists_descendsAll tokens hend
  obtain ⟨rfl, rfl⟩ := Prod.mk.inj ((hread h').symm.trans h)
  exact h'

/-! ### Where the expressions stand -/

mutual

/-- The positions of the expression and of all in it, in the order of their first tokens. -/
def positions : SExpr → List Position
  | number p _ => [p]
  | symbol p _ => [p]
  | list p items => p :: positionsIn items

def positionsIn : List SExpr → List Position
  | [] => []
  | e :: es => e.positions ++ positionsIn es

end

def firstPositions (tokens : List Token) : List Position :=
  (tokens.filter (·.isFirst)).map (·.position)

theorem firstPositions_cons (t : Token) (ts : List Token) :
    firstPositions (t :: ts) = (if t.isFirst then [t.position] else []) ++ firstPositions ts := by
  cases h : t.isFirst <;> simp [firstPositions, h]

mutual

theorem Descends.firstPositions_eq {tokens rest : List Token} {result : Except Error SExpr} :
    Descends tokens result rest → ∀ e, result = .ok e →
      firstPositions tokens = e.positions ++ firstPositions rest
  | .number h | .symbol h => by
    intro e hresult
    obtain rfl := Except.ok.inj hresult
    rw [firstPositions_cons]
    simp [Token.isFirst, h, positions]
  | .list h hitems => by
    intro e hresult
    obtain ⟨es, hes, rfl⟩ := map_eq_ok_iff.mp hresult
    rw [firstPositions_cons, hitems.firstPositions_eq es hes]
    simp [Token.isFirst, h, positions]
  | .unbalanced h | .atEnd h => nofun

theorem DescendsItems.firstPositions_eq {tokens rest : List Token}
    {result : Except Error (List SExpr)} :
    DescendsItems tokens result rest → ∀ items, result = .ok items →
      firstPositions tokens = positionsIn items ++ firstPositions rest
  | .close h => by
    intro items hresult
    obtain rfl := Except.ok.inj hresult
    rw [firstPositions_cons]
    simp [Token.isFirst, h, positionsIn]
  | .item hstarts hitem hitems => by
    intro items hresult
    obtain ⟨es, hes, rfl⟩ := map_eq_ok_iff.mp hresult
    rw [hitem.firstPositions_eq _ rfl, hitems.firstPositions_eq es hes, positionsIn,
      List.append_assoc]
  | .unclosed h => nofun
  | .fails hstarts hitem => nofun

end

theorem DescendsAll.firstPositions_eq {tokens rest : List Token}
    {result : Except Error (List SExpr)} (h : DescendsAll tokens result rest) :
    ∀ forms, result = .ok forms →
      firstPositions tokens = positionsIn forms ++ firstPositions rest := by
  induction h with
  | done h =>
    intro forms hresult
    obtain rfl := Except.ok.inj hresult
    rfl
  | unopened | fails =>
    intro forms hresult
    cases hresult
  | form _ hform _ ih =>
    intro forms hresult
    obtain ⟨es, hes, rfl⟩ := map_eq_ok_iff.mp hresult
    rw [hform.firstPositions_eq _ rfl, ih es hes, positionsIn, List.append_assoc]

end SExpr
end LinearArith
