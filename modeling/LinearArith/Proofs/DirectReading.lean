import LinearArith.Problem
import LinearArith.Proofs.Interpretation
import LinearArith.SortedBy.Lookup
import Mathlib.Algebra.BigOperators.Group.List.Basic
import Mathlib.Tactic.Ring

/-! The direct reading of an expression: a term has a value and a formula is true or false at given
values of the names, with no regard to terms, propositions and declarations. Where an expression can
be read as a term or proposition, that has the value or truth of the expression. -/

namespace LinearArith

namespace Term

theorem sumValue_eq (ρ : Interpretation) (ts : List Term) :
    sumValue ρ ts = (ts.map (value ρ)).sum := by
  induction ts with
  | nil => rfl
  | cons t ts ih => rw [sumValue, ih, List.map_cons, List.sum_cons]

theorem productValue_eq (ρ : Interpretation) (ts : List Term) :
    productValue ρ ts = (ts.map (value ρ)).prod := by
  induction ts with
  | nil => rfl
  | cons t ts ih => rw [productValue, ih, List.map_cons, List.prod_cons]

theorem foldl_sub_eq (ρ : Interpretation) (ts : List Term) (q : Rat) :
    (ts.map (value ρ)).foldl (· - ·) q = q + sumValue ρ (ts.map neg) := by
  induction ts generalizing q with
  | nil => exact (add_zero q).symm
  | cons t ts ih =>
    rw [List.map_cons, List.foldl_cons, ih, List.map_cons, sumValue, value]
    ring

end Term

namespace Proposition

/-- A truth value or a comparison. -/
def isDefinite : Proposition → Bool
  | truth _ => true
  | compare .. => true
  | _ => false

theorem isDefinite_negate {p : Proposition} (h : p.isDefinite = true) :
    p.negate.isDefinite = true := by
  cases p with
  | truth b => rfl
  | compare c l r => rfl
  | typed v => cases h
  | unread text => cases h

theorem holds_negate_of_isDefinite {ρ : Interpretation} {p : Proposition}
    (h : p.isDefinite = true) : p.negate.Holds ρ ↔ ¬p.Holds ρ := by
  apply holds_negate
  intro text he
  have hneg := isDefinite_negate h
  rw [he] at hneg
  cases hneg

end Proposition

theorem applyOperator_cases {whole : SExpr} {head : String} {ts : List Term} {t : Term}
    (h : applyOperator whole head ts = .ok t) :
    (head = "+" ∧ t = .add ts) ∨ (head = "*" ∧ t = .mul ts) ∨
      (∃ u, head = "-" ∧ ts = [u] ∧ t = .neg u) ∨
      (∃ u w us, head = "-" ∧ ts = u :: w :: us ∧ t = .add (u :: (w :: us).map .neg)) ∨
      ∃ u w, head = "/" ∧ ts = [u, w] ∧ t = .div u w := by
  unfold applyOperator at h
  split at h
  next => exact Or.inl ⟨rfl, (Except.ok.inj h).symm⟩
  next => exact Or.inr (Or.inl ⟨rfl, (Except.ok.inj h).symm⟩)
  next u => exact Or.inr (Or.inr (Or.inl ⟨u, rfl, rfl, (Except.ok.inj h).symm⟩))
  next u us hne =>
    cases us with
    | nil => exact (hne rfl).elim
    | cons w us =>
      exact Or.inr (Or.inr (Or.inr (Or.inl ⟨u, w, us, rfl, rfl, (Except.ok.inj h).symm⟩)))
  next u w => exact Or.inr (Or.inr (Or.inr (Or.inr ⟨u, w, rfl, rfl, (Except.ok.inj h).symm⟩)))
  all_goals cases h

namespace SExpr

/-! ### Values and truth -/

/-- A sum, product, difference or quotient. One number is subtracted from 0, of several all others from
the first, and nothing is divided by 0. -/
def operatorValue? : String → List Rat → Option Rat
  | "+", qs => some qs.sum
  | "*", qs => some qs.prod
  | "-", [q] => some (-q)
  | "-", q :: qs => some (qs.foldl (· - ·) q)
  | "/", [p, q] => if q = 0 then none else some (p / q)
  | _, _ => none

def relationHolds? : String → Rat → Rat → Option Bool
  | "=", p, q => some (p = q)
  | "!=", p, q => some (p ≠ q)
  | "<", p, q => some (p < q)
  | "<=", p, q => some (p ≤ q)
  | ">", p, q => some (p > q)
  | ">=", p, q => some (p ≥ q)
  | _, _, _ => none

mutual

/-- The value of a term where each name `x` has the value `v x`. There is none where a divisor is 0. -/
def value? (v : String → Rat) : SExpr → Option Rat
  | number _ q => some q
  | symbol _ name => some (v name)
  | list _ (symbol _ head :: args) => (values? v args).bind (operatorValue? head)
  | list _ _ => none

def values? (v : String → Rat) : List SExpr → Option (List Rat)
  | [] => some []
  | e :: es => (e.value? v).bind fun q => (values? v es).map (q :: ·)

end

def truth? (v : String → Rat) : SExpr → Option Bool
  | symbol _ name =>
    if name = "true" then some true else if name = "false" then some false else none
  | list _ [symbol _ head, e] => if head = "not" then (e.truth? v).map (!·) else none
  | list _ [symbol _ head, l, r] =>
    (l.value? v).bind fun p => (r.value? v).bind fun q => relationHolds? head p q
  | _ => none

/-- A truth value, a relation between two expressions, or the negation of a formula. The two
expressions are terms in every text that is accepted. -/
def isFormula : SExpr → Bool
  | symbol _ name => name = "true" || name = "false"
  | list _ [symbol _ head, e] => head = "not" && e.isFormula
  | list _ [symbol _ head, _, _] => ["=", "!=", "<", "<=", ">", ">="].contains head
  | _ => false

mutual

/-- What stands after the first argument of `/`, at any depth. -/
def divisors : SExpr → List SExpr
  | list _ (symbol _ head :: args) => (if head = "/" then args.tail else []) ++ divisorsIn args
  | _ => []

def divisorsIn : List SExpr → List SExpr
  | [] => []
  | e :: es => e.divisors ++ divisorsIn es

end

theorem divisorsIn_eq (es : List SExpr) : divisorsIn es = es.flatMap divisors := by
  induction es with
  | nil => rfl
  | cons e es ih => rw [divisorsIn, ih, List.flatMap_cons]

theorem mem_divisors_of_mem {p p' : Position} {head : String} {args : List SExpr} {d e : SExpr}
    (he : e ∈ args) (hd : d ∈ e.divisors) : d ∈ (list p (symbol p' head :: args)).divisors := by
  have hargs : d ∈ divisorsIn args := by
    rw [divisorsIn_eq]
    exact List.mem_flatMap.mpr ⟨e, he, hd⟩
  exact List.mem_append_right _ hargs

/-! ### Terms -/

theorem operatorValue?_of_applyOperator (ρ : Interpretation) {whole : SExpr} {head : String}
    {ts : List Term} {t : Term} (h : applyOperator whole head ts = .ok t)
    (hne : head = "/" → ∀ u ∈ ts.tail, u.value ρ ≠ 0) :
    operatorValue? head (ts.map (·.value ρ)) = some (t.value ρ) := by
  rcases applyOperator_cases h with ⟨rfl, rfl⟩ | ⟨rfl, rfl⟩ | ⟨u, rfl, rfl, rfl⟩ |
    ⟨u, w, us, rfl, rfl, rfl⟩ | ⟨u, w, rfl, rfl, rfl⟩
  · rw [Term.value, Term.sumValue_eq]
    rfl
  · rw [Term.value, Term.productValue_eq]
    rfl
  · rfl
  · rw [Term.value, Term.sumValue, ← Term.foldl_sub_eq]
    rfl
  · have hw : w.value ρ ≠ 0 := hne rfl w (by simp)
    rw [Term.value, if_neg hw]
    exact if_neg hw

theorem values?_cons_eq_some {v : String → Rat} {e : SExpr} {es : List SExpr} {qs : List Rat}
    (h : values? v (e :: es) = some qs) :
    ∃ q rs, e.value? v = some q ∧ values? v es = some rs ∧ qs = q :: rs := by
  rw [values?] at h
  obtain ⟨q, hq, h⟩ := Option.bind_eq_some_iff.mp h
  obtain ⟨rs, hrs, rfl⟩ := Option.map_eq_some_iff.mp h
  exact ⟨q, rs, hq, hrs, rfl⟩

theorem exists_of_mem_values? {v : String → Rat} {es : List SExpr} {qs : List Rat}
    (h : values? v es = some qs) {q : Rat} (hq : q ∈ qs) : ∃ e ∈ es, e.value? v = some q := by
  induction es generalizing qs with
  | nil =>
    obtain rfl := Option.some.inj h
    cases hq
  | cons e es ih =>
    obtain ⟨p, rs, hp, hrs, rfl⟩ := values?_cons_eq_some h
    rcases List.mem_cons.mp hq with rfl | hq
    · exact ⟨e, by simp, hp⟩
    · obtain ⟨d, hd, hv⟩ := ih hrs hq
      exact ⟨d, by simp [hd], hv⟩

theorem values?_tail {v : String → Rat} {es : List SExpr} {qs : List Rat}
    (h : values? v es = some qs) : values? v es.tail = some qs.tail := by
  cases es with
  | nil =>
    obtain rfl := Option.some.inj h
    rfl
  | cons e es =>
    obtain ⟨q, rs, -, hrs, rfl⟩ := values?_cons_eq_some h
    exact hrs

mutual

/-- A term that is read has the value of the expression, if no divisor is 0. -/
theorem value?_of_toTerm {scope : Scope} (ρ : Interpretation) : (e : SExpr) → {t : Term} →
    e.toTerm scope = .ok t → (∀ d ∈ e.divisors, d.value? ρ.value ≠ some 0) →
    e.value? ρ.value = some (t.value ρ)
  | number _ q, t, h, _ => by
    rw [toTerm] at h
    rw [← Except.ok.inj h]
    rfl
  | symbol _ name, t, h, _ => by
    rw [toTerm] at h
    split at h
    next v hv =>
      have hname : v.name = name := (SortedBy.find?_eq_some_iff.mp hv).2
      rw [← Except.ok.inj h, value?, Term.value, hname]
    next => cases h
  | list p (symbol p' head :: args), t, h, hd => by
    rw [toTerm] at h
    obtain ⟨ts, hts, h⟩ := bind_eq_ok_iff.mp h
    have hargs : ∀ d ∈ divisorsIn args, d.value? ρ.value ≠ some 0 :=
      fun d hmem => hd d (List.mem_append_right _ hmem)
    have hvalues : values? ρ.value args = some (ts.map (·.value ρ)) :=
      values?_of_toTerms ρ args hts hargs
    rw [value?, hvalues, Option.bind_some]
    apply operatorValue?_of_applyOperator ρ h
    intro hhead u hu hz
    -- a divisor that is 0 comes from an expression that is 0
    have htail : u.value ρ ∈ (ts.map (·.value ρ)).tail := by
      rw [← List.map_tail]
      exact List.mem_map.mpr ⟨u, hu, rfl⟩
    obtain ⟨d, hmem, hv⟩ := exists_of_mem_values? (values?_tail hvalues) htail
    refine hd d (List.mem_append_left _ ?_) (hz ▸ hv)
    rwa [if_pos hhead]
  | list p [], t, h, _ => by
    rw [toTerm] at h
    cases h
    nofun
  | list p (number p' q :: args), t, h, _ => by
    rw [toTerm] at h
    cases h
    nofun
  | list p (list p' es :: args), t, h, _ => by
    rw [toTerm] at h
    cases h
    nofun

theorem values?_of_toTerms {scope : Scope} (ρ : Interpretation) : (es : List SExpr) →
    {ts : List Term} → toTerms scope es = .ok ts →
    (∀ d ∈ divisorsIn es, d.value? ρ.value ≠ some 0) →
    values? ρ.value es = some (ts.map (·.value ρ))
  | [], ts, h, _ => by
    rw [toTerms] at h
    rw [← Except.ok.inj h]
    rfl
  | e :: es, ts, h, hd => by
    rw [toTerms] at h
    obtain ⟨t, ht, h⟩ := bind_eq_ok_iff.mp h
    obtain ⟨us, hus, h⟩ := bind_eq_ok_iff.mp h
    rw [← Except.ok.inj h, values?,
      value?_of_toTerm ρ e ht fun d hmem => hd d (List.mem_append_left _ hmem),
      values?_of_toTerms ρ es hus fun d hmem => hd d (List.mem_append_right _ hmem)]
    rfl

end

/-! ### Propositions -/

theorem relationHolds?_of_ofText? {head : String} {c : Comparison}
    (h : Comparison.ofText? head = some c) (p q : Rat) :
    relationHolds? head p q = some (c.holds p q) := by
  unfold Comparison.ofText? at h
  split at h
  case h_7 => cases h
  all_goals
    obtain rfl := Option.some.inj h
    rfl

theorem exists_ofText?_of_mem {head : String}
    (h : ["=", "!=", "<", "<=", ">", ">="].contains head = true) :
    ∃ c, Comparison.ofText? head = some c := by
  simp only [List.contains_iff_mem, List.mem_cons, List.not_mem_nil, or_false] at h
  rcases h with rfl | rfl | rfl | rfl | rfl | rfl
  all_goals exact ⟨_, rfl⟩

theorem toProposition_relation {scope : Scope} {p p' : Position} {head : String} {c : Comparison}
    (hc : Comparison.ofText? head = some c) (l r : SExpr) :
    (list p [symbol p' head, l, r]).toProposition scope =
      (do
        let t ← l.toTerm scope
        let u ← r.toTerm scope
        return .compare c t u) := by
  -- the injectivity lets the equation of `toProposition` find its comparison
  simp only [toProposition, hc, Option.some.injEq]

theorem toProposition_relation_eq_ok {scope : Scope} {p p' : Position} {head : String} {l r : SExpr}
    {c : Comparison} {q : Proposition} (hc : Comparison.ofText? head = some c)
    (h : (list p [symbol p' head, l, r]).toProposition scope = .ok q) :
    ∃ t u, l.toTerm scope = .ok t ∧ r.toTerm scope = .ok u ∧ q = .compare c t u := by
  rw [toProposition_relation hc] at h
  obtain ⟨t, ht, h⟩ := bind_eq_ok_iff.mp h
  obtain ⟨u, hu, h⟩ := bind_eq_ok_iff.mp h
  exact ⟨t, u, ht, hu, (Except.ok.inj h).symm⟩

theorem toProposition_not_eq_ok {scope : Scope} {p p' : Position} {e : SExpr} {q : Proposition}
    (h : (list p [symbol p' "not", e]).toProposition scope = .ok q) :
    ∃ r, e.toProposition scope = .ok r ∧ q = r.negate := by
  rw [toProposition] at h
  obtain ⟨r, hr, h⟩ := bind_eq_ok_iff.mp h
  exact ⟨r, hr, (Except.ok.inj h).symm⟩

/-- What is read from a formula is a truth value or a comparison, and it is true exactly where the
formula is. -/
theorem holds_iff_of_toProposition {scope : Scope} (ρ : Interpretation) {e : SExpr}
    {q : Proposition} (he : e.isFormula = true) (h : e.toProposition scope = .ok q)
    (hd : ∀ d ∈ e.divisors, d.value? ρ.value ≠ some 0) :
    q.isDefinite = true ∧ ∃ b, e.truth? ρ.value = some b ∧ (q.Holds ρ ↔ b = true) := by
  fun_induction isFormula e generalizing q with
  | case1 p name =>
    simp only [Bool.or_eq_true, decide_eq_true_eq] at he
    rcases he with rfl | rfl
    all_goals
      rw [toProposition] at h
      obtain rfl := Except.ok.inj h
      exact ⟨rfl, _, rfl, Iff.rfl⟩
  | case2 p p' head e ih =>
    simp only [Bool.and_eq_true, decide_eq_true_eq] at he
    obtain ⟨rfl, he⟩ := he
    obtain ⟨r, hr, rfl⟩ := toProposition_not_eq_ok h
    have hdivisors : ∀ d ∈ e.divisors, d.value? ρ.value ≠ some 0 :=
      fun d hmem => hd d (mem_divisors_of_mem (by simp) hmem)
    obtain ⟨hdef, b, hb, hiff⟩ := ih he hr hdivisors
    refine ⟨Proposition.isDefinite_negate hdef, !b, ?_, ?_⟩
    · rw [truth?, if_pos rfl, hb, Option.map_some]
    · rw [Proposition.holds_negate_of_isDefinite hdef, hiff, Bool.not_eq_true, Bool.not_eq_true']
  | case3 p p' head l r =>
    obtain ⟨c, hc⟩ := exists_ofText?_of_mem he
    obtain ⟨t, u, ht, hu, rfl⟩ := toProposition_relation_eq_ok hc h
    have hl : l.value? ρ.value = some (t.value ρ) :=
      value?_of_toTerm ρ l ht fun d hmem => hd d (mem_divisors_of_mem (by simp) hmem)
    have hr : r.value? ρ.value = some (u.value ρ) :=
      value?_of_toTerm ρ r hu fun d hmem => hd d (mem_divisors_of_mem (by simp) hmem)
    refine ⟨rfl, c.holds (t.value ρ) (u.value ρ), ?_, Iff.rfl⟩
    rw [truth?, hl, hr]
    exact relationHolds?_of_ofText? hc _ _
  | case4 e => cases he

-- `(not (< (- 5 1 x) 2))` where `x` is 2
example :
    let p := Position.start
    let difference := list p [symbol p "-", number p 5, number p 1, symbol p "x"]
    let e := list p [symbol p "not", list p [symbol p "<", difference, number p 2]]
    e.isFormula = true ∧ e.truth? (fun _ => 2) = some true := by decide +kernel

end SExpr
end LinearArith
