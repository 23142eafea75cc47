import LinearArith.Proofs.DirectReading

/-! The names that an expression uses for variables. What a term or claim is read as depends on the
declarations of these names alone, it is read just if it is well formed and all of them are declared, and
each variable in it is the declared one. -/

namespace LinearArith

namespace Term

theorem occurrencesIn_map_neg (ts : List Term) :
    occurrencesIn (ts.map neg) = occurrencesIn ts := by
  induction ts with
  | nil => rfl
  | cons t ts ih => rw [List.map_cons, occurrencesIn, occurrencesIn, ih, occurrences]

end Term

namespace Proposition

def occurrences : Proposition → List Variable
  | compare _ l r => l.occurrences ++ r.occurrences
  | typed v => [v]
  | truth _ => []
  | unread _ => []

theorem mem_occurrences_of_negate {v : Variable} {q : Proposition} (h : v ∈ q.negate.occurrences) :
    v ∈ q.occurrences := by
  cases q with
  | truth b => exact h
  | compare c l r => exact h
  | unread text => exact h
  | typed w =>
    rw [negate] at h
    split at h
    · exact h
    · split at h
      · exact h
      · cases h

end Proposition

def operatorTakes : String → Nat → Bool
  | "+", _ => true
  | "*", _ => true
  | "-", n => n != 0
  | "/", n => n == 2
  | _, _ => false

theorem applyOperator_ok_iff {whole : SExpr} {head : String} {ts : List Term} :
    (∃ t, applyOperator whole head ts = .ok t) ↔ operatorTakes head ts.length = true := by
  constructor
  · rintro ⟨t, h⟩
    rcases applyOperator_cases h with ⟨rfl, -⟩ | ⟨rfl, -⟩ | ⟨u, rfl, rfl, -⟩ |
      ⟨u, w, us, rfl, rfl, -⟩ | ⟨u, w, rfl, rfl, -⟩
    all_goals rfl
  · intro h
    unfold operatorTakes at h
    split at h
    · exact ⟨_, rfl⟩
    · exact ⟨_, rfl⟩
    · match ts, h with
      | [u], _ => exact ⟨_, rfl⟩
      | u :: w :: us, _ => exact ⟨_, rfl⟩
    · match ts, h with
      | [u, w], _ => exact ⟨_, rfl⟩
    · cases h

theorem occurrences_of_applyOperator {whole : SExpr} {head : String} {ts : List Term} {t : Term}
    (h : applyOperator whole head ts = .ok t) : t.occurrences = Term.occurrencesIn ts := by
  rcases applyOperator_cases h with ⟨-, rfl⟩ | ⟨-, rfl⟩ | ⟨u, -, rfl, rfl⟩ |
    ⟨u, w, us, -, rfl, rfl⟩ | ⟨u, w, -, rfl, rfl⟩
  · rfl
  · rfl
  · exact (List.append_nil _).symm
  · rw [Term.occurrences, Term.occurrencesIn, Term.occurrencesIn_map_neg, ← Term.occurrencesIn]
  · rw [Term.occurrences, Term.occurrencesIn, Term.occurrencesIn, Term.occurrencesIn,
      List.append_nil]

namespace SExpr

/-! ### Terms -/

mutual

/-- A number, a name, or an operator with as many terms as it takes. -/
def isTerm : SExpr → Bool
  | number _ _ => true
  | symbol _ _ => true
  | list _ (symbol _ head :: args) => operatorTakes head args.length && areTerms args
  | list _ _ => false

def areTerms : List SExpr → Bool
  | [] => true
  | e :: es => e.isTerm && areTerms es

end

mutual

/-- The names in a term. What a list starts with is an operator. -/
def names : SExpr → List String
  | number _ _ => []
  | symbol _ name => [name]
  | list _ [] => []
  | list _ (_ :: args) => namesIn args

def namesIn : List SExpr → List String
  | [] => []
  | e :: es => e.names ++ namesIn es

end

variable {scope scope' : Scope}

theorem toTerms_cons_eq_ok {e : SExpr} {es : List SExpr} {ts : List Term} :
    toTerms scope (e :: es) = .ok ts ↔
      ∃ t us, e.toTerm scope = .ok t ∧ toTerms scope es = .ok us ∧ ts = t :: us := by
  rw [toTerms, bind_eq_ok_iff]
  refine exists_congr fun t => ?_
  rw [bind_eq_ok_iff, ← exists_and_left]
  refine exists_congr fun us => and_congr_right fun _ => and_congr_right fun _ => ?_
  exact ⟨fun h => (Except.ok.inj h).symm, fun h => congrArg Except.ok h.symm⟩

theorem length_of_toTerms {es : List SExpr} {ts : List Term} (h : toTerms scope es = .ok ts) :
    ts.length = es.length := by
  induction es generalizing ts with
  | nil =>
    obtain rfl := Except.ok.inj h
    rfl
  | cons e es ih =>
    obtain ⟨t, us, -, hus, rfl⟩ := toTerms_cons_eq_ok.mp h
    rw [List.length_cons, List.length_cons, ih hus]

mutual

theorem toTerm_congr : (e : SExpr) → (∀ x ∈ e.names, scope.find? x = scope'.find? x) →
    e.toTerm scope = e.toTerm scope'
  | number _ _, _ => by rw [toTerm, toTerm]
  | symbol _ name, h => by rw [toTerm, toTerm, h name (List.mem_singleton_self name)]
  | list _ (symbol _ _ :: args), h => by rw [toTerm, toTerm, toTerms_congr args h]
  | list _ [], _ => by rw [toTerm, toTerm]; all_goals nofun
  | list _ (number _ _ :: _), _ => by rw [toTerm, toTerm]; all_goals nofun
  | list _ (list _ _ :: _), _ => by rw [toTerm, toTerm]; all_goals nofun

theorem toTerms_congr : (es : List SExpr) → (∀ x ∈ namesIn es, scope.find? x = scope'.find? x) →
    toTerms scope es = toTerms scope' es
  | [], _ => by rw [toTerms, toTerms]
  | e :: es, h => by
    rw [toTerms, toTerms, toTerm_congr e fun x hx => h x (List.mem_append_left _ hx),
      toTerms_congr es fun x hx => h x (List.mem_append_right _ hx)]

end

mutual

theorem toTerm_ok_iff : (e : SExpr) → ((∃ t, e.toTerm scope = .ok t) ↔
    e.isTerm = true ∧ ∀ x ∈ e.names, scope.hasKey x = true)
  | number _ _ => by simp [toTerm, isTerm, names]
  | symbol _ name => by
    rw [toTerm, isTerm, names, List.forall_mem_singleton, SortedBy.hasKey]
    cases scope.find? name <;> simp
  | list p (symbol p' head :: args) => by
    -- whether an operator takes its arguments depends on their number alone
    have hterm : (∃ t, (list p (symbol p' head :: args)).toTerm scope = .ok t) ↔
        operatorTakes head args.length = true ∧ ∃ ts, toTerms scope args = .ok ts := by
      simp only [toTerm, bind_eq_ok_iff]
      constructor
      · rintro ⟨t, ts, hts, h⟩
        exact ⟨length_of_toTerms hts ▸ applyOperator_ok_iff.mp ⟨t, h⟩, ts, hts⟩
      · rintro ⟨htakes, ts, hts⟩
        obtain ⟨t, h⟩ := applyOperator_ok_iff.mpr (length_of_toTerms hts ▸ htakes)
        exact ⟨t, ts, hts, h⟩
    rw [hterm, toTerms_ok_iff args, isTerm, names, Bool.and_eq_true, and_assoc]
  | list _ [] => by simp [toTerm, isTerm]
  | list _ (number _ _ :: _) => by simp [toTerm, isTerm]
  | list _ (list _ _ :: _) => by simp [toTerm, isTerm]

theorem toTerms_ok_iff : (es : List SExpr) → ((∃ ts, toTerms scope es = .ok ts) ↔
    areTerms es = true ∧ ∀ x ∈ namesIn es, scope.hasKey x = true)
  | [] => by simp [toTerms, areTerms, namesIn]
  | e :: es => by
    have hcons : (∃ ts, toTerms scope (e :: es) = .ok ts) ↔
        (∃ t, e.toTerm scope = .ok t) ∧ ∃ us, toTerms scope es = .ok us := by
      simp only [toTerms_cons_eq_ok]
      constructor
      · rintro ⟨_, t, us, ht, hus, -⟩
        exact ⟨⟨t, ht⟩, us, hus⟩
      · rintro ⟨⟨t, ht⟩, us, hus⟩
        exact ⟨t :: us, t, us, ht, hus, rfl⟩
    rw [hcons, toTerm_ok_iff e, toTerms_ok_iff es, areTerms, namesIn, Bool.and_eq_true,
      List.forall_mem_append, and_and_and_comm]

end

mutual

theorem mem_scope_of_toTerm : (e : SExpr) → {t : Term} → e.toTerm scope = .ok t →
    ∀ v ∈ t.occurrences, v ∈ scope.toList
  | number _ _, t, h => by
    rw [toTerm] at h
    rw [← Except.ok.inj h]
    nofun
  | symbol _ name, t, h => by
    rw [toTerm] at h
    split at h
    next w hw =>
      rw [← Except.ok.inj h]
      intro v hv
      rw [List.mem_singleton.mp hv]
      exact (SortedBy.find?_eq_some_iff.mp hw).1
    next => cases h
  | list _ (symbol _ _ :: args), t, h => by
    rw [toTerm] at h
    obtain ⟨ts, hts, h⟩ := bind_eq_ok_iff.mp h
    rw [occurrences_of_applyOperator h]
    exact mem_scope_of_toTerms args hts
  | list _ [], t, h => by
    rw [toTerm] at h
    cases h
    nofun
  | list _ (number _ _ :: _), t, h => by
    rw [toTerm] at h
    cases h
    nofun
  | list _ (list _ _ :: _), t, h => by
    rw [toTerm] at h
    cases h
    nofun

theorem mem_scope_of_toTerms : (es : List SExpr) → {ts : List Term} → toTerms scope es = .ok ts →
    ∀ v ∈ Term.occurrencesIn ts, v ∈ scope.toList
  | [], ts, h => by
    rw [toTerms] at h
    rw [← Except.ok.inj h]
    nofun
  | e :: es, ts, h => by
    obtain ⟨t, us, ht, hus, rfl⟩ := toTerms_cons_eq_ok.mp h
    exact List.forall_mem_append.mpr ⟨mem_scope_of_toTerm e ht, mem_scope_of_toTerms es hus⟩

end

/-! ### Claims -/

def isRelation (head : String) : Bool := ["=", "!=", "<", "<=", ">", ">="].contains head

/-- A name, the negation of a claim, a relation between two terms, or any other application, of which
only the text is kept. -/
def isClaim : SExpr → Bool
  | symbol _ _ => true
  | list _ [symbol _ "not", e] => e.isClaim
  | list _ (symbol _ head :: args) =>
    if isRelation head then args.length == 2 && areTerms args else head != "not"
  | _ => false

def claimNames : SExpr → List String
  | list _ [symbol _ "not", e] => e.claimNames
  | list _ (symbol _ head :: args) => if isRelation head then namesIn args else []
  | _ => []

theorem isRelation_iff {head : String} :
    isRelation head = true ↔ (Comparison.ofText? head).isSome = true := by
  constructor
  · intro h
    obtain ⟨c, hc⟩ := exists_ofText?_of_mem h
    rw [hc]
    rfl
  · intro h
    unfold Comparison.ofText? at h
    split at h
    case h_7 => cases h
    all_goals rfl

theorem isRelation_of_ofText? {head : String} {c : Comparison} (h : Comparison.ofText? head = some c) :
    isRelation head = true := isRelation_iff.mpr (by rw [h]; rfl)

theorem isRelation_of_ofText?_eq_none {head : String} (h : Comparison.ofText? head = none) :
    isRelation head = false := by
  rw [← Bool.not_eq_true, isRelation_iff, h]
  exact Bool.false_ne_true

theorem toProposition_congr {e : SExpr}
    (h : ∀ x ∈ e.claimNames, scope.find? x = scope'.find? x) :
    e.toProposition scope = e.toProposition scope' := by
  fun_induction toProposition scope e with
  | case1 => rw [toProposition]
  | case2 => rw [toProposition]
  | case3 p name htrue hfalse => rw [toProposition] <;> assumption
  | case4 p p' e ih => rw [toProposition, ih h]
  | case5 p p' head c l r hc hnot =>
    rw [claimNames, if_pos (isRelation_of_ofText? hc), namesIn, namesIn, namesIn, List.append_nil,
      List.forall_mem_append] at h
    · rw [toProposition_relation hc, toTerm_congr l h.1, toTerm_congr r h.2]
    · exact hnot
  -- no name is looked up any more
  | case6 p p' head args hnot whole c hc hargs => simp_all [toProposition, whole]
  | case7 p p' args hnot whole hc => simp_all [toProposition, whole]
  | case8 p p' head args hnot whole hc hne => simp_all [toProposition, whole]
  | case9 => simp_all [toProposition]

theorem toProposition_ok_iff {e : SExpr} : (∃ q, e.toProposition scope = .ok q) ↔
    e.isClaim = true ∧ ∀ x ∈ e.claimNames, scope.hasKey x = true := by
  fun_induction toProposition scope e with
  | case1 => simp [isClaim, claimNames]
  | case2 => simp [isClaim, claimNames]
  | case3 p name htrue hfalse => simp [isClaim, claimNames]
  | case4 p p' e ih =>
    rw [isClaim, claimNames, ← ih]
    simp only [bind_eq_ok_iff]
    constructor
    · rintro ⟨_, q, hq, -⟩
      exact ⟨q, hq⟩
    · rintro ⟨q, hq⟩
      exact ⟨_, q, hq, rfl⟩
  | case5 p p' head c l r hc hnot =>
    have hterms : (∃ q, (do
          let t ← l.toTerm scope
          let u ← r.toTerm scope
          return Proposition.compare c t u) = Except.ok q) ↔
        (∃ t, l.toTerm scope = .ok t) ∧ ∃ u, r.toTerm scope = .ok u := by
      simp only [bind_eq_ok_iff]
      constructor
      · rintro ⟨_, t, ht, u, hu, -⟩
        exact ⟨⟨t, ht⟩, u, hu⟩
      · rintro ⟨⟨t, ht⟩, u, hu⟩
        exact ⟨_, t, ht, u, hu, rfl⟩
    rw [hterms, toTerm_ok_iff, toTerm_ok_iff, and_and_and_comm, ← List.forall_mem_append]
    simp [isClaim, claimNames, isRelation_of_ofText? hc, areTerms, namesIn]
  | case6 p p' head args hnot whole c hc hargs =>
    -- a relation of one or of three things is no claim
    have hlength : args.length ≠ 2 := by
      intro h2
      obtain ⟨l, r, rfl⟩ := List.length_eq_two.mp h2
      exact hargs l r rfl
    have hclaim : (list p (symbol p' head :: args)).isClaim = false := by
      rw [isClaim, if_pos (isRelation_of_ofText? hc)]
      · simp [hlength]
      · exact hnot
    simp [hclaim]
  | case7 p p' args hnot whole hc => simp_all [isClaim, isRelation]
  | case8 p p' head args hnot whole hc hne =>
    simp_all [isClaim, claimNames, isRelation_of_ofText?_eq_none]
  | case9 => simp_all [isClaim]

theorem mem_scope_of_toProposition {e : SExpr} {q : Proposition}
    (h : e.toProposition scope = .ok q) : ∀ v ∈ q.occurrences, v ∈ scope.toList := by
  fun_induction toProposition scope e generalizing q with
  | case4 p p' e ih =>
    obtain ⟨r, hr, h⟩ := bind_eq_ok_iff.mp h
    obtain rfl := Except.ok.inj h
    exact fun v hv => ih hr v (Proposition.mem_occurrences_of_negate hv)
  | case5 p p' head c l r hc hnot =>
    obtain ⟨t, ht, h⟩ := bind_eq_ok_iff.mp h
    obtain ⟨u, hu, h⟩ := bind_eq_ok_iff.mp h
    obtain rfl := Except.ok.inj h
    exact List.forall_mem_append.mpr ⟨mem_scope_of_toTerm l ht, mem_scope_of_toTerm r hu⟩
  | case1 | case2 | case3 | case8 =>
    obtain rfl := Except.ok.inj h
    nofun
  | case6 | case7 | case9 => cases h

/-- A claim that is read under some declarations is read alike under more. -/
theorem toProposition_of_subset (hsub : ∀ v ∈ scope.toList, v ∈ scope'.toList) {e : SExpr}
    {q : Proposition} (h : e.toProposition scope = .ok q) : e.toProposition scope' = .ok q := by
  rw [← h]
  symm
  apply toProposition_congr
  intro x hx
  obtain ⟨v, hv, rfl⟩ := SortedBy.hasKey_iff.mp ((toProposition_ok_iff.mp ⟨q, h⟩).2 x hx)
  rw [SortedBy.mem_iff_find?.mp hv, SortedBy.mem_iff_find?.mp (hsub v hv)]

end SExpr
end LinearArith
