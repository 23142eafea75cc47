import LinearArith.Proofs.DirectReading

/-! A problem text read form by form: what each form adds to the problem, and that each hypothesis and
the goal say what their forms say. -/

namespace LinearArith

namespace SExpr

def hypothesis? : SExpr → Option (String × SExpr)
  | list _ [symbol _ "hyp", claim] => some ("", claim)
  | list _ [symbol _ "hyp", symbol _ name, claim] => some (name, claim)
  | _ => none

def goal? : SExpr → Option SExpr
  | list _ [symbol _ "goal", goal] => some goal
  | _ => none

def declaration? : SExpr → Option Variable
  | list _ (symbol _ "var" :: args) =>
    (Problem.declarationParts? args).bind fun (name, _, domain, sign) =>
      (Domain.ofText? domain).map fun d => ⟨name, d, sign⟩
  | _ => none

theorem eq_of_application? {e : SExpr} {head : String} {args : List SExpr}
    (h : e.application? = some (head, args)) : ∃ p p', e = list p (symbol p' head :: args) := by
  unfold application? at h
  split at h
  next p p' _ _ =>
    cases h
    exact ⟨p, p', rfl⟩
  next => cases h

end SExpr

namespace Proposition

/-- If the expression is a formula, the proposition is true exactly where it is, whatever values the
names have under which no divisor is 0. -/
def Renders (e : SExpr) (q : Proposition) : Prop :=
  e.isFormula = true → ∀ ρ : Interpretation, (∀ d ∈ e.divisors, d.value? ρ.value ≠ some 0) →
    ∃ b, e.truth? ρ.value = some b ∧ (q.Holds ρ ↔ b = true)

theorem renders_of_toProposition {scope : Scope} {e : SExpr} {q : Proposition}
    (h : e.toProposition scope = .ok q) : q.Renders e :=
  fun he ρ hd => (SExpr.holds_iff_of_toProposition ρ he h hd).2

end Proposition

namespace Problem

/-- What an accepted form makes of a problem. -/
inductive Reads (pr : Problem) : SExpr → Problem → Prop
  | declaration {p p' : Position} {args : List SExpr} {name domain : String} {place : SExpr}
      {d : Domain} {sign : Sign} (hparts : declarationParts? args = some (name, place, domain, sign))
      (hdomain : Domain.ofText? domain = some d) (hnew : pr.state.scope.hasKey name = false) :
      Reads pr (.list p (.symbol p' "var" :: args))
        { pr with state := { pr.state with scope := pr.state.scope.insert ⟨name, d, sign⟩ } }
  | hypothesis {p p' : Position} {claim : SExpr} {q : Proposition}
      (hclaim : claim.toProposition pr.state.scope = .ok q) :
      Reads pr (.list p [.symbol p' "hyp", claim]) { pr with state := pr.state.assume "" q }
  | namedHypothesis {p p' p'' : Position} {name : String} {claim : SExpr} {q : Proposition}
      (hclaim : claim.toProposition pr.state.scope = .ok q) :
      Reads pr (.list p [.symbol p' "hyp", .symbol p'' name, claim])
        { pr with state := pr.state.assume name q }
  | goal {p p' : Position} {goal : SExpr} {q : Proposition} (hfirst : pr.hasGoal = false)
      (hgoal : goal.toProposition pr.state.scope = .ok q) :
      Reads pr (.list p [.symbol p' "goal", goal]) ⟨pr.state.setGoal q, true⟩

theorem declare_eq_ok {form : SExpr} {args : List SExpr} {pr pr' : Problem}
    (h : pr.declare form args = .ok pr') :
    ∃ name place domain sign d, declarationParts? args = some (name, place, domain, sign) ∧
      Domain.ofText? domain = some d ∧ pr.state.scope.hasKey name = false ∧
      pr' = { pr with state := { pr.state with scope := pr.state.scope.insert ⟨name, d, sign⟩ } } := by
  unfold declare at h
  split at h
  case h_1 => cases h
  case h_2 name place domain sign hparts =>
    split at h
    case h_1 => cases h
    case h_2 d hdomain =>
      obtain ⟨state, hstate, h⟩ := bind_eq_ok_iff.mp h
      rw [ProofState.declare] at hstate
      split at hstate
      case isTrue => cases hstate
      case isFalse hnew =>
        obtain rfl := Except.ok.inj hstate
        exact ⟨name, place, domain, sign, d, hparts, hdomain, Bool.eq_false_iff.mpr hnew,
          (Except.ok.inj h).symm⟩

theorem assume_eq_ok {name : String} {claim : SExpr} {pr pr' : Problem}
    (h : pr.assume name claim = .ok pr') :
    ∃ q, claim.toProposition pr.state.scope = .ok q ∧
      pr' = { pr with state := pr.state.assume name q } := by
  obtain ⟨q, hq, h⟩ := bind_eq_ok_iff.mp h
  exact ⟨q, hq, (Except.ok.inj h).symm⟩

theorem setGoal_eq_ok {goal : SExpr} {pr pr' : Problem} (h : pr.setGoal goal = .ok pr') :
    ∃ q, pr.hasGoal = false ∧ goal.toProposition pr.state.scope = .ok q ∧
      pr' = ⟨pr.state.setGoal q, true⟩ := by
  rw [setGoal] at h
  cases hfirst : pr.hasGoal with
  | true =>
    rw [hfirst] at h
    cases h
  | false =>
    rw [hfirst] at h
    obtain ⟨q, hq, h⟩ := bind_eq_ok_iff.mp h
    exact ⟨q, rfl, hq, (Except.ok.inj h).symm⟩

theorem reads_of_addForm {pr pr' : Problem} {form : SExpr} (h : pr.addForm form = .ok pr') :
    Reads pr form pr' := by
  unfold addForm at h
  split at h
  next args hform =>
    obtain ⟨p, p', rfl⟩ := SExpr.eq_of_application? hform
    obtain ⟨name, place, domain, sign, d, hparts, hdomain, hnew, rfl⟩ := declare_eq_ok h
    exact .declaration hparts hdomain hnew
  next claim hform =>
    obtain ⟨p, p', rfl⟩ := SExpr.eq_of_application? hform
    obtain ⟨q, hq, rfl⟩ := assume_eq_ok h
    exact .hypothesis hq
  next p'' name claim hform =>
    obtain ⟨p, p', rfl⟩ := SExpr.eq_of_application? hform
    obtain ⟨q, hq, rfl⟩ := assume_eq_ok h
    exact .namedHypothesis hq
  next => cases h
  next goal hform =>
    obtain ⟨p, p', rfl⟩ := SExpr.eq_of_application? hform
    obtain ⟨q, hfirst, hq, rfl⟩ := setGoal_eq_ok h
    exact .goal hfirst hq
  all_goals cases h

theorem addForm_of_declaration? {pr : Problem} {form : SExpr} {v : Variable}
    (h : form.declaration? = some v) (hnew : pr.state.scope.hasKey v.name = false) :
    pr.addForm form =
      .ok { pr with state := { pr.state with scope := pr.state.scope.insert v } } := by
  unfold SExpr.declaration? at h
  split at h
  next p p' args =>
    obtain ⟨⟨name, place, domain, sign⟩, hparts, h⟩ := Option.bind_eq_some_iff.mp h
    obtain ⟨d, hdomain, rfl⟩ := Option.map_eq_some_iff.mp h
    simp only [addForm, SExpr.application?, declare, hparts, hdomain, ProofState.declare, hnew]
    rfl
  next => cases h

theorem addForm_of_hypothesis? {pr : Problem} {form : SExpr} {name : String} {claim : SExpr}
    (h : form.hypothesis? = some (name, claim)) : pr.addForm form = pr.assume name claim := by
  unfold SExpr.hypothesis? at h
  split at h
  next => cases h; rfl
  next => cases h; rfl
  next => cases h

theorem addForm_of_goal? {pr : Problem} {form goal : SExpr} (h : form.goal? = some goal) :
    pr.addForm form = pr.setGoal goal := by
  unfold SExpr.goal? at h
  split at h
  next => cases h; rfl
  next => cases h

/-- What holds before the forms are read and is preserved by each accepted form holds afterwards;
`seen` are the forms before. -/
theorem foldlM_addForm {I : List SExpr → Problem → Prop}
    (step : ∀ {seen pr form pr'}, I seen pr → Reads pr form pr' → I (seen ++ [form]) pr')
    {forms seen : List SExpr} {pr pr' : Problem} (hI : I seen pr)
    (h : forms.foldlM addForm pr = .ok pr') : I (seen ++ forms) pr' := by
  induction forms generalizing seen pr with
  | nil =>
    obtain rfl := Except.ok.inj h
    rwa [List.append_nil]
  | cons form forms ih =>
    rw [List.foldlM_cons] at h
    obtain ⟨pr₁, hform, h⟩ := bind_eq_ok_iff.mp h
    rw [List.append_cons]
    exact ih (step hI (reads_of_addForm hform)) h

/-- The goal, once a form has given one. -/
def givenGoals (pr : Problem) : List Proposition := if pr.hasGoal then [pr.state.goal] else []

structure Renders (forms : List SExpr) (pr : Problem) : Prop where
  hypotheses : List.Forall₂ (fun f h => h.claim.Renders f.2) (forms.filterMap SExpr.hypothesis?)
    pr.state.hypotheses
  goals : List.Forall₂ Proposition.Renders (forms.filterMap SExpr.goal?) pr.givenGoals

theorem Renders.goal {forms : List SExpr} {pr : Problem} (h : pr.Renders forms) {e : SExpr}
    (he : e ∈ forms.filterMap SExpr.goal?) : pr.state.goal.Renders e := by
  have hgoals := h.goals
  rw [givenGoals] at hgoals
  split at hgoals
  case isTrue =>
    obtain ⟨e', es, hrenders, hes, hforms⟩ := List.forall₂_cons_right_iff.mp hgoals
    rw [hforms, List.forall₂_nil_right_iff.mp hes, List.mem_singleton] at he
    exact he ▸ hrenders
  case isFalse =>
    rw [List.forall₂_nil_right_iff.mp hgoals] at he
    cases he

theorem Renders.step {seen : List SExpr} {pr pr' : Problem} {form : SExpr} (h : pr.Renders seen)
    (hform : Reads pr form pr') : pr'.Renders (seen ++ [form]) := by
  cases hform with
  | declaration hparts hdomain hnew =>
    constructor
    · simpa [SExpr.hypothesis?] using h.hypotheses
    · simpa [SExpr.goal?, givenGoals] using h.goals
  | hypothesis hclaim | namedHypothesis hclaim =>
    constructor
    · rw [List.filterMap_append]
      exact List.rel_append h.hypotheses (.cons (Proposition.renders_of_toProposition hclaim) .nil)
    · simpa [SExpr.goal?, givenGoals, ProofState.assume] using h.goals
  | goal hfirst hgoal =>
    constructor
    · simpa [SExpr.hypothesis?, ProofState.setGoal] using h.hypotheses
    · -- no form before has given a goal, so this is the only one
      have hnone := h.goals
      rw [givenGoals, hfirst, if_neg Bool.false_ne_true] at hnone
      rw [List.filterMap_append]
      exact List.rel_append hnone (.cons (Proposition.renders_of_toProposition hgoal) .nil)

theorem renders_of_ofForms {forms : List SExpr} {pr : Problem} (h : ofForms forms = .ok pr) :
    pr.Renders forms := by
  have hstart : start.Renders [] := ⟨.nil, .nil⟩
  exact foldlM_addForm Renders.step hstart h

end Problem

namespace ProofState

/-- A text that is read is a sequence of forms, and each hypothesis and the goal of the proof state
say what their forms say. -/
theorem renders_of_ofText {text : String} {s : ProofState} (h : ofText text = .ok s) :
    ∃ tokens forms, (Scanner.ofText text).scan.1 = .ok tokens ∧
      (SExpr.readAll tokens).1 = .ok forms ∧
      List.Forall₂ (fun f h => h.claim.Renders f.2) (forms.filterMap SExpr.hypothesis?)
        s.hypotheses ∧
      ∀ e ∈ forms.filterMap SExpr.goal?, s.goal.Renders e := by
  obtain ⟨tokens, htokens, h⟩ := bind_eq_ok_iff.mp h
  obtain ⟨forms, hforms, h⟩ := bind_eq_ok_iff.mp h
  obtain ⟨pr, hpr, h⟩ := bind_eq_ok_iff.mp h
  obtain rfl := Except.ok.inj h
  have hrenders : pr.Renders forms := Problem.renders_of_ofForms hpr
  exact ⟨tokens, forms, htokens, hforms, hrenders.hypotheses, fun e he => hrenders.goal he⟩

/-- Two negations one inside the other, a difference of three terms, a quotient and an empty sum. -/
theorem renders_of_nested_negation :
    ∃ s, ofText "(var x real) (hyp (not (not (<= (- x 1 (/ x 2)) (+))))) (goal false)" = .ok s ∧
      s.hypotheses = [⟨"h1", .compare .le (.add [.var ⟨"x", .real, .unknown⟩, .neg (.const 1),
        .neg (.div (.var ⟨"x", .real, .unknown⟩) (.const 2))]) (.add [])⟩] ∧
      ∃ tokens forms,
        (Scanner.ofText "(var x real) (hyp (not (not (<= (- x 1 (/ x 2)) (+))))) (goal false)").scan.1 =
          .ok tokens ∧
        (SExpr.readAll tokens).1 = .ok forms ∧
        List.Forall₂ (fun f h => h.claim.Renders f.2) (forms.filterMap SExpr.hypothesis?)
          s.hypotheses ∧
        ∀ e ∈ forms.filterMap SExpr.goal?, s.goal.Renders e := by
  have h : ofText "(var x real) (hyp (not (not (<= (- x 1 (/ x 2)) (+))))) (goal false)" =
      .ok ⟨SortedBy.empty.insert ⟨"x", .real, .unknown⟩,
        [⟨"h1", .compare .le (.add [.var ⟨"x", .real, .unknown⟩, .neg (.const 1),
          .neg (.div (.var ⟨"x", .real, .unknown⟩) (.const 2))]) (.add [])⟩],
        .truth false⟩ := by decide +kernel
  exact ⟨_, h, rfl, renders_of_ofText h⟩

end ProofState
end LinearArith
