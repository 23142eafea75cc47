import LinearArith.Proofs.NameIndependence
import Mathlib.Data.List.Induction
import Mathlib.Data.String.Basic
import Mathlib.Order.Compare

/-! Sessions: one proof state that is changed step by step, where some steps fail. What a state has
after a session is told by the steps alone. Its two listings of facts differ in the declarations of
vectors, not in what is assumed of them, and come to the same search. -/

namespace LinearArith

theorem filterMap_concat {α β : Type} (f : α → Option β) (l : List α) (a : α) :
    (l ++ [a]).filterMap f = l.filterMap f ++ (f a).toList := List.filterMap_append

/-- The name of the hypothesis at the place `k`, counted from 0. -/
def Hypothesis.nameAt (k : Nat) (name : String) : String :=
  if name = "" then "h" ++ (k + 1).repr else name

def Proposition.isVectorFact : Proposition → Bool
  | typed v => v.domain = .vector
  | _ => false

namespace Variable

theorem bound?_of_not_isReal {v : Variable} (h : v.isReal = false) : v.bound? = none := by
  simp [bound?, h]

theorem filterMap_bound?_filter_isReal (vs : List Variable) :
    (vs.filter isReal).filterMap bound? = vs.filterMap bound? := by
  rw [List.filterMap_filter]
  congr 1
  funext v
  by_cases h : v.isReal = true
  · rw [if_pos h]
  · rw [if_neg h, bound?_of_not_isReal (Bool.eq_false_iff.mpr h)]

end Variable

namespace ProofState

/-! ### Steps -/

/-- Declares a variable in a state that is changed in place. A failure does not by itself undo what was
done before it. -/
def declareInPlace (v : Variable) : EStateM Error ProofState Unit := do
  let s ← get
  if s.scope.hasKey v.name then throw (.duplicateVariable v.name)
  else set { s with scope := s.scope.insert v }

theorem declareInPlace_eq (v : Variable) (s : ProofState) :
    declareInPlace v s =
      match s.declare v with
      | .ok s' => .ok () s'
      | .error e => .error e s := by
  change (if s.scope.hasKey v.name then throw (.duplicateVariable v.name)
    else set { s with scope := s.scope.insert v } : EStateM Error ProofState Unit) s = _
  rw [declare]
  split <;> rfl

inductive Step where
  | declare (v : Variable)
  | assume (name : String) (claim : Proposition)
  | setGoal (goal : Proposition)

namespace Step

def perform : Step → EStateM Error ProofState Unit
  | declare v => declareInPlace v
  | assume name claim => modify (·.assume name claim)
  | setGoal goal => modify (·.setGoal goal)

def declared? : Step → Option Variable
  | declare v => some v
  | _ => none

def assumed? : Step → Option (String × Proposition)
  | assume name claim => some (name, claim)
  | _ => none

def goal? : Step → Option Proposition
  | setGoal goal => some goal
  | _ => none

/-- The state that a step leaves, whether or not it fails. -/
def leaves (step : Step) (s : ProofState) : ProofState :=
  match step.perform s with
  | .ok _ s' => s'
  | .error _ s' => s'

theorem perform_declare_eq_error_iff {v : Variable} {s s' : ProofState} {e : Error} :
    (declare v).perform s = .error e s' ↔
      s.scope.hasKey v.name = true ∧ e = .duplicateVariable v.name ∧ s' = s := by
  rw [perform, declareInPlace_eq, ProofState.declare]
  by_cases h : s.scope.hasKey v.name = true
  · simp [h, eq_comm]
  · simp [h]

theorem leaves_declare (v : Variable) (s : ProofState) :
    (declare v).leaves s =
      if s.scope.hasKey v.name then s else { s with scope := s.scope.insert v } := by
  rw [leaves, perform, declareInPlace_eq, ProofState.declare]
  by_cases h : s.scope.hasKey v.name = true
  · simp [h]
  · simp [h]

theorem declared?_leaves (step : Step) (s : ProofState) (x : String) :
    (step.leaves s).declared? x =
      (s.declared? x).or (step.declared?.toList.find? (·.name == x)) := by
  cases step with
  | declare v =>
    rw [leaves_declare, declared?, Option.toList_some, List.find?_singleton]
    by_cases h : s.scope.hasKey v.name = true
    · rw [if_pos h]
      split
      next hx =>
        obtain rfl := beq_iff_eq.mp hx
        obtain ⟨w, hw⟩ := Option.isSome_iff_exists.mp h
        rw [ProofState.declared?, hw, Option.some_or]
      next => rw [Option.or_none]
    · rw [if_neg h]
      change (s.scope.insert v).find? x = (s.scope.find? x).or _
      rw [SortedBy.find?_insert]
      split
      next hx =>
        subst hx
        rw [Option.not_isSome_iff_eq_none.mp h, beq_self_eq_true, if_pos rfl, Option.none_or]
      next hx => rw [beq_false_of_ne hx, if_neg Bool.false_ne_true, Option.or_none]
  | assume name claim => exact (Option.or_none).symm
  | setGoal goal => exact (Option.or_none).symm

theorem hypotheses_leaves (step : Step) (s : ProofState) :
    (step.leaves s).hypotheses = s.hypotheses ++
      step.assumed?.toList.map fun h => ⟨Hypothesis.nameAt s.hypotheses.length h.1, h.2⟩ := by
  cases step with
  | declare v =>
    rw [leaves_declare]
    split <;> exact (List.append_nil _).symm
  | assume name claim => rfl
  | setGoal goal => exact (List.append_nil _).symm

theorem goal_leaves (step : Step) (s : ProofState) :
    (step.leaves s).goal = step.goal?.getD s.goal := by
  cases step with
  | declare v =>
    rw [leaves_declare]
    split <;> rfl
  | assume name claim => rfl
  | setGoal goal => rfl

end Step

/-! ### Sessions -/

/-- The state after a session. Where a step fails the session goes on from what it leaves. -/
def session (steps : List Step) (s : ProofState) : ProofState :=
  steps.foldl (fun s step => step.leaves s) s

theorem session_append (steps later : List Step) (s : ProofState) :
    session (steps ++ later) s = session later (session steps s) := List.foldl_append

/-- What a proof state has after a session that starts with a goal and nothing else. -/
structure WellFormed (goal : Proposition) (steps : List Step) (s : ProofState) : Prop where
  ascending : s.scope.toList.Pairwise fun v w => v.name < w.name
  /-- Of all declarations of a name the first counts, with its domain and sign. -/
  declared : ∀ x, s.declared? x = (steps.filterMap Step.declared?).find? (·.name == x)
  hypotheses : s.hypotheses =
    (steps.filterMap Step.assumed?).mapIdx fun k h => ⟨Hypothesis.nameAt k h.1, h.2⟩
  goal : s.goal = (steps.filterMap Step.goal?).getLast?.getD goal

theorem ascending_names (s : ProofState) : s.scope.toList.Pairwise fun v w => v.name < w.name :=
  s.scope.ascending.imp compare_lt_iff_lt.mp

namespace WellFormed
variable {goal : Proposition} {steps : List Step} {s : ProofState}

theorem start (goal : Proposition) : WellFormed goal [] (ofGoal goal) :=
  ⟨ascending_names _, fun _ => rfl, rfl, rfl⟩

theorem step (h : WellFormed goal steps s) (step : Step) :
    WellFormed goal (steps ++ [step]) (step.leaves s) where
  ascending := ascending_names _
  declared x := by
    rw [Step.declared?_leaves, h.declared, filterMap_concat, List.find?_append]
  hypotheses := by
    have hlength : s.hypotheses.length = (steps.filterMap Step.assumed?).length := by
      rw [h.hypotheses, List.length_mapIdx]
    rw [Step.hypotheses_leaves, filterMap_concat, List.mapIdx_append, ← h.hypotheses, hlength]
    cases step.assumed? with
    | none => rfl
    | some a => simp
  goal := by
    rw [Step.goal_leaves, filterMap_concat, List.getLast?_append, h.goal]
    cases step.goal? with
    | none => rfl
    | some goal => rfl

theorem hasKey_iff (h : WellFormed goal steps s) {x : String} :
    s.scope.hasKey x = true ↔ x ∈ (steps.filterMap Step.declared?).map (·.name) := by
  rw [SortedBy.hasKey, ← declared?, h.declared, List.find?_isSome]
  simp only [List.mem_map, beq_iff_eq]

theorem session (goal : Proposition) (steps : List Step) :
    WellFormed goal steps (session steps (ofGoal goal)) := by
  induction steps using List.reverseRecOn with
  | nil => exact start goal
  | append_singleton steps step ih =>
    rw [session_append]
    exact ih.step step

end WellFormed

/-! ### The two listings -/

theorem facts_false (s : ProofState) :
    s.facts false = s.scope.toList.map .typed ++ s.hypotheses.map (·.claim) := by
  have hall : s.scope.toList.filter (fun v => !false || v.isReal) = s.scope.toList :=
    List.filter_eq_self.mpr fun _ _ => rfl
  rw [facts, hall]

theorem facts_true (s : ProofState) :
    s.facts true =
      (s.scope.toList.map .typed).filter (!·.isVectorFact) ++ s.hypotheses.map (·.claim) := by
  have hreal : ((!·.isVectorFact) ∘ Proposition.typed) = Variable.isReal := by
    funext v
    cases hd : v.domain <;> simp [Proposition.isVectorFact, Variable.isReal, hd]
  rw [List.filter_map, hreal]
  rfl

theorem facts_true_eq_filter_iff (s : ProofState) :
    s.facts true = (s.facts false).filter (!·.isVectorFact) ↔
      ∀ h ∈ s.hypotheses, h.claim.isVectorFact = false := by
  -- the declarations are filtered on both sides, so only the hypotheses are left to compare
  rw [facts_true, facts_false, List.filter_append, List.append_cancel_left_eq, eq_comm,
    List.filter_eq_self, List.forall_mem_map]
  simp only [Bool.not_eq_true']

/-- What the listings differ in has no options. -/
theorem optionLists_facts (s : ProofState) :
    Proposition.optionLists (s.facts true ++ [s.negatedGoal]) =
      Proposition.optionLists (s.facts false ++ [s.negatedGoal]) := by
  have hreals : s.facts true =
      (s.scope.toList.filter Variable.isReal).map .typed ++ s.hypotheses.map (·.claim) := rfl
  simp only [hreals, facts_false, Proposition.optionLists_append, Proposition.optionLists_typed,
    Variable.filterMap_bound?_filter_isReal]

def decideFrom (s : ProofState) (realsOnly : Bool) (oracle : Oracle) : Except Error Verdict :=
  (Search.run oracle 0
    (.ofLists (Proposition.optionLists (s.facts realsOnly ++ [s.negatedGoal])))).result

theorem decideFrom_eq (s : ProofState) (realsOnly : Bool) (oracle : Oracle) :
    s.decideFrom realsOnly oracle = s.decide oracle := by
  cases realsOnly with
  | false => rw [decideFrom, ← optionLists_facts]; rfl
  | true => rfl

/-- After any session the declared variables ascend by name and each is that of the first declaration of
its name, the hypotheses are those assumed, and the goal is the one set last. A further declaration
fails if and only if its name is taken, and then it leaves the state as it was. One listing of the facts
is the other without the typed facts about the declared vectors. Hypotheses are in both, also one that
is a typed fact about a vector; just if there is none, one listing is the other without all typed facts
about vectors. Both listings, with the negated goal behind them, have the same option lists, so it does
not matter to a verdict which of them is used. -/
theorem session_wellFormed (goal : Proposition) (steps : List Step) :
    ∃ s, session steps (ofGoal goal) = s ∧ WellFormed goal steps s ∧
      (∀ v e s', (Step.declare v).perform s = .error e s' ↔
        v.name ∈ (steps.filterMap Step.declared?).map (·.name) ∧
          e = .duplicateVariable v.name ∧ s' = s) ∧
      s.facts false = s.scope.toList.map .typed ++ s.hypotheses.map (·.claim) ∧
      s.facts true =
        (s.scope.toList.map .typed).filter (!·.isVectorFact) ++ s.hypotheses.map (·.claim) ∧
      (s.facts true = (s.facts false).filter (!·.isVectorFact) ↔
        ∀ h ∈ s.hypotheses, h.claim.isVectorFact = false) ∧
      Proposition.optionLists (s.facts true ++ [s.negatedGoal]) =
        Proposition.optionLists (s.facts false ++ [s.negatedGoal]) ∧
      ∀ realsOnly oracle, s.decideFrom realsOnly oracle = s.decide oracle := by
  have hformed : WellFormed goal steps (session steps (ofGoal goal)) := .session goal steps
  refine ⟨_, rfl, hformed, fun v e s' => ?_, facts_false _, facts_true _,
    facts_true_eq_filter_iff _, optionLists_facts _, decideFrom_eq _⟩
  rw [Step.perform_declare_eq_error_iff, hformed.hasKey_iff]

/-- A vector is declared, and then assumed to be one as well: the declaration is filtered out, the
hypothesis is not. -/
theorem assumed_vector_fact_stays :
    ∃ s, session [.declare ⟨"v", .vector, .unknown⟩, .assume "" (.typed ⟨"v", .vector, .unknown⟩)]
        (ofGoal (.truth false)) = s ∧
      s.facts true = [.typed ⟨"v", .vector, .unknown⟩] ∧
      (s.facts false).filter (!·.isVectorFact) = [] ∧
      s.facts true ≠ (s.facts false).filter (!·.isVectorFact) :=
  ⟨_, rfl, by decide +kernel⟩

end ProofState
end LinearArith
