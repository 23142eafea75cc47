import LinearArith.Proofs.Soundness
import LinearArith.Tactic

/-! What a reported counterexample tells. Its values satisfy all that the search keeps, and they
falsify the goal as far as what the search leaves out allows it: integer values for integers,
hypotheses that are not linear over the reals, and a goal that is not. -/

namespace LinearArith

def Interpretation.Extends (ρ : Interpretation) (w : Witness) : Prop :=
  ∀ e ∈ w.toList, ρ.value e.1 = e.2

theorem Witness.interpretation_extends (w : Witness) : w.interpretation.Extends w :=
  fun _ => value_of_mem

theorem Witness.exists_int_value {w : Witness} {x : String}
    (h : ∀ e ∈ w.toList, e.1 = x → ∃ n : Int, e.2 = n) :
    ∃ n : Int, w.interpretation.value x = n := by
  cases hf : w.find? x with
  | none => exact ⟨0, by simp [interpretation, value, get?, hf]⟩
  | some e =>
    obtain ⟨hmem, rfl⟩ := SortedBy.find?_eq_some_iff.mp hf
    obtain ⟨n, hn⟩ := h e hmem rfl
    exact ⟨n, (value_of_mem hmem).trans hn⟩

namespace ProofState

/-- The values can be extended so that the premises are true and the goal is false. -/
def Falsifies (s : ProofState) (w : Witness) : Prop :=
  ∃ ρ : Interpretation, ρ.Extends w ∧ s.Premises ρ ∧ ¬s.goal.Holds ρ

/-- What the search does not see to: the integer variables have integer values, the hypotheses without
options are true, and so is the negation of the goal if it has none. -/
structure Unchecked (s : ProofState) (ρ : Interpretation) : Prop where
  integral : ∀ v, s.Types v → v.domain = .integer → ∃ n : Int, ρ.value v.name = n
  assumed : ∀ h ∈ s.hypotheses, h.claim.options = [] → h.claim.Holds ρ
  goal : s.negatedGoal.options = [] → ¬s.goal.Holds ρ

variable {s : ProofState} {ρ : Interpretation}

theorem holds_of_kept (hk : s.Kept ρ) (hu : s.Unchecked ρ) {p : Proposition}
    (hp : p ∈ s.facts false) (ho : p.options ≠ []) : p.Holds ρ := by
  refine (Proposition.holdsSharply_iff fun v hv => hu.integral v ?_).mp
    (hk p (List.mem_append_left _ hp) ho)
  rcases mem_facts_iff.mp hp with ⟨w, hw, he⟩ | ⟨h, hh, he⟩
  · obtain rfl : w = v := Proposition.typed.inj (he.symm.trans hv)
    exact Or.inl hw
  · exact Or.inr ⟨h, hh, he.trans hv⟩

/-- What is kept and what is not checked make up the premises and the falsity of the goal. -/
theorem premises_and_not_goal_iff (hk : s.Kept ρ) :
    s.Premises ρ ∧ ¬s.goal.Holds ρ ↔ s.Unchecked ρ := by
  constructor
  · rintro ⟨hpre, hgoal⟩
    exact ⟨hpre.integral, fun h hh _ => hpre.assumed h hh, fun _ => hgoal⟩
  · intro hu
    refine ⟨⟨hu.integral, fun v hv hs => ?_, fun h hh => ?_⟩, ?_⟩
    · have hholds := holds_of_kept hk hu (mem_facts_iff.mpr (Or.inl ⟨v, hv, rfl⟩))
        (Proposition.options_typed_ne_nil_iff.mpr hs)
      rwa [Proposition.Holds, if_pos hs] at hholds
    · by_cases ho : h.claim.options = []
      · exact hu.assumed h hh ho
      · exact holds_of_kept hk hu (mem_facts_iff.mpr (Or.inr ⟨h, hh, rfl⟩)) ho
    · by_cases ho : s.negatedGoal.options = []
      · exact hu.goal ho
      · have hsharp : s.goal.negate.HoldsSharply ρ := hk s.negatedGoal (by simp) ho
        exact (Proposition.holdsSharply_negate_iff ho).mp hsharp

/-- Where all comparisons are linear over the reals, nothing but integrality is left unchecked. -/
theorem unchecked_interpretation {w : Witness}
    (hint : ∀ v, s.Types v → v.domain = .integer →
      ∀ e ∈ w.toList, e.1 = v.name → ∃ n : Int, e.2 = n)
    (hhyps : ∀ h ∈ s.hypotheses, h.claim.isComparison = true → h.claim.options ≠ [])
    (hgoal : s.goal ≠ .truth false → s.negatedGoal.options ≠ []) :
    s.Unchecked w.interpretation where
  integral v hv hd := w.exists_int_value (hint v hv hd)
  assumed h hh ho := by
    cases hc : h.claim with
    | truth b =>
      cases b with
      | true => rfl
      | false => rw [hc] at ho; cases ho
    | compare c l r => exact absurd ho (hhyps h hh (by rw [hc]; rfl))
    | typed v =>
      have hs : ¬v.hasRealSign = true := fun hs =>
        Proposition.options_typed_ne_nil_iff.mpr hs (by rw [← hc, ho])
      rw [Proposition.Holds, if_neg hs]
      trivial
    | unread text => trivial
  goal ho := by
    have hf : s.goal = .truth false := not_not.mp fun hne => hgoal hne ho
    rw [hf]
    exact Bool.false_ne_true

end ProofState

theorem Verdict.counterexample_not_mem_report (verbose : Bool) (cases : List ProvedCase) :
    .counterexample ∉ (Verdict.proved cases).report verbose := by
  cases verbose with
  | false => simp [report]
  | true =>
    cases cases with
    | nil => simp [report]
    | cons c cases => simp [report, ProvedCase.events]

namespace ProofState

/-- With elimination as the oracle the report of a counterexample is that of a scenario with a
solution. -/
theorem exists_feasible_of_counterexample {s : ProofState} {t events : Trace}
    {r : Except Error (List ProofState)}
    (h : activate ⟨true⟩ .elimination s t = (r, t ++ events)) (hc : .counterexample ∈ events) :
    ∃ x ∈ s.enumeration.toList, ∃ w, x.scenario.certificate = .feasible w ∧
      events = [.checking x.index x.scenario.toList, .feasibleWith w, .counterexample] := by
  unfold activate at h
  rcases s.decide_elimination_cases with ⟨cases, hres, -⟩ | ⟨x, hx, w, hw, hres⟩
  · rw [hres] at h
    obtain rfl := List.append_cancel_left (congrArg Prod.snd h)
    exact absurd hc (Verdict.counterexample_not_mem_report true cases)
  · rw [hres] at h
    exact ⟨x, hx, w, hw, (List.append_cancel_left (congrArg Prod.snd h)).symm⟩

/-- Under every extension of the values reported with a counterexample all that the search keeps is
true. So they falsify the goal exactly if they can be extended to what is not checked, and they do
where all comparisons are linear over the reals and no integer variable has a fraction. -/
theorem falsifies_iff_of_counterexample {s : ProofState} {t events : Trace}
    {r : Except Error (List ProofState)}
    (h : activate ⟨true⟩ .elimination s t = (r, t ++ events)) (hc : .counterexample ∈ events) :
    ∃ index constraints w,
      events = [.checking index constraints, .feasibleWith w, .counterexample] ∧
      (∀ ρ : Interpretation, ρ.Extends w → s.Kept ρ) ∧
      (s.Falsifies w ↔ ∃ ρ : Interpretation, ρ.Extends w ∧ s.Unchecked ρ) ∧
      ((∀ v, s.Types v → v.domain = .integer →
          ∀ e ∈ w.toList, e.1 = v.name → ∃ n : Int, e.2 = n) →
        (∀ h ∈ s.hypotheses, h.claim.isComparison = true → h.claim.options ≠ []) →
        (s.goal ≠ .truth false → s.negatedGoal.options ≠ []) → s.Falsifies w) := by
  obtain ⟨x, hx, w, hw, rfl⟩ := exists_feasible_of_counterexample h hc
  have hkept : ∀ ρ : Interpretation, ρ.Extends w → s.Kept ρ := fun ρ hρ => kept_of_feasible hx hw hρ
  have hiff : s.Falsifies w ↔ ∃ ρ : Interpretation, ρ.Extends w ∧ s.Unchecked ρ :=
    exists_congr fun ρ => and_congr_right fun hρ => premises_and_not_goal_iff (hkept ρ hρ)
  refine ⟨_, _, w, rfl, hkept, hiff, fun hint hhyps hgoal => hiff.mpr ?_⟩
  exact ⟨w.interpretation, w.interpretation_extends, unchecked_interpretation hint hhyps hgoal⟩

/-- A nonnegative real need not be positive, and 0 falsifies it. -/
theorem falsifies_positive_of_nonnegative :
    ∃ index constraints w, activate ⟨true⟩ .elimination
        ⟨.ofList [⟨"x", .real, .nonnegative⟩], [],
          .compare .gt (.var ⟨"x", .real, .nonnegative⟩) (.const 0)⟩ [] =
        (.ok [⟨.ofList [⟨"x", .real, .nonnegative⟩], [],
          .compare .gt (.var ⟨"x", .real, .nonnegative⟩) (.const 0)⟩],
          [.checking index constraints, .feasibleWith w, .counterexample]) ∧
      Falsifies ⟨.ofList [⟨"x", .real, .nonnegative⟩], [],
        .compare .gt (.var ⟨"x", .real, .nonnegative⟩) (.const 0)⟩ w := by
  have h : activate ⟨true⟩ .elimination
      ⟨.ofList [⟨"x", .real, .nonnegative⟩], [],
        .compare .gt (.var ⟨"x", .real, .nonnegative⟩) (.const 0)⟩ [] =
      (.ok [⟨.ofList [⟨"x", .real, .nonnegative⟩], [],
        .compare .gt (.var ⟨"x", .real, .nonnegative⟩) (.const 0)⟩],
        [] ++ [.checking 0 [.single "x" 1 .le 0, .single "x" 1 .ge 0],
          .feasibleWith ⟨[("x", 0)], by decide⟩, .counterexample]) := by decide +kernel
  obtain ⟨index, constraints, w, he, -, -, hfalsifies⟩ :=
    falsifies_iff_of_counterexample h (by decide)
  refine ⟨index, constraints, w, by rw [h, he]; rfl, hfalsifies ?_ nofun fun _ => by decide +kernel⟩
  intro v hv hd
  rcases hv with hv | ⟨hyp, hmem, -⟩
  · obtain rfl : v = ⟨"x", .real, .nonnegative⟩ := List.mem_singleton.mp hv
    cases hd
  · cases hmem

/-- What is not checked can be false: a product is dropped as a hypothesis and as a goal, and an
integer gets a fraction. -/
theorem not_falsifies_of_unchecked :
    (activate ⟨true⟩ .elimination
        ⟨.ofList [⟨"x", .real, .unknown⟩],
          [⟨"h1", .compare .gt
            (.mul [.var ⟨"x", .real, .unknown⟩, .var ⟨"x", .real, .unknown⟩]) (.const 0)⟩],
          .compare .ne (.var ⟨"x", .real, .unknown⟩) (.const 0)⟩ [] =
        (.ok [⟨.ofList [⟨"x", .real, .unknown⟩],
          [⟨"h1", .compare .gt
            (.mul [.var ⟨"x", .real, .unknown⟩, .var ⟨"x", .real, .unknown⟩]) (.const 0)⟩],
          .compare .ne (.var ⟨"x", .real, .unknown⟩) (.const 0)⟩],
          [.checking 0 [.single "x" 1 .eq 0], .feasibleWith ⟨[("x", 0)], by decide⟩,
            .counterexample]) ∧
      ¬Falsifies ⟨.ofList [⟨"x", .real, .unknown⟩],
        [⟨"h1", .compare .gt
          (.mul [.var ⟨"x", .real, .unknown⟩, .var ⟨"x", .real, .unknown⟩]) (.const 0)⟩],
        .compare .ne (.var ⟨"x", .real, .unknown⟩) (.const 0)⟩ ⟨[("x", 0)], by decide⟩) ∧
    (activate ⟨true⟩ .elimination
        ⟨.ofList [⟨"x", .real, .unknown⟩], [],
          .compare .ge
            (.mul [.var ⟨"x", .real, .unknown⟩, .var ⟨"x", .real, .unknown⟩]) (.const 0)⟩ [] =
        (.ok [⟨.ofList [⟨"x", .real, .unknown⟩], [],
          .compare .ge
            (.mul [.var ⟨"x", .real, .unknown⟩, .var ⟨"x", .real, .unknown⟩]) (.const 0)⟩],
          [.checking 0 [], .feasibleWith .empty, .counterexample]) ∧
      ¬Falsifies ⟨.ofList [⟨"x", .real, .unknown⟩], [],
        .compare .ge
          (.mul [.var ⟨"x", .real, .unknown⟩, .var ⟨"x", .real, .unknown⟩]) (.const 0)⟩ .empty) ∧
    activate ⟨true⟩ .elimination
        ⟨.ofList [⟨"n", .integer, .unknown⟩],
          [⟨"h1", .compare .eq (.mul [.const 2, .var ⟨"n", .integer, .unknown⟩]) (.const 1)⟩],
          .compare .gt (.var ⟨"n", .integer, .unknown⟩) (.const 5)⟩ [] =
        (.ok [⟨.ofList [⟨"n", .integer, .unknown⟩],
          [⟨"h1", .compare .eq (.mul [.const 2, .var ⟨"n", .integer, .unknown⟩]) (.const 1)⟩],
          .compare .gt (.var ⟨"n", .integer, .unknown⟩) (.const 5)⟩],
          [.checking 0 [.single "n" 1 .le 5, .single "n" 2 .eq 1],
            .feasibleWith ⟨[("n", 1 / 2)], by decide⟩, .counterexample]) ∧
      ¬Falsifies ⟨.ofList [⟨"n", .integer, .unknown⟩],
        [⟨"h1", .compare .eq (.mul [.const 2, .var ⟨"n", .integer, .unknown⟩]) (.const 1)⟩],
        .compare .gt (.var ⟨"n", .integer, .unknown⟩) (.const 5)⟩
        ⟨[("n", 1 / 2)], by decide⟩ := by
  refine ⟨⟨by decide +kernel, ?_⟩, ⟨by decide +kernel, ?_⟩, by decide +kernel, ?_⟩
  · rintro ⟨ρ, hρ, hpre, -⟩
    have hx : ρ.value "x" = 0 := hρ ("x", 0) (by simp)
    have hh := hpre.assumed _ (List.mem_singleton_self _)
    simp [Proposition.Holds, Term.value, Term.productValue, Comparison.holds, hx] at hh
  · rintro ⟨ρ, -, -, hgoal⟩
    simp [Proposition.Holds, Term.value, Term.productValue, Comparison.holds] at hgoal
    exact absurd hgoal (not_lt.mpr (mul_self_nonneg _))
  · rintro ⟨ρ, hρ, hpre, -⟩
    have hn : ρ.value "n" = 1 / 2 := hρ ("n", 1 / 2) (by simp)
    obtain ⟨k, hk⟩ := hpre.integral ⟨"n", .integer, .unknown⟩ (Or.inl (by decide)) rfl
    have htwice : (2 * k : Rat) = 1 := by rw [← hk, hn]; norm_num
    have hint : 2 * k = 1 := by exact_mod_cast htwice
    omega

end ProofState
end LinearArith
