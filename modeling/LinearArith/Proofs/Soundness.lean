import LinearArith.Proofs.OptionTruth
import LinearArith.Proofs.Search

/-! What a verdict says of the proof state: a proved goal follows from the premises, and a refutation
gives values under which all that the search keeps is true. -/

namespace LinearArith

namespace Witness

theorem value_of_mem {w : Witness} {e : String × Rat} (h : e ∈ w.toList) : w.value e.1 = e.2 := by
  have hf : w.find? e.1 = some e := SortedBy.mem_iff_find?.mp h
  rw [value, get?, hf]
  rfl

/-- The values of a witness; names without a value are 0, and all that arithmetic does not tell is
true. -/
def interpretation (w : Witness) : Interpretation :=
  ⟨w.value, fun _ _ => 0, fun _ => True, fun _ => True⟩

end Witness

namespace ProofState

/-- All that the search keeps is true: the facts that have options, and the negated goal if it has. -/
def Kept (s : ProofState) (ρ : Interpretation) : Prop :=
  ∀ p ∈ s.facts false ++ [s.negatedGoal], p.options ≠ [] → p.HoldsSharply ρ

theorem mem_facts_iff {s : ProofState} {p : Proposition} :
    p ∈ s.facts false ↔ (∃ v ∈ s.scope.toList, p = .typed v) ∨ ∃ h ∈ s.hypotheses, h.claim = p := by
  simp [facts, eq_comm]

theorem mem_facts_of_options {s : ProofState} {p : Proposition} (h : p ∈ s.facts false)
    (ho : p.options ≠ []) : p ∈ s.facts true := by
  rcases mem_facts_iff.mp h with ⟨v, hv, rfl⟩ | ⟨hyp, hh, rfl⟩
  · have hr : v.isReal = true :=
      (Variable.hasRealSign_iff.mp (Proposition.options_typed_ne_nil_iff.mp ho)).1
    simp [facts, hv, hr]
  · have hmem : hyp.claim ∈ s.hypotheses.map (·.claim) := List.mem_map.mpr ⟨hyp, hh, rfl⟩
    simp [facts, hmem]

/-- All that is kept is true exactly where some scenario of the search holds. -/
theorem kept_iff {s : ProofState} {ρ : Interpretation} :
    s.Kept ρ ↔ ∃ x ∈ s.enumeration.toList, x.scenario.holdsAt ρ.value = true := by
  rw [enumeration, Enumeration.exists_holdsAt_iff, Proposition.forall_optionLists_iff]
  constructor
  · intro h p hp ho
    rcases List.mem_append.mp hp with hp | hp
    · refine h p (List.mem_append_left _ ?_) ho
      simp only [facts, List.mem_append, List.mem_map, List.mem_filter] at hp ⊢
      exact hp.imp (fun ⟨v, hv, he⟩ => ⟨v, ⟨hv.1, by simp⟩, he⟩) id
    · exact h p (List.mem_append_right _ hp) ho
  · intro h p hp ho
    rcases List.mem_append.mp hp with hp | hp
    · exact h p (List.mem_append_left _ (mem_facts_of_options hp ho)) ho
    · exact h p (List.mem_append_right _ hp) ho

/-- Where the premises are true and the goal is false, all that is kept is true. -/
theorem kept_of_premises {s : ProofState} {ρ : Interpretation} (h : s.Premises ρ)
    (hgoal : ¬s.goal.Holds ρ) : s.Kept ρ := by
  intro p hp ho
  rcases List.mem_append.mp hp with hp | hp
  · rcases mem_facts_iff.mp hp with ⟨v, hv, rfl⟩ | ⟨hyp, hh, rfl⟩
    · have hs : v.hasRealSign = true := Proposition.options_typed_ne_nil_iff.mp ho
      apply (Proposition.holdsSharply_iff fun w hw => ?_).mpr
      · rw [Proposition.Holds, if_pos hs]
        exact h.declared v hv hs
      · obtain rfl := Proposition.typed.inj hw
        exact h.integral v (Or.inl hv)
    · apply (Proposition.holdsSharply_iff fun w hw => ?_).mpr
      · exact h.assumed hyp hh
      · exact h.integral w (Or.inr ⟨hyp, hh, hw⟩)
  · obtain rfl := List.mem_singleton.mp hp
    exact (Proposition.holdsSharply_negate_iff ho).mpr hgoal

/-- Elimination decides whether all that is kept can be true, and refutes with a solution. -/
theorem decide_elimination_cases (s : ProofState) :
    (∃ cases, s.decide .elimination = .ok (.proved cases) ∧ ∀ ρ, ¬s.Kept ρ) ∨
      ∃ x ∈ s.enumeration.toList, ∃ w, x.scenario.certificate = .feasible w ∧
        s.decide .elimination = .ok (.refuted x.index x.scenario w true) := by
  rw [ProofState.decide, search, Search.run_eq_through]
  rcases Search.through_elimination 0 s.enumeration.toList with ⟨cases, hres, hall⟩ | h
  · refine Or.inl ⟨cases, hres, fun ρ hk => ?_⟩
    obtain ⟨x, hx, hv⟩ := kept_iff.mp hk
    obtain ⟨m, hm⟩ := hall x hx
    rw [Scenario.holdsAt_of_infeasible hm] at hv
    cases hv
  · exact Or.inr h

theorem kept_of_feasible {s : ProofState} {x : IndexedScenario} {w : Witness}
    (hx : x ∈ s.enumeration.toList) (hw : x.scenario.certificate = .feasible w)
    {ρ : Interpretation} (hρ : ∀ e ∈ w.toList, ρ.value e.1 = e.2) : s.Kept ρ :=
  kept_iff.mpr ⟨x, hx, Scenario.holdsAt_of_satisfies (Scenario.satisfies_of_certificate hw) hρ⟩

/-- The search with elimination refutes every scenario. -/
def Proved (s : ProofState) : Prop := ∃ cases, s.decide .elimination = .ok (.proved cases)

theorem proved_iff {s : ProofState} : s.Proved ↔ ∀ ρ, ¬s.Kept ρ := by
  rcases s.decide_elimination_cases with ⟨cases, hres, hnone⟩ | ⟨x, hx, w, hw, hres⟩
  · exact ⟨fun _ => hnone, fun _ => ⟨cases, hres⟩⟩
  · have hkept : s.Kept w.interpretation := kept_of_feasible hx hw fun _ => Witness.value_of_mem
    refine ⟨?_, fun hnone => absurd hkept (hnone w.interpretation)⟩
    rintro ⟨cases, hcases⟩
    rw [hres] at hcases
    cases hcases

/-- A goal that is proved follows from the premises, whatever quotients by 0 are and whether or not
what cannot be read is true. -/
theorem entailed_of_proved {s : ProofState} {cases : List ProvedCase}
    (h : s.decide .elimination = .ok (.proved cases)) : s.Entailed := by
  intro ρ hpre
  by_contra hgoal
  rcases s.decide_elimination_cases with ⟨cases', -, hnone⟩ | ⟨x, -, w, -, hres⟩
  · exact hnone ρ (kept_of_premises hpre hgoal)
  · rw [hres] at h
    cases h

theorem entailed_gt_of_ne_of_ge :
    Entailed ⟨.ofList [⟨"x", .real, .unknown⟩],
      [⟨"h1", .compare .ne (.var ⟨"x", .real, .unknown⟩) (.const 0)⟩,
        ⟨"h2", .compare .ge (.var ⟨"x", .real, .unknown⟩) (.const 0)⟩],
      .compare .gt (.var ⟨"x", .real, .unknown⟩) (.const 0)⟩ := by
  -- one case for each side of the disequality
  have h : decide ⟨.ofList [⟨"x", .real, .unknown⟩],
      [⟨"h1", .compare .ne (.var ⟨"x", .real, .unknown⟩) (.const 0)⟩,
        ⟨"h2", .compare .ge (.var ⟨"x", .real, .unknown⟩) (.const 0)⟩],
      .compare .gt (.var ⟨"x", .real, .unknown⟩) (.const 0)⟩ .elimination =
      .ok (.proved [
        ⟨0, .ofList [.single "x" 1 .le 0, .single "x" 1 .lt 0, .single "x" 1 .ge 0],
          ⟨[(.single "x" 1 .le 0, 0), (.single "x" 1 .lt 0, 1), (.single "x" 1 .ge 0, 1)],
            by decide⟩⟩,
        ⟨1, .ofList [.single "x" 1 .le 0, .single "x" 1 .ge 0, .single "x" 1 .gt 0],
          ⟨[(.single "x" 1 .le 0, 1), (.single "x" 1 .ge 0, 0), (.single "x" 1 .gt 0, 1)],
            by decide⟩⟩]) := by decide +kernel
  exact entailed_of_proved h

/-- The decision never fails. A refutation is verified, its witness gives values to the unknowns of its
scenario and no others, and however it is extended all that is kept is true. So a goal is proved
exactly if no interpretation makes all that is kept true. -/
theorem decide_elimination_complete (s : ProofState) :
    (∀ index scenario w verified,
      s.decide .elimination = .ok (.refuted index scenario w verified) →
        verified = true ∧ (∀ x, (w.get? x).isSome = true ↔ x ∈ scenario.unknowns.toList) ∧
          ∀ ρ : Interpretation, (∀ e ∈ w.toList, ρ.value e.1 = e.2) → s.Kept ρ) ∧
      (∃ v, s.decide .elimination = .ok v) ∧
      ((∃ cases, s.decide .elimination = .ok (.proved cases)) ↔ ¬∃ ρ, s.Kept ρ) := by
  rcases s.decide_elimination_cases with ⟨cases, hres, hnone⟩ | ⟨x, hx, w, hw, hres⟩
  · refine ⟨fun index scenario w verified h => ?_, ⟨_, hres⟩, ?_⟩
    · rw [hres] at h
      cases h
    · exact ⟨fun _ ⟨ρ, hk⟩ => hnone ρ hk, fun _ => ⟨cases, hres⟩⟩
  · refine ⟨fun index scenario w' verified h => ?_, ⟨_, hres⟩, ?_⟩
    · rw [hres] at h
      cases h
      exact ⟨rfl, Scenario.assigned_iff_of_certificate hw, fun ρ hρ => kept_of_feasible hx hw hρ⟩
    · constructor
      · rintro ⟨cases, hp⟩
        rw [hres] at hp
        cases hp
      · intro hnone
        have hρ : ∀ e ∈ w.toList, w.value e.1 = e.2 := by
          intro e he
          have hf : w.find? e.1 = some e := SortedBy.mem_iff_find?.mp he
          rw [Witness.value, Witness.get?, hf]
          rfl
        exact absurd ⟨⟨w.value, fun _ _ => 0, fun _ => True, fun _ => True⟩,
          kept_of_feasible hx hw hρ⟩ hnone

/-- A positive integer need not be greater than 1. -/
theorem kept_at_one_of_refuted :
    ∃ scenario w, decide ⟨.ofList [⟨"n", .integer, .positive⟩], [],
        .compare .gt (.var ⟨"n", .integer, .positive⟩) (.const 1)⟩ .elimination =
        .ok (.refuted 0 scenario w true) ∧
      ∀ ρ : Interpretation, ρ.value "n" = 1 → Kept ⟨.ofList [⟨"n", .integer, .positive⟩], [],
        .compare .gt (.var ⟨"n", .integer, .positive⟩) (.const 1)⟩ ρ := by
  have h : decide ⟨.ofList [⟨"n", .integer, .positive⟩], [],
      .compare .gt (.var ⟨"n", .integer, .positive⟩) (.const 1)⟩ .elimination =
      .ok (.refuted 0 (.ofList [.single "n" 1 .le 1, .single "n" 1 .ge 1])
        ⟨[("n", 1)], by decide⟩ true) := by decide +kernel
  refine ⟨_, _, h, fun ρ hρ => ?_⟩
  exact ((decide_elimination_complete _).1 _ _ _ _ h).2.2 ρ (by simpa using hρ)

end ProofState
end LinearArith
