import LinearArith.Proofs.Soundness

/-! Weakening, exchange and contraction: a goal that is proved stays proved when declarations and
hypotheses are added, put in another order or repeated. The cases of the proof need not stay. -/

namespace LinearArith
namespace ProofState

/-- The second state has the goal of the first, and all that is declared or assumed there. -/
structure WeakenedBy (s t : ProofState) : Prop where
  goal : t.goal = s.goal
  declared : ∀ v ∈ s.scope.toList, v ∈ t.scope.toList
  assumed : ∀ h ∈ s.hypotheses, ∃ h' ∈ t.hypotheses, h'.claim = h.claim

namespace WeakenedBy
variable {s t : ProofState}

theorem mem_facts (h : s.WeakenedBy t) {p : Proposition} (hp : p ∈ s.facts false) :
    p ∈ t.facts false := by
  rcases mem_facts_iff.mp hp with ⟨v, hv, rfl⟩ | ⟨hyp, hhyp, rfl⟩
  · exact mem_facts_iff.mpr (Or.inl ⟨v, h.declared v hv, rfl⟩)
  · exact mem_facts_iff.mpr (Or.inr (h.assumed hyp hhyp))

/-- What more is known excludes interpretations and admits no new ones. -/
theorem kept (h : s.WeakenedBy t) {ρ : Interpretation} (hk : t.Kept ρ) : s.Kept ρ := by
  intro p hp
  have hgoal : t.negatedGoal = s.negatedGoal := by rw [negatedGoal, negatedGoal, h.goal]
  rcases List.mem_append.mp hp with hp | hp
  · exact hk p (List.mem_append_left _ (h.mem_facts hp))
  · exact hk p (List.mem_append_right _ (hgoal ▸ hp))

theorem proved (h : s.WeakenedBy t) (hs : s.Proved) : t.Proved :=
  proved_iff.mpr fun ρ hk => proved_iff.mp hs ρ (h.kept hk)

/-- Hypotheses with the same claims may stand in any order and as often as they like. -/
theorem of_same_claims (hgoal : t.goal = s.goal) (hscope : t.scope = s.scope)
    (hclaims : ∀ p, p ∈ s.hypotheses.map (·.claim) → p ∈ t.hypotheses.map (·.claim)) :
    s.WeakenedBy t where
  goal := hgoal
  declared _ hv := hscope ▸ hv
  assumed hyp hhyp := by
    obtain ⟨h', hmem, he⟩ := List.mem_map.mp (hclaims _ (List.mem_map.mpr ⟨hyp, hhyp, rfl⟩))
    exact ⟨h', hmem, he⟩

end WeakenedBy

def proof? (s : ProofState) : Option (List ProvedCase) :=
  match s.decide .elimination with
  | .ok (.proved cases) => some cases
  | _ => none

theorem proof?_eq_some_iff {s : ProofState} {cases : List ProvedCase} :
    s.proof? = some cases ↔ s.decide .elimination = .ok (.proved cases) := by
  unfold proof?
  split
  next cases' h => simp [h]
  next h => exact ⟨nofun, fun he => absurd he (h cases)⟩

theorem proved_iff_isSome {s : ProofState} : s.Proved ↔ s.proof?.isSome = true := by
  simp only [Proved, Option.isSome_iff_exists, proof?_eq_some_iff]

instance (s : ProofState) : Decidable s.Proved := decidable_of_iff _ proved_iff_isSome.symm

/-- Both are proved, by other scenarios or in another order, and so with other certificates. -/
def ProvedOtherwise (s t : ProofState) : Prop :=
  ∃ cases ∈ s.proof?, ∃ cases' ∈ t.proof?,
    cases.map (·.scenario) ≠ cases'.map (·.scenario) ∧
      cases.map (·.multipliers) ≠ cases'.map (·.multipliers)

instance (s t : ProofState) : Decidable (s.ProvedOtherwise t) :=
  inferInstanceAs (Decidable (∃ cases ∈ s.proof?, ∃ cases' ∈ t.proof?,
    cases.map (·.scenario) ≠ cases'.map (·.scenario) ∧
      cases.map (·.multipliers) ≠ cases'.map (·.multipliers)))

theorem provedOtherwise_of_exchange :
    ProvedOtherwise
      ⟨.empty, [⟨"h1", .compare .ne (.var ⟨"x", .real, .unknown⟩) (.const 0)⟩,
          ⟨"h2", .compare .ne (.var ⟨"y", .real, .unknown⟩) (.const 0)⟩,
          ⟨"h3", .compare .gt (.var ⟨"z", .real, .unknown⟩) (.const 0)⟩],
        .compare .ge (.var ⟨"z", .real, .unknown⟩) (.const 0)⟩
      ⟨.empty, [⟨"h2", .compare .ne (.var ⟨"y", .real, .unknown⟩) (.const 0)⟩,
          ⟨"h1", .compare .ne (.var ⟨"x", .real, .unknown⟩) (.const 0)⟩,
          ⟨"h3", .compare .gt (.var ⟨"z", .real, .unknown⟩) (.const 0)⟩],
        .compare .ge (.var ⟨"z", .real, .unknown⟩) (.const 0)⟩ := by decide +kernel

theorem provedOtherwise_of_repetition :
    ProvedOtherwise
      ⟨.empty, [⟨"h1", .compare .ne (.var ⟨"x", .real, .unknown⟩) (.const 0)⟩,
          ⟨"h2", .compare .gt (.var ⟨"z", .real, .unknown⟩) (.const 0)⟩],
        .compare .ge (.var ⟨"z", .real, .unknown⟩) (.const 0)⟩
      ⟨.empty, [⟨"h1", .compare .ne (.var ⟨"x", .real, .unknown⟩) (.const 0)⟩,
          ⟨"h2", .compare .gt (.var ⟨"z", .real, .unknown⟩) (.const 0)⟩,
          ⟨"h1", .compare .ne (.var ⟨"x", .real, .unknown⟩) (.const 0)⟩,
          ⟨"h2", .compare .gt (.var ⟨"z", .real, .unknown⟩) (.const 0)⟩],
        .compare .ge (.var ⟨"z", .real, .unknown⟩) (.const 0)⟩ := by decide +kernel

/-- What is proved stays proved under more declarations and hypotheses, and it does not matter in what
order and how often hypotheses are given. How it is proved depends on the order and on repetition. -/
theorem proved_of_weakening :
    (∀ s t : ProofState, s.WeakenedBy t → s.Proved → t.Proved) ∧
      (∀ s t : ProofState, t.goal = s.goal → t.scope = s.scope →
        (∀ p, p ∈ s.hypotheses.map (·.claim) ↔ p ∈ t.hypotheses.map (·.claim)) →
          (s.Proved ↔ t.Proved)) ∧
      (∃ s t : ProofState, t.goal = s.goal ∧ t.scope = s.scope ∧
        s.hypotheses.Perm t.hypotheses ∧ s.ProvedOtherwise t) ∧
      ∃ s t : ProofState, t.goal = s.goal ∧ t.scope = s.scope ∧
        t.hypotheses = s.hypotheses ++ s.hypotheses ∧ s.ProvedOtherwise t := by
  refine ⟨fun s t h hs => h.proved hs, fun s t hgoal hscope hclaims => ⟨fun hs => ?_, fun ht => ?_⟩,
    ⟨_, _, by rfl, by rfl, by exact List.Perm.swap _ _ _, provedOtherwise_of_exchange⟩,
    ⟨_, _, by rfl, by rfl, by rfl, provedOtherwise_of_repetition⟩⟩
  · exact (WeakenedBy.of_same_claims hgoal hscope fun p => (hclaims p).mp).proved hs
  · exact (WeakenedBy.of_same_claims hgoal.symm hscope.symm fun p => (hclaims p).mpr).proved ht

/-- A declaration and a disequality are added in front, and the hypothesis is repeated. -/
theorem proved_of_added_disequality :
    WeakenedBy
        ⟨.ofList [⟨"z", .real, .nonnegative⟩],
          [⟨"h1", .compare .ne (.var ⟨"z", .real, .nonnegative⟩) (.const 0)⟩],
          .compare .gt (.var ⟨"z", .real, .nonnegative⟩) (.const 0)⟩
        ⟨.ofList [⟨"x", .integer, .positive⟩, ⟨"z", .real, .nonnegative⟩],
          [⟨"h1", .compare .ne (.var ⟨"x", .integer, .positive⟩) (.const 3)⟩,
            ⟨"h2", .compare .ne (.var ⟨"z", .real, .nonnegative⟩) (.const 0)⟩,
            ⟨"h3", .compare .ne (.var ⟨"z", .real, .nonnegative⟩) (.const 0)⟩],
          .compare .gt (.var ⟨"z", .real, .nonnegative⟩) (.const 0)⟩ ∧
      Proved
        ⟨.ofList [⟨"x", .integer, .positive⟩, ⟨"z", .real, .nonnegative⟩],
          [⟨"h1", .compare .ne (.var ⟨"x", .integer, .positive⟩) (.const 3)⟩,
            ⟨"h2", .compare .ne (.var ⟨"z", .real, .nonnegative⟩) (.const 0)⟩,
            ⟨"h3", .compare .ne (.var ⟨"z", .real, .nonnegative⟩) (.const 0)⟩],
          .compare .gt (.var ⟨"z", .real, .nonnegative⟩) (.const 0)⟩ := by
  have hproved : Proved
      ⟨.ofList [⟨"z", .real, .nonnegative⟩],
        [⟨"h1", .compare .ne (.var ⟨"z", .real, .nonnegative⟩) (.const 0)⟩],
        .compare .gt (.var ⟨"z", .real, .nonnegative⟩) (.const 0)⟩ := by decide +kernel
  refine ⟨?weaker, proved_of_weakening.1 _ _ ?weaker hproved⟩
  exact ⟨rfl, by decide, by simp⟩

end ProofState
end LinearArith
