import LinearArith.Constraint.Laws
import LinearArith.Proofs.LazyEnumeration
import LinearArith.Proofs.OptionTruth

/-! The enumeration of scenarios finds every combination of options that can hold, so an assignment
satisfies some scenario if and only if it satisfies an option of each list. -/

namespace LinearArith

namespace Scenario

theorem holdsAt_iff {v : String → Rat} {s : Scenario} :
    s.holdsAt v = true ↔ ∀ c ∈ s.toList, c.holdsAt v = true := List.all_eq_true

theorem holdsAt_ofList_iff {v : String → Rat} {cs : List Constraint} :
    holdsAt v (SortedBy.ofList cs) = true ↔ ∀ c ∈ cs, c.holdsAt v = true := by
  simp only [holdsAt_iff, SortedBy.mem_ofList_iff]

theorem hasStaticFalsehood_of_holdsAt {v : String → Rat} {s : Scenario}
    (h : s.holdsAt v = true) : s.hasStaticFalsehood = false := by
  rw [hasStaticFalsehood, List.any_eq_false]
  intro c hc hf
  have hh := holdsAt_iff.mp h c hc
  rw [Constraint.holdsAt_of_isStaticallyFalse hf] at hh
  cases hh

end Scenario

namespace Enumeration

/-- What is given is the scenario of some pick, and only what is false on sight is left out. -/
theorem exists_mem_toList_iff {lists : List (List Constraint)} {t : Scenario} :
    (∃ s ∈ (ofLists lists).toList, s.scenario = t) ↔
      t ∈ space lists ∧ t.hasStaticFalsehood = false := by
  rw [toList_ofLists, firstOccurrences, ← mem_distinct_iff]
  simp

/-- The case split neither loses nor invents solutions. -/
theorem exists_holdsAt_iff {lists : List (List Constraint)} {v : String → Rat} :
    (∃ s ∈ (ofLists lists).toList, s.scenario.holdsAt v = true) ↔
      ∀ l ∈ lists, ∃ c ∈ l, c.holdsAt v = true := by
  rw [← exists_mem_product_iff]
  constructor
  · rintro ⟨s, hs, hv⟩
    obtain ⟨cs, hcs, he⟩ := List.mem_map.mp (exists_mem_toList_iff.mp ⟨s, hs, rfl⟩).1
    exact ⟨cs, hcs, Scenario.holdsAt_ofList_iff.mp (he ▸ hv)⟩
  · rintro ⟨cs, hcs, hvs⟩
    have hv : Scenario.holdsAt v (SortedBy.ofList cs) = true := Scenario.holdsAt_ofList_iff.mpr hvs
    obtain ⟨s, hs, he⟩ := exists_mem_toList_iff.mpr
      ⟨List.mem_map.mpr ⟨cs, hcs, rfl⟩, Scenario.hasStaticFalsehood_of_holdsAt hv⟩
    exact ⟨s, hs, he ▸ hv⟩

end Enumeration

/-- Values satisfy all constraints of some scenario exactly where each proposition that has options is
true. -/
theorem Proposition.exists_scenario_iff (ps : List Proposition) (ρ : Interpretation) :
    (∃ s ∈ (Enumeration.ofLists (optionLists ps)).toList.map (·.scenario),
        ∀ c ∈ s.toList, c.holdsAt ρ.value = true) ↔
      ∀ p ∈ ps, p.options ≠ [] → p.HoldsSharply ρ := by
  rw [← forall_optionLists_iff, ← Enumeration.exists_holdsAt_iff]
  simp only [List.mem_map, exists_exists_and_eq_and, Scenario.holdsAt_iff]

end LinearArith
