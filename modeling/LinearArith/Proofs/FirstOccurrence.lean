import LinearArith.Enumeration
import LinearArith.Proofs.Product

/-! The scenarios of a product in lexicographic order, without those that are false on sight and each
where it occurs first. Going through them one by one and keeping in mind what was met gives the same. -/

namespace LinearArith
namespace Enumeration

def space (lists : List (List Constraint)) : List Scenario := (product lists).map SortedBy.ofList

def distinct (ss : List Scenario) : List Scenario :=
  (ss.filter fun s => !s.hasStaticFalsehood).eraseDups

/-- The distinct scenarios of all picks, each with the rank of the first pick that gives it. -/
def firstOccurrences (lists : List (List Constraint)) : List IndexedScenario :=
  (distinct (space lists)).map fun s => ⟨(space lists).idxOf s, s⟩

theorem mem_distinct_iff {s : Scenario} {ss : List Scenario} :
    s ∈ distinct ss ↔ s ∈ ss ∧ s.hasStaticFalsehood = false := by
  simp [distinct]

theorem eraseDups_filter {α : Type} [BEq α] [LawfulBEq α] (p : α → Bool) (l : List α) :
    (l.filter p).eraseDups = l.eraseDups.filter p := by
  induction hn : l.length using Nat.strongRecOn generalizing l with
  | _ n ih =>
    cases l with
    | nil => rfl
    | cons a l =>
      have hlt : (l.filter fun b => !b == a).length < n :=
        hn ▸ Nat.lt_succ_of_le (List.length_filter_le _ l)
      have hrest : ((l.filter p).filter fun b => !b == a).eraseDups =
          (l.filter fun b => !b == a).eraseDups.filter p := by
        rw [← ih _ hlt _ rfl, List.filter_filter, List.filter_filter]
        simp only [Bool.and_comm]
      rw [List.eraseDups_cons]
      by_cases ha : p a = true
      · rw [List.filter_cons_of_pos ha, List.filter_cons_of_pos ha, List.eraseDups_cons, hrest]
      · rw [List.filter_cons_of_neg ha, List.filter_cons_of_neg ha, ← hrest]
        congr 1
        symm
        apply List.filter_eq_self.mpr
        intro b hb
        have hne : b ≠ a := fun he => ha (he ▸ (List.mem_filter.mp hb).2)
        simpa using hne

theorem distinct_cons_of_false {s : Scenario} (h : s.hasStaticFalsehood = true)
    (ss : List Scenario) : distinct (s :: ss) = distinct ss := by
  simp [distinct, h]

theorem distinct_cons {s : Scenario} (h : s.hasStaticFalsehood = false) (ss : List Scenario) :
    distinct (s :: ss) = s :: (distinct ss).filter fun t => !t == s := by
  rw [distinct, List.filter_cons_of_pos (by simpa using h), List.eraseDups_cons, eraseDups_filter,
    distinct]

/-- What is new in a list of scenarios whose ranks begin with `i`, where those in `seen` have been
met. -/
def fresh (seen : List Scenario) (i : Nat) : List Scenario → List IndexedScenario
  | [] => []
  | s :: ss =>
    if s.hasStaticFalsehood || seen.contains s then fresh seen (i + 1) ss
    else ⟨i, s⟩ :: fresh (s :: seen) (i + 1) ss

/-- One more scenario in front moves the ranks of the others by one. -/
theorem map_rank_cons {s : Scenario} {i : Nat} {ss ts : List Scenario} (h : s ∉ ts) :
    (ts.map fun t => (⟨i + (s :: ss).idxOf t, t⟩ : IndexedScenario)) =
      ts.map fun t => ⟨i + 1 + ss.idxOf t, t⟩ := by
  apply List.map_congr_left
  intro t ht
  have hne : s ≠ t := fun he => h (he ▸ ht)
  rw [List.idxOf_cons, beq_false_of_ne hne, cond_false, Nat.add_assoc, Nat.add_comm 1]

/-- New is what occurs for the first time, unless it has been met. -/
theorem fresh_eq (seen : List Scenario) (i : Nat) (ss : List Scenario) :
    fresh seen i ss =
      ((distinct ss).filter fun s => !seen.contains s).map fun s => ⟨i + ss.idxOf s, s⟩ := by
  induction ss generalizing seen i with
  | nil => rfl
  | cons s ss ih =>
    rw [fresh]
    by_cases hfalse : s.hasStaticFalsehood = true
    · rw [if_pos (by simp [hfalse]), ih, distinct_cons_of_false hfalse, map_rank_cons]
      intro hs
      have hs : s ∈ distinct ss := (List.mem_filter.mp hs).1
      rw [(mem_distinct_iff.mp hs).2] at hfalse
      cases hfalse
    · have hfalse : s.hasStaticFalsehood = false := Bool.eq_false_iff.mpr hfalse
      rw [distinct_cons hfalse]
      by_cases hseen : s ∈ seen
      · -- what equals `s` has been met as well, so it may be dropped among the others
        have hrest : (distinct ss).filter (fun t => !seen.contains t) =
            ((distinct ss).filter fun t => !t == s).filter fun t => !seen.contains t := by
          rw [List.filter_filter]
          apply List.filter_congr
          intro t ht
          by_cases he : t = s <;> simp [he, hseen]
        rw [if_pos (by simp [hseen]), ih, List.filter_cons_of_neg (by simp [hseen]), hrest,
          map_rank_cons (by simp)]
      · have hrest : (distinct ss).filter (fun t => !(s :: seen).contains t) =
            ((distinct ss).filter fun t => !t == s).filter fun t => !seen.contains t := by
          rw [List.filter_filter]
          simp only [List.contains_cons, Bool.not_or, Bool.and_comm]
        rw [if_neg (by simp [hfalse, hseen]), ih, List.filter_cons_of_pos (by simp [hseen]), hrest,
          List.map_cons, map_rank_cons (by simp), List.idxOf_cons_self]
        rfl

theorem fresh_space (lists : List (List Constraint)) :
    fresh [] 0 (space lists) = firstOccurrences lists := by
  have hall : (distinct (space lists)).filter (fun s => !([] : List Scenario).contains s) =
      distinct (space lists) := List.filter_eq_self.mpr fun s _ => rfl
  rw [fresh_eq, hall, firstOccurrences]
  simp only [Nat.zero_add]

theorem of_mem_fresh {seen : List Scenario} {i : Nat} {ss : List Scenario} {x : IndexedScenario}
    (h : x ∈ fresh seen i ss) : i ≤ x.index ∧ x.scenario ∉ seen := by
  induction ss generalizing seen i with
  | nil => cases h
  | cons s ss ih =>
    rw [fresh] at h
    split at h
    next =>
      obtain ⟨hle, hnew⟩ := ih h
      exact ⟨Nat.le_of_succ_le hle, hnew⟩
    next hs =>
      rcases List.mem_cons.mp h with rfl | h
      · exact ⟨Nat.le_refl _, fun hm => hs (by simp [hm])⟩
      · obtain ⟨hle, hnew⟩ := ih h
        exact ⟨Nat.le_of_succ_le hle, fun hm => hnew (List.mem_cons_of_mem s hm)⟩

theorem pairwise_fresh (seen : List Scenario) (i : Nat) (ss : List Scenario) :
    (fresh seen i ss).Pairwise fun x y => x.index < y.index ∧ x.scenario ≠ y.scenario := by
  induction ss generalizing seen i with
  | nil => exact .nil
  | cons s ss ih =>
    rw [fresh]
    split
    next => exact ih seen (i + 1)
    next =>
      refine .cons (fun y hy => ?_) (ih (s :: seen) (i + 1))
      obtain ⟨hlt, hnew⟩ := of_mem_fresh hy
      exact ⟨hlt, fun he => hnew (by simp [← he])⟩

theorem pairwise_firstOccurrences (lists : List (List Constraint)) :
    (firstOccurrences lists).Pairwise fun x y => x.index < y.index ∧ x.scenario ≠ y.scenario :=
  fresh_space lists ▸ pairwise_fresh [] 0 (space lists)

end Enumeration
end LinearArith
