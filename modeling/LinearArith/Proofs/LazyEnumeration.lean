import LinearArith.Proofs.FirstOccurrence

/-! What an enumeration gives, call by call: the distinct scenarios of the product, from the first
on. An odometer that moves on and the memory of what was met are enough for that. -/

namespace LinearArith
namespace Enumeration

def pending (e : Enumeration) : List Scenario :=
  (e.odometer.elim [] Odometer.picks).map SortedBy.ofList

def upcoming (e : Enumeration) : List IndexedScenario := fresh e.seen e.visited e.pending

theorem pending_of_some {e : Enumeration} {o : Odometer Constraint} (h : e.odometer = some o) :
    e.pending = o.scenario :: (e.advance o).pending := by
  rw [pending, h, Option.elim, Odometer.picks_eq]
  rfl

theorem upcoming_of_none {e : Enumeration} (h : e.odometer = none) : e.upcoming = [] := by
  rw [upcoming, pending, h]
  rfl

theorem length_pending (e : Enumeration) : e.pending.length = e.remaining := by
  rw [pending, remaining, List.length_map]
  cases e.odometer with
  | none => rfl
  | some o => exact o.length_picks

/-- Calls lead from `e` to `later`: they give the scenarios `found`, which are the first `n` of those
to come, and account for every pick they look at. -/
structure Progress (n : Nat) (e : Enumeration) (found : List IndexedScenario)
    (later : Enumeration) : Prop where
  found_eq : found = e.upcoming.take n
  upcoming_eq : later.upcoming = e.upcoming.drop n
  counted : later.visited + e.discarded + e.duplicates =
    e.visited + later.discarded + later.duplicates + found.length
  picks : later.visited + later.remaining = e.visited + e.remaining
  lists : later.lists = e.lists

namespace Progress

theorem refl (e : Enumeration) : Progress 0 e [] e := ⟨rfl, rfl, rfl, rfl, rfl⟩

theorem trans {m n : Nat} {e e' e'' : Enumeration} {found found' : List IndexedScenario}
    (h : Progress m e found e') (h' : Progress n e' found' e'') :
    Progress (m + n) e (found ++ found') e'' where
  found_eq := by rw [h.found_eq, h'.found_eq, h.upcoming_eq, List.take_add]
  upcoming_eq := by rw [h'.upcoming_eq, h.upcoming_eq, List.drop_drop]
  counted := by
    have := h.counted
    have := h'.counted
    rw [List.length_append]
    omega
  picks := h'.picks.trans h.picks
  lists := h'.lists.trans h.lists

theorem of_none {e : Enumeration} (h : e.odometer = none) : Progress 1 e [] e where
  found_eq := by rw [upcoming_of_none h]; rfl
  upcoming_eq := by rw [upcoming_of_none h]; rfl
  counted := rfl
  picks := rfl
  lists := rfl

variable {e : Enumeration} {o : Odometer Constraint}

theorem of_skipped (h : e.odometer = some o)
    (hs : (o.scenario.hasStaticFalsehood || e.seen.contains o.scenario) = true) {d p : Nat}
    (hc : d + p = e.discarded + e.duplicates + 1) :
    Progress 0 e [] { e.advance o with discarded := d, duplicates := p } where
  found_eq := rfl
  upcoming_eq := by
    rw [List.drop_zero, upcoming, upcoming, pending_of_some h, fresh, if_pos hs]
    rfl
  counted := by
    change e.visited + 1 + e.discarded + e.duplicates = e.visited + d + p + 0
    omega
  picks := by
    have hr : (e.advance o).remaining + 1 = e.remaining := remaining_advance h
    change e.visited + 1 + (e.advance o).remaining = e.visited + e.remaining
    omega
  lists := rfl

theorem of_found (h : e.odometer = some o)
    (hs : (o.scenario.hasStaticFalsehood || e.seen.contains o.scenario) = false) :
    Progress 1 e [⟨e.visited, o.scenario⟩] { e.advance o with seen := o.scenario :: e.seen } where
  found_eq := by
    rw [upcoming, pending_of_some h, fresh, hs]
    rfl
  upcoming_eq := by
    rw [upcoming, upcoming, pending_of_some h, fresh, hs]
    rfl
  counted := by
    change e.visited + 1 + e.discarded + e.duplicates =
      e.visited + e.discarded + e.duplicates + 1
    omega
  picks := by
    have hr : (e.advance o).remaining + 1 = e.remaining := remaining_advance h
    change e.visited + 1 + (e.advance o).remaining = e.visited + e.remaining
    omega
  lists := rfl

end Progress

/-- A call gives the first scenario of those to come, if there is one. -/
theorem progress_next (e : Enumeration) : Progress 1 e e.next.1.toList e.next.2 := by
  fun_induction next e with
  | case1 e h => exact .of_none h
  | case2 e o h hlt s hs ih =>
    have hskip : (o.scenario.hasStaticFalsehood || e.seen.contains o.scenario) = true :=
      Bool.or_eq_true_iff.mpr (Or.inl hs)
    have hc : e.discarded + 1 + e.duplicates = e.discarded + e.duplicates + 1 := by omega
    exact (Progress.of_skipped h hskip hc).trans ih
  | case3 e o h hlt s hs hseen ih =>
    have hskip : (o.scenario.hasStaticFalsehood || e.seen.contains o.scenario) = true :=
      Bool.or_eq_true_iff.mpr (Or.inr hseen)
    have hc : e.discarded + (e.duplicates + 1) = e.discarded + e.duplicates + 1 := rfl
    exact (Progress.of_skipped h hskip hc).trans ih
  | case4 e o h hlt s hs hseen =>
    have hfound : (o.scenario.hasStaticFalsehood || e.seen.contains o.scenario) = false :=
      Bool.or_eq_false_iff.mpr ⟨Bool.eq_false_iff.mpr hs, Bool.eq_false_iff.mpr hseen⟩
    exact .of_found h hfound

def run : Nat → Enumeration → List IndexedScenario × Enumeration
  | 0, e => ([], e)
  | n + 1, e => (e.next.1.toList ++ (run n e.next.2).1, (run n e.next.2).2)

theorem progress_run (n : Nat) (e : Enumeration) : Progress n e (run n e).1 (run n e).2 := by
  induction n generalizing e with
  | zero => exact .refl e
  | succ n ih =>
    have h : Progress (1 + n) e (e.next.1.toList ++ (run n e.next.2).1) (run n e.next.2).2 :=
      e.progress_next.trans (ih e.next.2)
    rwa [Nat.add_comm] at h

theorem next_of_odometer_none {e : Enumeration} (h : e.odometer = none) : e.next = (none, e) := by
  rw [next]
  split
  next => rfl
  next o ho =>
    rw [h] at ho
    cases ho

theorem odometer_of_next_none {e : Enumeration} (h : e.next.1 = none) :
    e.next.2.odometer = none := by
  fun_induction next e with
  | case1 e hn => exact hn
  | case2 e o ho hlt s hs ih => exact ih h
  | case3 e o ho hlt s hs hseen ih => exact ih h
  | case4 e o ho hlt s hs hseen => cases h

theorem run_of_odometer_none {e : Enumeration} (h : e.odometer = none) (n : Nat) :
    run n e = ([], e) := by
  induction n with
  | zero => rfl
  | succ n ih =>
    rw [run, next_of_odometer_none h, ih]
    rfl

theorem toList_of_next_none {e later : Enumeration} (h : e.next = (none, later)) :
    e.toList = [] := by
  rw [toList]
  split
  next => rfl
  next s later' h' =>
    rw [h] at h'
    cases h'

theorem toList_of_next_some {e later : Enumeration} {s : IndexedScenario}
    (h : e.next = (some s, later)) : e.toList = s :: later.toList := by
  rw [toList]
  split
  next h' =>
    rw [h] at h'
    cases h'
  next s' later' h' =>
    obtain ⟨rfl, rfl⟩ : s = s' ∧ later = later' := by simpa using h.symm.trans h'
    rfl

theorem toList_eq_upcoming (e : Enumeration) : e.toList = e.upcoming := by
  induction hr : e.remaining using Nat.strongRecOn generalizing e with
  | _ n ih =>
    have hp : Progress 1 e e.next.1.toList e.next.2 := e.progress_next
    have hup : e.upcoming = e.next.1.toList ++ e.next.2.upcoming := by
      rw [hp.found_eq, hp.upcoming_eq, List.take_append_drop]
    cases hn : e.next.1 with
    | none =>
      have hnone : e.next = (none, e.next.2) := Prod.ext hn rfl
      rw [toList_of_next_none hnone, hup, hn, upcoming_of_none (odometer_of_next_none hn)]
      rfl
    | some s =>
      have hsome : e.next = (some s, e.next.2) := Prod.ext hn rfl
      have hlt : e.next.2.remaining < n := hr ▸ remaining_next_lt hn
      rw [toList_of_next_some hsome, hup, hn, ih _ hlt _ rfl]
      rfl

theorem upcoming_ofLists (lists : List (List Constraint)) :
    (ofLists lists).upcoming = firstOccurrences lists := by
  rw [upcoming, pending, ofLists, Odometer.picks_first?, ← fresh_space, space]

theorem toList_ofLists (lists : List (List Constraint)) :
    (ofLists lists).toList = firstOccurrences lists := by
  rw [toList_eq_upcoming, upcoming_ofLists]

theorem nodup_toList_ofLists (lists : List (List Constraint)) :
    ((ofLists lists).toList.map (·.scenario)).Nodup := by
  rw [toList_ofLists]
  exact List.pairwise_map.mpr ((pairwise_firstOccurrences lists).imp And.right)

theorem remaining_ofLists (lists : List (List Constraint)) :
    (ofLists lists).remaining = pickCount lists := by
  rw [← length_pending, pending, ofLists, Odometer.picks_first?, List.length_map, length_product]

theorem min_mul_min (a b m : Nat) : min (min a m * b) m = min (a * b) m := by
  rcases Nat.eq_zero_or_pos b with rfl | hb
  · simp
  · rcases Nat.le_total a m with h | h
    · rw [Nat.min_eq_left h]
    · have hm : m ≤ m * b := Nat.le_mul_of_pos_right m hb
      have ha : m ≤ a * b := Nat.le_trans hm (Nat.mul_le_mul_right b h)
      rw [Nat.min_eq_right h, Nat.min_eq_right hm, Nat.min_eq_right ha]

theorem foldl_min_mul {α : Type} (m n : Nat) (h : n ≤ m) (ls : List (List α)) :
    ls.foldl (fun n l => min (n * l.length) m) n = min (n * pickCount ls) m := by
  induction ls generalizing n with
  | nil => simp [h, pickCount]
  | cons l ls ih =>
    rw [List.foldl_cons, ih _ (Nat.min_le_right _ _), min_mul_min, pickCount, Nat.mul_assoc]

theorem spaceSize_eq (e : Enumeration) :
    e.spaceSize = min (pickCount e.lists) maxSize := by
  rw [spaceSize, foldl_min_mul _ _ (by decide), Nat.one_mul]

/-- However often it is called, an enumeration of option lists gives the distinct scenarios of their
product from the first on, with ranks that go up, and has counted every pick it has looked at. Once
it gives none it has looked at all of them, and from then on it gives none and stays as it is. -/
theorem run_ofLists_exact (lists : List (List Constraint)) (n : Nat) :
    ∃ found later, run n (ofLists lists) = (found, later) ∧
      found = (firstOccurrences lists).take n ∧
      found.Pairwise (fun x y => x.index < y.index) ∧
      later.visited = found.length + later.discarded + later.duplicates ∧
      later.visited ≤ pickCount lists ∧
      (later.next.1 = none →
        later.next.2.visited = pickCount lists ∧
          ∀ m, run m later.next.2 = ([], later.next.2)) ∧
      later.spaceSize = min (pickCount lists) maxSize := by
  obtain ⟨⟨found, later⟩, hrun⟩ : ∃ r, run n (ofLists lists) = r := ⟨_, rfl⟩
  have hp : Progress n (ofLists lists) found later := by
    have hp := progress_run n (ofLists lists)
    rwa [hrun] at hp
  have hfound : found = (firstOccurrences lists).take n := by
    rw [hp.found_eq, upcoming_ofLists]
  have hpicks : later.visited + later.remaining = pickCount lists := by
    rw [hp.picks, remaining_ofLists]
    exact Nat.zero_add _
  refine ⟨found, later, hrun, hfound, ?_, ?_, Nat.le.intro hpicks, fun hnone => ?_, ?_⟩
  · rw [hfound]
    exact ((pairwise_firstOccurrences lists).imp And.left).take
  · have hcounted : later.visited + 0 + 0 = 0 + later.discarded + later.duplicates + found.length :=
      hp.counted
    omega
  · have hspent : later.next.2.odometer = none := odometer_of_next_none hnone
    have hnext : later.next.2.visited + later.next.2.remaining = later.visited + later.remaining :=
      later.progress_next.picks
    have hzero : later.next.2.remaining = 0 := by rw [remaining, hspent]; rfl
    exact ⟨by omega, run_of_odometer_none hspent⟩
  · rw [spaceSize_eq, hp.lists]
    rfl

/-- Two lists with the same two options have a pick that is met twice and given once. -/
theorem run_of_mirrored_options :
    ∃ found later, run 3 (ofLists [[.single "x" 1 .lt 0, .single "x" 1 .gt 0],
        [.single "x" 1 .lt 0, .single "x" 1 .gt 0]]) = (found, later) ∧
      found.map (·.index) = [0, 1, 3] ∧ later.next.1 = none ∧ later.next.2.visited = 4 := by
  obtain ⟨found, later, hrun, hfound, -, -, -, hlast, -⟩ :=
    run_ofLists_exact [[.single "x" 1 .lt 0, .single "x" 1 .gt 0],
      [.single "x" 1 .lt 0, .single "x" 1 .gt 0]] 3
  have hindex : found.map (·.index) = [0, 1, 3] := by
    rw [hfound]
    decide +kernel
  have hnone : (run 3 (ofLists [[.single "x" 1 .lt 0, .single "x" 1 .gt 0],
      [.single "x" 1 .lt 0, .single "x" 1 .gt 0]])).2.next.1 = none := by decide +kernel
  rw [hrun] at hnone
  exact ⟨found, later, hrun, hindex, hnone, (hlast hnone).1⟩

end Enumeration
end LinearArith
