import LinearArith.SortedBy

/-! What look-ups in an ascending list find after each operation. The main statements are
`find?_place_self` and `find?_place_of_ne`, and `eq_of_mem_iff` and `eq_of_find?_eq`: members and
look-ups determine the list. -/

namespace LinearArith
namespace SortedBy
variable {α κ : Type} [Ord κ] {key : α → κ}

theorem find?_map {β : Type} {key' : β → κ} (f : α → β) (hf : ∀ a, key' (f a) = key a) (k : κ)
    (s : SortedBy key) :
    (s.map f (by intro a b h; rwa [hf, hf]) : SortedBy key').find? k = (s.find? k).map f := by
  simp only [find?, toList_map, List.find?_map, Function.comp_def, hf]

variable [Std.LawfulEqOrd κ]

theorem find?_eq_none_iff {k : κ} {s : SortedBy key} :
    s.find? k = none ↔ ∀ a ∈ s.toList, key a ≠ k := by
  simp [find?]

theorem find?_of_pairwise {a : α} {l : List α}
    (hl : l.Pairwise fun a b => compare (key a) (key b) = .lt) (h : a ∈ l) :
    l.find? (fun b => compare (key b) (key a) == .eq) = some a := by
  induction l with
  | nil => simp at h
  | cons b l ih =>
    obtain ⟨hb, hl⟩ := List.pairwise_cons.1 hl
    rcases List.mem_cons.1 h with rfl | h
    · simp
    · rw [List.find?_cons_of_neg (by simp [hb a h]), ih hl h]

theorem find?_eq_some_iff {k : κ} {a : α} {s : SortedBy key} :
    s.find? k = some a ↔ a ∈ s.toList ∧ key a = k := by
  constructor
  · intro h
    exact ⟨List.mem_of_find?_eq_some h, by simpa using List.find?_some h⟩
  · rintro ⟨h, rfl⟩
    exact find?_of_pairwise s.ascending h

theorem mem_iff_find? {a : α} {s : SortedBy key} : a ∈ s.toList ↔ s.find? (key a) = some a := by
  simp [find?_eq_some_iff]

theorem hasKey_iff {k : κ} {s : SortedBy key} :
    s.hasKey k = true ↔ ∃ a ∈ s.toList, key a = k := by
  simp [hasKey, find?]

theorem find?_erase [DecidableEq κ] (j k : κ) (s : SortedBy key) :
    (s.erase j).find? k = if j = k then none else s.find? k := by
  simp only [erase, find?, toList_filter, List.find?_filter]
  split
  next h => subst h; simp
  next h =>
    congr 1; funext a
    by_cases ha : key a = k
    · subst ha; simp [Ne.symm h]
    · simp [ha]

theorem find?_placeIn_of_ne (wins : α → α → Bool) {b : α} {k : κ} (hk : key b ≠ k) (l : List α) :
    (placeIn key wins b l).find? (fun a => compare (key a) k == .eq) =
      l.find? fun a => compare (key a) k == .eq := by
  induction l with
  | nil => simp [placeIn, hk]
  | cons a l ih =>
    rw [placeIn]
    split
    next => rw [List.find?_cons_of_neg (by simpa using hk)]
    next hb =>
      have hb : key b = key a := by simpa using hb
      have hk' : key a ≠ k := hb ▸ hk
      rw [List.find?_cons_of_neg (by split <;> simpa), List.find?_cons_of_neg (by simpa)]
    next => simp only [List.find?_cons, ih]

variable [Std.TransOrd κ]

theorem find?_placeIn_self (wins : α → α → Bool) (b : α) {l : List α}
    (h : l.Pairwise fun a b => compare (key a) (key b) = .lt) :
    (placeIn key wins b l).find? (fun a => compare (key a) (key b) == .eq) =
      some (match l.find? fun a => compare (key a) (key b) == .eq with
        | none => b
        | some a => if wins b a then b else a) := by
  induction l with
  | nil => simp [placeIn]
  | cons a l ih =>
    obtain ⟨ha, hl⟩ := List.pairwise_cons.1 h
    rw [placeIn]
    split
    next hb =>
      have hlt : ∀ c ∈ a :: l, compare (key b) (key c) = .lt := fun c hc => by
        rcases List.mem_cons.1 hc with rfl | hc
        · exact hb
        · exact Std.TransCmp.lt_trans hb (ha c hc)
      have hnone : (a :: l).find? (fun a => compare (key a) (key b) == .eq) = none :=
        List.find?_eq_none.2 fun c hc => by
          simp [Std.OrientedCmp.gt_of_lt (hlt c hc)]
      rw [hnone]; simp
    next hb =>
      have hb : key b = key a := by simpa using hb
      by_cases hw : wins b a <;> simp [hb, hw]
    next hb =>
      have hba : compare (key a) (key b) = .lt := Std.OrientedCmp.lt_of_gt hb
      rw [List.find?_cons_of_neg (by simp [hba]), List.find?_cons_of_neg (by simp [hba]), ih hl]

theorem find?_place_of_ne (wins : α → α → Bool) {b : α} {k : κ} (hk : key b ≠ k)
    (s : SortedBy key) : (s.place wins b).find? k = s.find? k :=
  find?_placeIn_of_ne wins hk s.toList

theorem find?_place_self (wins : α → α → Bool) (b : α) (s : SortedBy key) :
    (s.place wins b).find? (key b) =
      some (match s.find? (key b) with
        | none => b
        | some a => if wins b a then b else a) :=
  find?_placeIn_self wins b s.ascending

theorem find?_insert [DecidableEq κ] (b : α) (k : κ) (s : SortedBy key) :
    (s.insert b).find? k = if key b = k then some b else s.find? k := by
  split
  next h => subst h; rw [insert, find?_place_self]; cases s.find? (key b) <;> simp
  next h => exact find?_place_of_ne _ h s

theorem find?_insertNew [DecidableEq κ] (b : α) (k : κ) (s : SortedBy key) :
    (s.insertNew b).find? k = if key b = k then some ((s.find? k).getD b) else s.find? k := by
  split
  next h => subst h; rw [insertNew, find?_place_self]; cases s.find? (key b) <;> simp
  next h => exact find?_place_of_ne _ h s

theorem eq_of_mem_iff {s t : SortedBy key} (h : ∀ a, a ∈ s.toList ↔ a ∈ t.toList) : s = t := by
  obtain ⟨l, hl⟩ := s
  obtain ⟨m, hm⟩ := t
  simp only at h
  congr 1
  induction l generalizing m with
  | nil => cases m with
    | nil => rfl
    | cons b m => simpa using (h b).2
  | cons a l ih =>
    cases m with
    | nil => simpa using (h a).1
    | cons b m =>
      obtain ⟨ha, hl'⟩ := List.pairwise_cons.1 hl
      obtain ⟨hb, hm'⟩ := List.pairwise_cons.1 hm
      have irrefl : ∀ c : α, compare (key c) (key c) ≠ .lt := by simp
      -- otherwise each of the two would stand behind the other
      have hab : a = b := by
        rcases List.mem_cons.1 ((h a).1 (by simp)) with e | e
        · exact e
        · rcases List.mem_cons.1 ((h b).2 (by simp)) with e' | e'
          · exact e'.symm
          · exact absurd (Std.TransCmp.lt_trans (hb a e) (ha b e')) (irrefl b)
      subst hab
      congr 1
      refine ih hl' m hm' fun c => ⟨fun hc => ?_, fun hc => ?_⟩
      · rcases List.mem_cons.1 ((h c).1 (by simp [hc])) with rfl | e
        · exact absurd (ha c hc) (irrefl c)
        · exact e
      · rcases List.mem_cons.1 ((h c).2 (by simp [hc])) with rfl | e
        · exact absurd (hb c hc) (irrefl c)
        · exact e

theorem insertNew_eq_self [DecidableEq κ] {b : α} {s : SortedBy key}
    (h : s.hasKey (key b) = true) : s.insertNew b = s := by
  obtain ⟨a, ha⟩ := Option.isSome_iff_exists.1 h
  refine eq_of_mem_iff fun c => ?_
  rw [mem_iff_find?, mem_iff_find?, find?_insertNew]
  split
  next hk => rw [← hk, ha, Option.getD_some]
  next => exact Iff.rfl

theorem eq_of_find?_eq {s t : SortedBy key} (h : ∀ k, s.find? k = t.find? k) : s = t :=
  eq_of_mem_iff fun a => by rw [mem_iff_find?, mem_iff_find?, h]

section Set
variable [DecidableEq κ]

theorem mem_insert_iff {a b : κ} {s : SortedBy (id : κ → κ)} :
    a ∈ (s.insert b).toList ↔ a = b ∨ a ∈ s.toList := by
  rw [mem_iff_find?, mem_iff_find?, find?_insert, id, id]
  by_cases h : b = a
  · simp [h]
  · simp [h, Ne.symm h]

theorem mem_ofList_iff {a : κ} {l : List κ} :
    a ∈ (ofList l : SortedBy (id : κ → κ)).toList ↔ a ∈ l := by
  have fold : ∀ s : SortedBy (id : κ → κ),
      a ∈ (l.foldl (fun s b => s.insert b) s).toList ↔ a ∈ s.toList ∨ a ∈ l := by
    induction l with
    | nil => simp
    | cons b l ih =>
      intro s
      rw [List.foldl_cons, ih, mem_insert_iff, List.mem_cons, or_assoc, or_left_comm]
  rw [ofList, fold]
  simp

end Set

end SortedBy
end LinearArith
