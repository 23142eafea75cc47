import LinearArith.Elimination
import Mathlib.Algebra.Order.Field.Rat
import Mathlib.Tactic.Linarith

/-! Intervals of rationals with open, closed or missing ends: the tightest of several ends says as
much as all of them, and an interval in which every two ends leave room is not empty. -/

namespace LinearArith

namespace Limit

theorem admitsAbove_iff {l : Limit} {q : Rat} :
    l.admitsAbove q = true ↔ if l.strict then l.value < q else l.value ≤ q := by
  unfold admitsAbove
  cases l.strict <;> simp

theorem admitsBelow_iff {l : Limit} {q : Rat} :
    l.admitsBelow q = true ↔ if l.strict then q < l.value else q ≤ l.value := by
  unfold admitsBelow
  cases l.strict <;> simp

/-- There is a value between the lower end `l` and the upper end `u`. -/
def Room (l u : Limit) : Prop :=
  if l.strict || u.strict then l.value < u.value else l.value ≤ u.value

/-- As an upper end, `a` excludes all that `b` excludes. -/
def Within (a b : Limit) : Prop :=
  a.value < b.value ∨ a.value = b.value ∧ (b.strict = true → a.strict = true)

theorem Within.refl (a : Limit) : Within a a := Or.inr ⟨rfl, id⟩

theorem Within.trans {a b c : Limit} (hab : Within a b) (hbc : Within b c) : Within a c := by
  rcases hab with hab | ⟨hab, hs⟩
  · rcases hbc with hbc | ⟨hbc, -⟩
    · exact Or.inl (hab.trans hbc)
    · exact Or.inl (hbc ▸ hab)
  · rcases hbc with hbc | ⟨hbc, ht⟩
    · exact Or.inl (hab ▸ hbc)
    · exact Or.inr ⟨hab.trans hbc, hs ∘ ht⟩

theorem Within.admitsBelow {a b : Limit} {q : Rat} (h : Within a b)
    (ha : a.admitsBelow q = true) : b.admitsBelow q = true := by
  rw [admitsBelow_iff] at ha ⊢
  have hle : q ≤ a.value := by
    split at ha
    · exact ha.le
    · exact ha
  rcases h with hlt | ⟨heq, hs⟩
  · split <;> linarith
  · by_cases hb : b.strict = true
    · rw [if_pos (hs hb)] at ha
      rw [if_pos hb]
      linarith
    · rw [if_neg hb]
      linarith

theorem lower_cases (a b : Limit) :
    a.lower b = b ∧ Within b a ∨ a.lower b = a ∧ Within a b := by
  unfold lower
  split
  next h =>
    have h : b.value < a.value ∨ b.value = a.value ∧ b.strict = true := by simpa using h
    exact Or.inl ⟨rfl, h.imp id fun h => ⟨h.1, fun _ => h.2⟩⟩
  next h =>
    have h : a.value ≤ b.value ∧ (b.value = a.value → b.strict = false) := by
      simpa [or_imp] using h
    refine Or.inr ⟨rfl, h.1.lt_or_eq.imp id fun he => ⟨he, fun hb => ?_⟩⟩
    rw [h.2 he.symm] at hb
    cases hb

theorem admitsBelow_lower {a b : Limit} {q : Rat} :
    (a.lower b).admitsBelow q = true ↔ a.admitsBelow q = true ∧ b.admitsBelow q = true := by
  rcases lower_cases a b with ⟨he, hw⟩ | ⟨he, hw⟩
  · rw [he]
    exact ⟨fun hb => ⟨hw.admitsBelow hb, hb⟩, And.right⟩
  · rw [he]
    exact ⟨fun ha => ⟨ha, hw.admitsBelow ha⟩, And.left⟩

def mirror (l : Limit) : Limit := ⟨-l.value, l.strict⟩

theorem admitsBelow_mirror (l : Limit) (q : Rat) : l.mirror.admitsBelow (-q) = l.admitsAbove q := by
  unfold mirror admitsBelow admitsAbove
  simp only [neg_lt_neg_iff, neg_le_neg_iff]

theorem mirror_higher (a b : Limit) : (a.higher b).mirror = a.mirror.lower b.mirror := by
  unfold higher lower mirror
  simp only [neg_lt_neg_iff, neg_inj]
  split <;> rfl

theorem higher_eq (a b : Limit) : a.higher b = b ∨ a.higher b = a := by
  unfold higher
  split
  · exact Or.inl rfl
  · exact Or.inr rfl

theorem admitsAbove_higher {a b : Limit} {q : Rat} :
    (a.higher b).admitsAbove q = true ↔ a.admitsAbove q = true ∧ b.admitsAbove q = true := by
  simp only [← admitsBelow_mirror, mirror_higher, admitsBelow_lower]

def lowest (ls : List Limit) : Option Limit :=
  ls.foldl (fun best b => some (best.elim b (·.lower b))) none

def highest (ls : List Limit) : Option Limit :=
  ls.foldl (fun best b => some (best.elim b (·.higher b))) none

section Fold
variable {f : Limit → Limit → Limit}

theorem mem_of_foldl (hf : ∀ a b, f a b = b ∨ f a b = a) {ls : List Limit} {start : Option Limit}
    {c : Limit} (h : ls.foldl (fun best b => some (best.elim b (f · b))) start = some c) :
    start = some c ∨ c ∈ ls := by
  induction ls generalizing start with
  | nil => exact Or.inl h
  | cons b ls ih =>
    rw [List.foldl_cons] at h
    rcases ih h with hb | hc
    · cases start with
      | none => exact Or.inr (by simp [(Option.some.inj hb).symm])
      | some a =>
        rcases hf a b with he | he
        · exact Or.inr (by simp [(Option.some.inj hb).symm, he])
        · exact Or.inl (by rw [← hb]; exact congrArg some he.symm)
    · exact Or.inr (by simp [hc])

/-- What is true of a selection exactly if it is true of both, is true of the selection from a list
exactly if it is true of all. -/
theorem forall_foldl_iff {P : Limit → Prop} (hP : ∀ a b, P (f a b) ↔ P a ∧ P b) {ls : List Limit}
    {start : Option Limit} :
    (∀ c ∈ ls.foldl (fun best b => some (best.elim b (f · b))) start, P c) ↔
      (∀ c ∈ start, P c) ∧ ∀ c ∈ ls, P c := by
  induction ls generalizing start with
  | nil => simp
  | cons b ls ih =>
    rw [List.foldl_cons, ih]
    cases start with
    | none => simp
    | some a => simp [hP, and_assoc]

end Fold

theorem mem_of_lowest {ls : List Limit} {c : Limit} (h : lowest ls = some c) : c ∈ ls := by
  have hf : ∀ a b : Limit, a.lower b = b ∨ a.lower b = a := fun a b =>
    (lower_cases a b).imp And.left And.left
  exact (mem_of_foldl hf h).resolve_left (by simp)

theorem mem_of_highest {ls : List Limit} {c : Limit} (h : highest ls = some c) : c ∈ ls :=
  (mem_of_foldl higher_eq h).resolve_left (by simp)

theorem forall_lowest_iff {ls : List Limit} {q : Rat} :
    (∀ u ∈ lowest ls, u.admitsBelow q = true) ↔ ∀ u ∈ ls, u.admitsBelow q = true := by
  rw [lowest, forall_foldl_iff fun a b => admitsBelow_lower]
  simp

theorem forall_highest_iff {ls : List Limit} {q : Rat} :
    (∀ l ∈ highest ls, l.admitsAbove q = true) ↔ ∀ l ∈ ls, l.admitsAbove q = true := by
  rw [highest, forall_foldl_iff fun a b => admitsAbove_higher]
  simp

end Limit

def Between (lower upper : Option Limit) (q : Rat) : Prop :=
  (∀ l ∈ lower, l.admitsAbove q = true) ∧ ∀ u ∈ upper, u.admitsBelow q = true

/-- The value chosen lies in the interval if the ends leave room. -/
theorem between_chooseBetween {lower upper : Option Limit}
    (h : ∀ l ∈ lower, ∀ u ∈ upper, l.Room u) : Between lower upper (chooseBetween lower upper) := by
  unfold chooseBetween
  split
  next hz =>
    obtain ⟨hl, hu⟩ := Bool.and_eq_true_iff.mp hz
    exact ⟨fun l hl' => by simpa [Option.mem_def.mp hl'] using hl,
      fun u hu' => by simpa [Option.mem_def.mp hu'] using hu⟩
  next =>
    cases lower with
    | none =>
      cases upper with
      | none => simp [Between]
      | some u =>
        rcases u with ⟨u, strict⟩
        cases strict <;> simp [Between, Limit.admitsBelow]
    | some l =>
      rcases l with ⟨l, lstrict⟩
      cases upper with
      | none => cases lstrict <;> simp [Between, Limit.admitsAbove]
      | some u =>
        rcases u with ⟨u, ustrict⟩
        have hroom := h ⟨l, lstrict⟩ rfl ⟨u, ustrict⟩ rfl
        cases lstrict <;> cases ustrict <;>
          simp [Limit.Room, Between, Limit.admitsAbove, Limit.admitsBelow] at hroom ⊢
        · exact hroom
        · exact hroom
        · exact hroom
        · -- only between two open ends the middle is chosen
          constructor <;> linarith

theorem between_highest_lowest {lows highs : List Limit}
    (h : ∀ l ∈ lows, ∀ u ∈ highs, l.Room u) :
    Between (Limit.highest lows) (Limit.lowest highs)
      (chooseBetween (Limit.highest lows) (Limit.lowest highs)) :=
  between_chooseBetween fun _ hl _ hu =>
    h _ (Limit.mem_of_highest hl) _ (Limit.mem_of_lowest hu)

end LinearArith
