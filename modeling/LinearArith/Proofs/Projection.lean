import LinearArith.Proofs.Interval
import LinearArith.Proofs.Rows
import Mathlib.Algebra.Order.Field.Basic
import Mathlib.Tactic.Ring

/-! Eliminating an unknown is an exact projection: values of the other unknowns satisfy the rows that
are left if and only if some value of the eliminated one satisfies, with them, the rows there were. -/

namespace LinearArith

theorem LinComb.eval_update (v : String → Rat) (x : String) (q : Rat) (l : Linear) :
    l.eval (Function.update v x q) =
      l.eval (fun y => if y = x then 0 else v y) + l.coeff x * q := by
  have herase : (l.erase x).eval (Function.update v x q) =
      (l.erase x).eval (fun y => if y = x then 0 else v y) := by
    apply LinComb.eval_congr
    intro y hy
    rw [LinComb.mem_keys_iff, LinComb.coeff_erase] at hy
    have hne : y ≠ x := fun he => hy (if_pos he.symm)
    rw [Function.update_of_ne hne, if_neg hne]
  rw [LinComb.eval_erase, LinComb.eval_erase, Function.update_self, if_pos rfl, mul_zero,
    sub_zero] at herase
  linarith

theorem LinComb.eval_update_of_coeff {v : String → Rat} {x : String} {q : Rat} {l : Linear}
    (h : l.coeff x = 0) : l.eval (Function.update v x q) = l.eval v := by
  apply LinComb.eval_congr
  intro y hy
  have hne : y ≠ x := by
    rintro rfl
    exact LinComb.mem_keys_iff.mp hy h
  exact Function.update_of_ne hne q v

namespace Row

/-- The bound of a row, as the upper end of its left side. -/
def top (r : Row) : Limit := ⟨r.bound, r.strict⟩

theorem holdsAt_eq (v : String → Rat) (r : Row) :
    r.holdsAt v = r.top.admitsBelow (r.linear.eval v) := rfl

theorem holdsAt_update_of_coeff {v : String → Rat} {x : String} {q : Rat} {r : Row}
    (h : r.linear.coeff x = 0) : r.holdsAt (Function.update v x q) = r.holdsAt v := by
  rw [holdsAt_eq, holdsAt_eq, LinComb.eval_update_of_coeff h]

/-- The end that a row sets for `x` where the other unknowns have the values `v`. -/
def limitAt (x : String) (v : String → Rat) (r : Row) : Limit :=
  ⟨(r.bound - r.linear.eval fun y => if y = x then 0 else v y) / r.linear.coeff x, r.strict⟩

theorem holdsAt_update_of_pos {v : String → Rat} {x : String} {q : Rat} {r : Row}
    (h : 0 < r.linear.coeff x) :
    r.holdsAt (Function.update v x q) = (r.limitAt x v).admitsBelow q := by
  apply Bool.eq_iff_iff.mpr
  rw [holdsAt_iff, Limit.admitsBelow_iff, LinComb.eval_update]
  simp only [limitAt, lt_div_iff₀ h, le_div_iff₀ h]
  cases r.strict <;> simp only [if_true, Bool.false_eq_true, if_false] <;> constructor <;>
    intro hq <;> linarith

theorem holdsAt_update_of_neg {v : String → Rat} {x : String} {q : Rat} {r : Row}
    (h : r.linear.coeff x < 0) :
    r.holdsAt (Function.update v x q) = (r.limitAt x v).admitsAbove q := by
  apply Bool.eq_iff_iff.mpr
  rw [holdsAt_iff, Limit.admitsAbove_iff, LinComb.eval_update]
  simp only [limitAt, div_lt_iff_of_neg h, div_le_iff_of_neg h]
  cases r.strict <;> simp only [if_true, Bool.false_eq_true, if_false] <;> constructor <;>
    intro hq <;> linarith

theorem coeff_resolve {x : String} {upper lower : Row} (hu : 0 < upper.linear.coeff x)
    (hl : lower.linear.coeff x < 0) : (resolve x upper lower).linear.coeff x = 0 := by
  simp only [resolve, add, scale, LinComb.coeff_add, LinComb.coeff_scale]
  rw [mul_inv_cancel₀ hu.ne', inv_neg, mul_neg, mul_inv_cancel₀ hl.ne]
  ring

/-- A sum in which `x` cancels says that the ends set for `x` leave room. -/
theorem room_of_holdsAt_resolve {v : String → Rat} {x : String} {upper lower : Row}
    (hu : 0 < upper.linear.coeff x) (hl : lower.linear.coeff x < 0)
    (h : (resolve x upper lower).holdsAt v = true) :
    (lower.limitAt x v).Room (upper.limitAt x v) := by
  have heval : (resolve x upper lower).linear.eval v =
      (resolve x upper lower).linear.eval (Function.update v x 0) :=
    (LinComb.eval_update_of_coeff (coeff_resolve hu hl)).symm
  rw [holdsAt_iff, heval] at h
  simp only [resolve, add, scale, LinComb.eval_add, LinComb.eval_scale, LinComb.eval_update,
    mul_zero, add_zero, inv_neg] at h
  simp only [Limit.Room, limitAt, div_eq_mul_inv, Bool.or_comm lower.strict]
  cases hs : (upper.strict || lower.strict) <;>
    simp only [hs, if_true, Bool.false_eq_true, if_false] at h ⊢ <;> linarith

theorem tighter_cases {r s : Row} :
    tighter r s = true ∧ r.top.Within s.top ∨ tighter r s = false ∧ s.top.Within r.top := by
  by_cases h : tighter r s = true
  · refine Or.inl ⟨h, ?_⟩
    have h : r.bound < s.bound ∨ (r.bound = s.bound ∧ r.strict = true) ∧ s.strict = false := by
      simpa [tighter] using h
    exact h.imp id fun h => ⟨h.1.1, fun _ => h.1.2⟩
  · refine Or.inr ⟨by simpa using h, ?_⟩
    have h : s.bound ≤ r.bound ∧ (r.bound = s.bound → r.strict = true → s.strict = true) := by
      simpa [tighter] using h
    exact h.1.lt_or_eq.imp id fun he => ⟨he, h.2 he.symm⟩

/-- The left sides agree and `r` excludes all that `s` excludes. -/
def Covers (r s : Row) : Prop := r.linear = s.linear ∧ r.top.Within s.top

theorem Covers.holdsAt {r s : Row} (h : Covers r s) {v : String → Rat} (hr : r.holdsAt v = true) :
    s.holdsAt v = true := by
  rw [holdsAt_eq] at hr ⊢
  rw [← h.1]
  exact h.2.admitsBelow hr

theorem Covers.trans {r s t : Row} (hrs : Covers r s) (hst : Covers s t) : Covers r t :=
  ⟨hrs.1.trans hst.1, hrs.2.trans hst.2⟩

theorem exists_covers_place (b : Row) (kept : SortedBy Row.linear) :
    (∃ r ∈ (kept.place tighter b).toList, Covers r b) ∧
      ∀ a ∈ kept.toList, ∃ r ∈ (kept.place tighter b).toList, Covers r a := by
  have hself := SortedBy.find?_place_self tighter b kept
  constructor
  · obtain ⟨hmem, -⟩ := SortedBy.find?_eq_some_iff.mp hself
    refine ⟨_, hmem, ?_⟩
    cases hf : kept.find? b.linear with
    | none => exact ⟨rfl, Limit.Within.refl _⟩
    | some a =>
      have ha : a.linear = b.linear := (SortedBy.find?_eq_some_iff.mp hf).2
      rcases tighter_cases (r := b) (s := a) with ⟨ht, -⟩ | ⟨ht, hw⟩
      · simp only [ht, if_true]
        exact ⟨rfl, Limit.Within.refl _⟩
      · simp only [ht, Bool.false_eq_true, if_false]
        exact ⟨ha, hw⟩
  · intro a ha
    by_cases hk : b.linear = a.linear
    · have hf : kept.find? b.linear = some a := SortedBy.find?_eq_some_iff.mpr ⟨ha, hk.symm⟩
      obtain ⟨hmem, -⟩ := SortedBy.find?_eq_some_iff.mp hself
      refine ⟨_, hmem, ?_⟩
      -- whichever of the two is kept says what the other says
      rcases tighter_cases (r := b) (s := a) with ⟨ht, hw⟩ | ⟨ht, -⟩
      · simp only [hf, ht, if_true]
        exact ⟨hk, hw⟩
      · simp only [hf, ht, Bool.false_eq_true, if_false]
        exact ⟨rfl, Limit.Within.refl _⟩
    · have hf : kept.find? a.linear = some a := SortedBy.mem_iff_find?.mp ha
      rw [← SortedBy.find?_place_of_ne tighter hk] at hf
      exact ⟨a, SortedBy.mem_iff_find?.mpr hf, rfl, Limit.Within.refl _⟩

theorem exists_covers_foldl (rows : List Row) (kept : SortedBy Row.linear) :
    (∀ s ∈ rows, ∃ r ∈ (rows.foldl (fun kept r => kept.place tighter r.normalize) kept).toList,
      Covers r s.normalize) ∧
    ∀ a ∈ kept.toList,
      ∃ r ∈ (rows.foldl (fun kept r => kept.place tighter r.normalize) kept).toList, Covers r a := by
  induction rows generalizing kept with
  | nil => exact ⟨by simp, fun a ha => ⟨a, ha, rfl, Limit.Within.refl _⟩⟩
  | cons t rows ih =>
    obtain ⟨hrows, hkept⟩ := ih (kept.place tighter t.normalize)
    obtain ⟨⟨b, hb, hbt⟩, hold⟩ := exists_covers_place t.normalize kept
    rw [List.foldl_cons]
    constructor
    · intro s hs
      rcases List.mem_cons.mp hs with rfl | hs
      · obtain ⟨r, hr, hrb⟩ := hkept b hb
        exact ⟨r, hr, hrb.trans hbt⟩
      · exact hrows s hs
    · intro a ha
      obtain ⟨c, hc, hca⟩ := hold a ha
      obtain ⟨r, hr, hrc⟩ := hkept c hc
      exact ⟨r, hr, hrc.trans hca⟩

theorem forall_tightest_iff {v : String → Rat} {rows : List Row} :
    (∀ r ∈ tightest rows, r.holdsAt v = true) ↔ ∀ r ∈ rows, r.holdsAt v = true := by
  constructor
  · intro h s hs
    obtain ⟨r, hr, hc⟩ := (exists_covers_foldl rows SortedBy.empty).1 s hs
    rw [← holdsAt_normalize]
    exact hc.holdsAt (h r hr)
  · intro h r hr
    obtain ⟨s, hs, rfl⟩ := exists_of_mem_tightest hr
    rw [holdsAt_normalize]
    exact h s hs

end Row
namespace Elimination

theorem mentions_iff {x : String} {r : Row} : mentions x r = true ↔ r.linear.coeff x ≠ 0 :=
  LinComb.hasKey_iff

def lowsAt (x : String) (v : String → Rat) (rows : List Row) : List Limit :=
  (rows.filter fun r => r.linear.coeff x < 0).map (Row.limitAt x v)

def highsAt (x : String) (v : String → Rat) (rows : List Row) : List Limit :=
  (rows.filter fun r => 0 < r.linear.coeff x).map (Row.limitAt x v)

theorem forall_lowsAt_iff {x : String} {v : String → Rat} {rows : List Row} {P : Limit → Prop} :
    (∀ l ∈ lowsAt x v rows, P l) ↔ ∀ r ∈ rows, r.linear.coeff x < 0 → P (r.limitAt x v) := by
  simp only [lowsAt, List.mem_map, List.mem_filter, decide_eq_true_eq]
  exact ⟨fun h r hr hneg => h _ ⟨r, ⟨hr, hneg⟩, rfl⟩, fun h _ ⟨r, ⟨hr, hneg⟩, he⟩ => he ▸ h r hr hneg⟩

theorem forall_highsAt_iff {x : String} {v : String → Rat} {rows : List Row} {P : Limit → Prop} :
    (∀ u ∈ highsAt x v rows, P u) ↔ ∀ r ∈ rows, 0 < r.linear.coeff x → P (r.limitAt x v) := by
  simp only [highsAt, List.mem_map, List.mem_filter, decide_eq_true_eq]
  exact ⟨fun h r hr hpos => h _ ⟨r, ⟨hr, hpos⟩, rfl⟩, fun h _ ⟨r, ⟨hr, hpos⟩, he⟩ => he ▸ h r hr hpos⟩

/-- A value of `x` satisfies rows if and only if it lies between the ends they set and the rows
without `x` hold anyway. -/
theorem forall_holdsAt_update_iff {x : String} {v : String → Rat} {q : Rat} {rows : List Row} :
    (∀ r ∈ rows, r.holdsAt (Function.update v x q) = true) ↔
      (∀ r ∈ rows, r.linear.coeff x = 0 → r.holdsAt v = true) ∧
        Between (Limit.highest (lowsAt x v rows)) (Limit.lowest (highsAt x v rows)) q := by
  rw [Between, Limit.forall_highest_iff, Limit.forall_lowest_iff, forall_lowsAt_iff,
    forall_highsAt_iff]
  constructor
  · intro h
    refine ⟨fun r hr hz => ?_, fun r hr hneg => ?_, fun r hr hpos => ?_⟩
    · rw [← Row.holdsAt_update_of_coeff hz]
      exact h r hr
    · rw [← Row.holdsAt_update_of_neg hneg]
      exact h r hr
    · rw [← Row.holdsAt_update_of_pos hpos]
      exact h r hr
  · rintro ⟨hzero, hlow, hhigh⟩ r hr
    rcases lt_trichotomy (r.linear.coeff x) 0 with hneg | hz | hpos
    · rw [Row.holdsAt_update_of_neg hneg]
      exact hlow r hr hneg
    · rw [Row.holdsAt_update_of_coeff hz]
      exact hzero r hr hz
    · rw [Row.holdsAt_update_of_pos hpos]
      exact hhigh r hr hpos

/-- Where all sums in which `x` cancels hold, the ends set for `x` are those of an interval that is
not empty, and the value chosen lies in it. -/
theorem between_of_resolvents {x : String} {v : String → Rat} {rows : List Row}
    (h : ∀ r ∈ resolvents x rows, r.holdsAt v = true) :
    Between (Limit.highest (lowsAt x v rows)) (Limit.lowest (highsAt x v rows))
      (chooseBetween (Limit.highest (lowsAt x v rows)) (Limit.lowest (highsAt x v rows))) := by
  apply between_highest_lowest
  rw [forall_lowsAt_iff]
  intro lower hl hneg
  rw [forall_highsAt_iff]
  intro upper hu hpos
  exact Row.room_of_holdsAt_resolve hpos hneg
    (h _ (mem_resolvents_iff.mpr ⟨upper, hu, lower, hl, hpos, hneg, rfl⟩))

section Step
variable {x : String} {rows left : List Row} (hstep : project x rows = .ok left)
include hstep

theorem exists_of_mem_project {r : Row} (hr : r ∈ left) :
    ∃ s, r = s.normalize ∧ (s ∈ rows ∧ s.linear.coeff x = 0 ∨
      s ∈ resolvents x rows ∧ s.isConstant = false) := by
  rw [eq_of_project hstep] at hr
  obtain ⟨s, hs, rfl⟩ := Row.exists_of_mem_tightest hr
  refine ⟨s, rfl, ?_⟩
  rcases List.mem_append.mp hs with hs | hs
  · obtain ⟨hs, hm⟩ := List.mem_filter.mp hs
    refine Or.inl ⟨hs, ?_⟩
    by_contra hne
    rw [mentions_iff.mpr hne] at hm
    cases hm
  · obtain ⟨hs, hc⟩ := List.mem_filter.mp hs
    exact Or.inr ⟨hs, by simpa using hc⟩

/-- The rows that are left say what the rows without `x` and the sums in which it cancels say. -/
theorem forall_project_iff {v : String → Rat} :
    (∀ r ∈ left, r.holdsAt v = true) ↔
      (∀ r ∈ rows, r.linear.coeff x = 0 → r.holdsAt v = true) ∧
        ∀ r ∈ resolvents x rows, r.holdsAt v = true := by
  rw [eq_of_project hstep, Row.forall_tightest_iff]
  constructor
  · intro h
    refine ⟨fun r hr hz => h r ?_, fun r hr => ?_⟩
    · refine List.mem_append_left _ (List.mem_filter.mpr ⟨hr, ?_⟩)
      have hm : ¬mentions x r = true := fun hm => mentions_iff.mp hm hz
      simpa using hm
    · by_cases hc : r.isConstant = true
      · rw [Row.holdsAt_of_isConstant hc, not_isContradiction_of_project hstep r hr]
        rfl
      · exact h r (List.mem_append_right _ (List.mem_filter.mpr ⟨hr, by simpa using hc⟩))
  · rintro ⟨hzero, hres⟩ r hr
    rcases List.mem_append.mp hr with hr | hr
    · obtain ⟨hr, hm⟩ := List.mem_filter.mp hr
      refine hzero r hr ?_
      by_contra hne
      rw [mentions_iff.mpr hne] at hm
      cases hm
    · exact hres r (List.mem_filter.mp hr).1

theorem coeff_eq_zero_of_mem_project {r : Row} (hr : r ∈ left) : r.linear.coeff x = 0 := by
  have hstable : Row.Stable fun r => r.linear.coeff x = 0 :=
    ⟨fun _ h => by rw [Row.scale, LinComb.coeff_scale, h, zero_mul],
      fun hr hs => by rw [Row.add, LinComb.coeff_add, hr, hs, add_zero]⟩
  obtain ⟨s, rfl, hs⟩ := exists_of_mem_project hstep hr
  apply hstable.normalize
  rcases hs with ⟨-, hz⟩ | ⟨hs, -⟩
  · exact hz
  · obtain ⟨upper, -, lower, -, hpos, hneg, rfl⟩ := mem_resolvents_iff.mp hs
    exact Row.coeff_resolve hpos hneg

end Step

end Elimination
end LinearArith
