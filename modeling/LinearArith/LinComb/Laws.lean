import LinearArith.LinComb
import LinearArith.SortedBy.Lookup

/-! What the operations on linear combinations do to coefficients and to values. The main statements
are `coeff_add`, `eval_add` and their kin for the other operations, and `eq_of_coeff_eq`:
coefficients determine a combination of keys. -/

namespace LinearArith
namespace LinComb
variable {α κ : Type} [Ord κ] {key : α → κ}

@[simp] theorem coeff_empty (k : κ) : (empty : LinComb key).coeff k = 0 := rfl

@[simp] theorem eval_empty (v : κ → Rat) : (empty : LinComb key).eval v = 0 := rfl

theorem coeff_scale (q : Rat) (k : κ) (l : LinComb key) : (l.scale q).coeff k = l.coeff k * q := by
  unfold scale
  split
  next h => rw [h, Rat.mul_zero, coeff_empty]
  next h =>
    simp only [coeff, SortedBy.find?_map (fun e : α × Rat => (e.1, e.2 * q)) (fun _ => rfl)]
    cases l.find? k <;> simp

theorem eval_scale (v : κ → Rat) (q : Rat) (l : LinComb key) :
    (l.scale q).eval v = l.eval v * q := by
  unfold scale
  split
  next h => rw [h, Rat.mul_zero, eval_empty]
  next h =>
    simp only [eval, SortedBy.toList_map]
    induction l.toList with
    | nil => simp
    | cons e es ih => simp only [List.map_cons, total_cons, ih]; grind

theorem toList_scale {q : Rat} (hq : q ≠ 0) (l : LinComb key) :
    (l.scale q).toList = l.toList.map fun e => (e.1, e.2 * q) := by
  rw [scale, dif_neg hq]
  rfl

theorem coeff_names (k : κ) (l : LinComb key) : l.names.coeff k = l.coeff k := by
  simp only [coeff, names, SortedBy.find?_map (fun e : α × Rat => (key e.1, e.2)) (fun _ => rfl)]
  cases l.find? k <;> rfl

theorem eval_names (v : κ → Rat) (l : LinComb key) : l.names.eval v = l.eval v := by
  simp only [eval, total, names, SortedBy.toList_map, List.foldr_map, id]

theorem eval_congr {v w : κ → Rat} {l : LinComb key} (h : ∀ k ∈ l.keys, v k = w k) :
    l.eval v = l.eval w :=
  total_congr fun e he => h (key e.1) (List.mem_map.2 ⟨e, he, rfl⟩)

theorem isEmpty_iff {l : LinComb key} : l.isEmpty = true ↔ l = empty := by
  constructor
  · intro h
    exact ext (List.isEmpty_iff.1 h)
  · rintro rfl
    rfl

variable [Std.LawfulEqOrd κ]

theorem coeff_of_mem {e : α × Rat} {l : LinComb key} (h : e ∈ l.toList) :
    l.coeff (key e.1) = e.2 := by
  have : l.find? (key e.1) = some e := SortedBy.mem_iff_find?.1 h
  simp [coeff, this]

theorem mem_keys_iff {k : κ} {l : LinComb key} : k ∈ l.keys ↔ l.coeff k ≠ 0 := by
  simp only [keys, List.mem_map]
  constructor
  · rintro ⟨e, he, rfl⟩
    rw [coeff_of_mem he]
    exact l.nonzero e he
  · intro h
    cases hf : l.find? k with
    | none => exact absurd (by simp [coeff, hf]) h
    | some e => exact ⟨e, SortedBy.find?_eq_some_iff.1 hf⟩

theorem hasKey_iff {k : κ} {l : LinComb key} : l.hasKey k = true ↔ l.coeff k ≠ 0 := by
  rw [← mem_keys_iff, SortedBy.hasKey_iff, keys, List.mem_map]

theorem eq_empty_of_coeff {l : LinComb key} (h : ∀ k, l.coeff k = 0) : l = empty := by
  apply ext
  apply List.eq_nil_iff_forall_not_mem.2
  intro e he
  exact l.nonzero e he (by rw [← coeff_of_mem he, h])

theorem key_label (a : α) (l : LinComb key) : key (l.label a) = key a := by
  unfold label
  cases h : l.find? (key a) with
  | none => rfl
  | some e => exact (SortedBy.find?_eq_some_iff.1 h).2

/-- Without the summand of `k`, the value is less by what that summand contributes. -/
theorem total_filter_ne (v : κ → Rat) (k : κ) {es : List (α × Rat)}
    (h : es.Pairwise fun d e => compare (key d.1) (key e.1) = .lt) :
    total key v (es.filter fun e => compare (key e.1) k != .eq) =
      total key v es - ((es.find? fun e => compare (key e.1) k == .eq).map (·.2)).getD 0 * v k := by
  induction es with
  | nil => simp only [List.filter_nil, List.find?_nil, total_nil]; grind
  | cons e es ih =>
    obtain ⟨he, hes⟩ := List.pairwise_cons.1 h
    by_cases hk : key e.1 = k
    · subst hk
      have hf : es.filter (fun d => compare (key d.1) (key e.1) != .eq) = es := by
        refine List.filter_eq_self.2 fun d hd => ?_
        have hlt := he d hd
        have : key e.1 ≠ key d.1 := by intro hh; rw [hh] at hlt; simp at hlt
        simpa using Ne.symm this
      rw [List.filter_cons_of_neg (by simp), hf, List.find?_cons_of_pos (by simp)]
      simp only [total_cons, Option.map_some, Option.getD_some]
      grind
    · have := ih hes
      rw [List.filter_cons_of_pos (by simpa using hk), List.find?_cons_of_neg (by simpa using hk)]
      simp only [total_cons, this]
      grind

theorem eval_erase (v : κ → Rat) (k : κ) (l : LinComb key) :
    (l.erase k).eval v = l.eval v - l.coeff k * v k :=
  total_filter_ne v k l.ascending

section Decidable
variable [DecidableEq κ]

/-- A coefficient is the value where its key has the value 1 and all others have 0. -/
theorem coeff_eq_eval (k : κ) (l : LinComb key) :
    l.coeff k = l.eval fun j => if j = k then 1 else 0 := by
  have h : (l.erase k).eval (fun j => if j = k then 1 else 0) = 0 :=
    total_eq_zero fun e he => by simpa using (List.mem_filter.1 he).2
  rw [eval_erase] at h
  simp only [if_true] at h
  grind

theorem coeff_erase (j k : κ) (l : LinComb key) :
    (l.erase j).coeff k = if j = k then 0 else l.coeff k := by
  simp only [coeff, erase, SortedBy.find?_erase]
  split <;> simp

end Decidable

variable [Std.TransOrd κ]

theorem total_placeIn (v : κ → Rat) (b : α × Rat) {es : List (α × Rat)}
    (h : es.Pairwise fun d e => compare (key d.1) (key e.1) = .lt) :
    total key v (SortedBy.placeIn (fun e : α × Rat => key e.1) (fun _ _ => true) b es) =
      total key v (es.filter fun e => compare (key e.1) (key b.1) != .eq) + b.2 * v (key b.1) := by
  induction es with
  | nil => simp only [SortedBy.placeIn, List.filter_nil, total_cons, total_nil]; grind
  | cons e es ih =>
    obtain ⟨he, hes⟩ := List.pairwise_cons.1 h
    rw [SortedBy.placeIn]
    split
    next hb =>
      -- all keys are above that of `b`, so none of them is dropped
      have hf : (e :: es).filter (fun d => compare (key d.1) (key b.1) != .eq) = e :: es := by
        refine List.filter_eq_self.2 fun d hd => ?_
        have hbd : compare (key b.1) (key d.1) = .lt := by
          rcases List.mem_cons.1 hd with rfl | hd
          · exact hb
          · exact Std.TransCmp.lt_trans hb (he d hd)
        simp [Std.OrientedCmp.gt_of_lt hbd]
      rw [hf]
      simp only [total_cons]
      grind
    next hb =>
      have hb : key b.1 = key e.1 := by simpa using hb
      have hf : es.filter (fun d => compare (key d.1) (key b.1) != .eq) = es :=
        List.filter_eq_self.2 fun d hd => by
          rw [hb]
          simp [Std.OrientedCmp.gt_of_lt (he d hd)]
      rw [List.filter_cons_of_neg (by simp [hb]), hf]
      simp only [if_true, total_cons]
      grind
    next hb =>
      have heb : compare (key e.1) (key b.1) = .lt := Std.OrientedCmp.lt_of_gt hb
      rw [List.filter_cons_of_pos (by simp [heb])]
      simp only [total_cons, ih hes]
      grind

theorem eval_set (v : κ → Rat) (a : α) (q : Rat) (hq : q ≠ 0) (l : LinComb key) :
    (l.set a q hq).eval v = l.eval v + (q - l.coeff (key a)) * v (key a) := by
  have h : (l.set a q hq).eval v = (l.erase (key a)).eval v + q * v (key a) :=
    total_placeIn v (a, q) l.ascending
  rw [h, eval_erase]
  grind

theorem eval_single (v : κ → Rat) (a : α) (q : Rat) :
    (single a q : LinComb key).eval v = q * v (key a) := by
  unfold single
  split
  next h => simp [h]
  next h => rw [eval_set, eval_empty, coeff_empty]; grind

theorem eval_addTerm (v : κ → Rat) (a : α) (q : Rat) (l : LinComb key) :
    (l.addTerm a q).eval v = l.eval v + q * v (key a) := by
  unfold addTerm
  split
  next h => rw [eval_erase]; grind
  next h => rw [eval_set, key_label a l]; grind

theorem eval_foldl_addTerm (v : κ → Rat) (es : List (α × Rat)) (l : LinComb key) :
    (es.foldl (fun s e => s.addTerm e.1 e.2) l).eval v = l.eval v + total key v es := by
  induction es generalizing l with
  | nil => exact (Rat.add_zero _).symm
  | cons e es ih => rw [List.foldl_cons, ih, eval_addTerm, total_cons, Rat.add_assoc]

theorem eval_add (v : κ → Rat) (l m : LinComb key) : (l.add m).eval v = l.eval v + m.eval v :=
  eval_foldl_addTerm v m.toList l

/-- Coefficients determine a combination of keys. -/
theorem eq_of_coeff_eq {l m : LinComb (id : κ → κ)} (h : ∀ k, l.coeff k = m.coeff k) : l = m := by
  have sub : ∀ {l m : LinComb (id : κ → κ)}, (∀ k, l.coeff k = m.coeff k) →
      ∀ e ∈ l.toList, e ∈ m.toList := by
    intro l m h e he
    have hl : l.coeff e.1 = e.2 := coeff_of_mem he
    obtain ⟨d, hd, hk⟩ := List.mem_map.1 (mem_keys_iff.2 (by
      rw [← h, hl]; exact l.nonzero e he) : e.1 ∈ m.keys)
    have hm : m.coeff d.1 = d.2 := coeff_of_mem hd
    have hk : d.1 = e.1 := hk
    have hq : d.2 = e.2 := by rw [← hm, ← hl, h, hk]
    rwa [← show d = e from Prod.ext hk hq]
  have : l.toSortedBy = m.toSortedBy :=
    SortedBy.eq_of_mem_iff fun e => ⟨sub h e, sub (fun k => (h k).symm) e⟩
  exact ext (congrArg SortedBy.toList this)

theorem scale_one (l : LinComb (id : κ → κ)) : l.scale 1 = l :=
  eq_of_coeff_eq fun k => by rw [coeff_scale, Rat.mul_one]

theorem scale_scale (p q : Rat) (l : LinComb (id : κ → κ)) :
    (l.scale p).scale q = l.scale (p * q) :=
  eq_of_coeff_eq fun k => by rw [coeff_scale, coeff_scale, coeff_scale, Rat.mul_assoc]

variable [DecidableEq κ]

theorem coeff_set (a : α) (q : Rat) (hq : q ≠ 0) (k : κ) (l : LinComb key) :
    (l.set a q hq).coeff k = if key a = k then q else l.coeff k := by
  simp only [coeff, set, SortedBy.find?_insert]
  split <;> simp

theorem coeff_single (a : α) (q : Rat) (k : κ) :
    (single a q : LinComb key).coeff k = if key a = k then q else 0 := by
  unfold single
  split
  next h => simp [h]
  next h => simp [coeff_set]

theorem coeff_addTerm (a : α) (q : Rat) (k : κ) (l : LinComb key) :
    (l.addTerm a q).coeff k = l.coeff k + if key a = k then q else 0 := by
  simp only [coeff_eq_eval, eval_addTerm]
  split <;> grind

theorem coeff_add (k : κ) (l m : LinComb key) : (l.add m).coeff k = l.coeff k + m.coeff k := by
  simp only [coeff_eq_eval, eval_add]

end LinComb
end LinearArith
