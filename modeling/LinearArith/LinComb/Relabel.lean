import LinearArith.LinComb.Laws
import LinearArith.SortedBy.Image
import Mathlib.Data.Prod.Basic

/-! Linear combinations of other labels: where different keys stay different, coefficients and values
are those of the old keys, and the operations can be made before or after. A summand is looked up
under its key, so it does not matter that the summands change places. -/

namespace LinearArith
namespace LinComb
variable {α β κ κ' : Type} {key : α → κ} {key' : β → κ'}

theorem total_perm {v : κ → Rat} {es es' : List (α × Rat)} (h : es.Perm es') :
    total key v es = total key v es' := by
  induction h with
  | nil => rfl
  | cons e _ ih => rw [total_cons, total_cons, ih]
  | swap d e es => simp only [total_cons]; grind
  | trans _ _ ih ih' => exact ih.trans ih'

/-- The summand that an old summand, if there is one, becomes when a new one is added. -/
def joined (old : Option (α × Rat)) (e : α × Rat) : Option (α × Rat) :=
  let q := (old.map (·.2)).getD 0 + e.2
  if q = 0 then none else some (old.elim e.1 (·.1), q)

theorem joined_map (f : α → β) (old : Option (α × Rat)) (e : α × Rat) :
    joined (old.map (Prod.map f id)) (Prod.map f id e) = (joined old e).map (Prod.map f id) := by
  cases old <;> simp only [joined, Option.map_none, Option.map_some, Prod.map_snd, id] <;>
    split <;> rfl

section Lookup
variable [Ord κ]

theorem find?_scale (q : Rat) (k : κ) (l : LinComb key) :
    (l.scale q).find? k = if q = 0 then none else (l.find? k).map (Prod.map id (· * q)) := by
  unfold scale
  split
  next => rfl
  next => simp only [SortedBy.find?_map (fun e : α × Rat => (e.1, e.2 * q)) (fun _ => rfl)]; rfl

theorem find?_names (k : κ) (l : LinComb key) :
    l.names.find? k = (l.find? k).map (Prod.map key id) := by
  simp only [names, SortedBy.find?_map (fun e : α × Rat => (key e.1, e.2)) (fun _ => rfl)]
  rfl

variable [Std.LawfulEqOrd κ] [Std.TransOrd κ] [DecidableEq κ]

theorem find?_addTerm (e : α × Rat) (k : κ) (l : LinComb key) :
    (l.addTerm e.1 e.2).find? k = if key e.1 = k then joined (l.find? k) e else l.find? k := by
  by_cases hk : key e.1 = k
  · subst hk
    rw [if_pos rfl, joined, ← coeff, ← label]
    by_cases hq : l.coeff (key e.1) + e.2 = 0
    · simp only [addTerm, dif_pos hq, if_pos hq, erase, SortedBy.find?_erase, if_true]
    · simp only [addTerm, dif_neg hq, if_neg hq, set, SortedBy.find?_insert, key_label, if_true]
  · rw [if_neg hk]
    by_cases hq : l.coeff (key e.1) + e.2 = 0
    · simp only [addTerm, dif_pos hq, erase, SortedBy.find?_erase, if_neg hk]
    · simp only [addTerm, dif_neg hq, set, SortedBy.find?_insert, key_label, if_neg hk]

/-- Where no key comes twice only one of the new summands concerns a key. -/
theorem find?_foldl_addTerm (k : κ) {es : List (α × Rat)} (l : LinComb key)
    (h : es.Pairwise fun d e => key d.1 ≠ key e.1) :
    (es.foldl (fun s e => s.addTerm e.1 e.2) l).find? k =
      (es.find? fun e => compare (key e.1) k == .eq).elim (l.find? k) (joined (l.find? k)) := by
  induction es generalizing l with
  | nil => rfl
  | cons e es ih =>
    obtain ⟨he, hes⟩ := List.pairwise_cons.mp h
    rw [List.foldl_cons, ih _ hes, find?_addTerm]
    by_cases hk : key e.1 = k
    · have hnone : es.find? (fun e => compare (key e.1) k == .eq) = none := by
        apply List.find?_eq_none.mpr
        intro d hd
        simpa using fun hdk => he d hd (hk.trans hdk.symm)
      rw [if_pos hk, hnone, List.find?_cons_of_pos (by simpa using hk)]
      rfl
    · rw [if_neg hk, List.find?_cons_of_neg (by simpa using hk)]

theorem find?_add (k : κ) (l m : LinComb key) :
    (l.add m).find? k = (m.find? k).elim (l.find? k) (joined (l.find? k)) :=
  find?_foldl_addTerm k l (SortedBy.pairwise_key_ne m.toSortedBy)

end Lookup

variable [Ord κ] [Ord κ'] [Std.TransOrd κ']

/-- The same coefficients on the images of the labels. -/
def relabel (f : α → β) (l : LinComb key) : LinComb key' :=
  ⟨l.toSortedBy.image (Prod.map f id), by
    intro e he
    obtain ⟨d, hd, rfl⟩ := List.mem_map.mp (SortedBy.mem_of_mem_ofList he)
    exact l.nonzero d hd⟩

theorem relabel_single (f : α → β) (a : α) (q : Rat) [Std.TransOrd κ] :
    (single a q : LinComb key).relabel f = (single (f a) q : LinComb key') := by
  by_cases hq : q = 0
  · rw [single, dif_pos hq, single, dif_pos hq]
    rfl
  · rw [single, dif_neg hq, single, dif_neg hq]
    rfl

end LinComb

namespace SortedBy.Relabels
variable {α β κ κ' : Type} {key : α → κ} {key' : β → κ'} {f : α → β} {φ : κ → κ'}
  (h : Relabels key key' f φ)
include h

theorem summand :
    Relabels (fun e : α × Rat => key e.1) (fun e : β × Rat => key' e.1) (Prod.map f id) φ :=
  ⟨h.injective, fun e => h.key_map e.1⟩

variable [Ord κ] [Ord κ'] [Std.LawfulEqOrd κ] [Std.LawfulEqOrd κ'] [DecidableEq κ']
  [Std.TransOrd κ']

theorem find?_relabel (k : κ) (l : LinComb key) :
    (l.relabel f : LinComb key').find? (φ k) = (l.find? k).map (Prod.map f id) :=
  h.summand.find?_image k l.toSortedBy

theorem find?_relabel_eq_none {k' : κ'} (hk : ∀ k, φ k ≠ k') (l : LinComb key) :
    (l.relabel f : LinComb key').find? k' = none :=
  h.summand.find?_image_eq_none hk l.toSortedBy

theorem relabel_eq {l : LinComb key} {m : LinComb key'}
    (hfound : ∀ k, m.find? (φ k) = (l.find? k).map (Prod.map f id))
    (hnone : ∀ k', (∀ k, φ k ≠ k') → m.find? k' = none) : l.relabel f = m := by
  have hfind : ∀ k', (l.relabel f : LinComb key').find? k' = m.find? k' := by
    intro k'
    by_cases hk : ∃ k, φ k = k'
    · obtain ⟨k, rfl⟩ := hk
      rw [h.find?_relabel, hfound]
    · have hk : ∀ k, φ k ≠ k' := not_exists.mp hk
      rw [hnone k' hk, h.find?_relabel_eq_none hk]
  exact LinComb.ext (congrArg toList (eq_of_find?_eq hfind))

theorem relabel_scale (q : Rat) (l : LinComb key) :
    (l.scale q).relabel f = (l.relabel f : LinComb key').scale q := by
  apply h.relabel_eq
  · intro k
    rw [LinComb.find?_scale, LinComb.find?_scale, h.find?_relabel]
    split
    · rfl
    · simp only [Option.map_map, Prod.map_comp_map, Function.comp_id, Function.id_comp]
  · intro k' hk
    rw [LinComb.find?_scale, h.find?_relabel_eq_none hk, Option.map_none, ite_self]

theorem relabel_names (l : LinComb key) :
    (l.relabel f : LinComb key').names = l.names.relabel φ := by
  have hkeys : Relabels (id : κ → κ) (id : κ' → κ') φ φ := ⟨h.injective, fun _ => rfl⟩
  symm
  apply hkeys.relabel_eq
  · intro k
    rw [LinComb.find?_names, LinComb.find?_names, h.find?_relabel, Option.map_map,
      Option.map_map]
    congr 1
    funext e
    exact Prod.ext (h.key_map e.1) rfl
  · intro k' hk
    rw [LinComb.find?_names, h.find?_relabel_eq_none hk, Option.map_none]

theorem eval_relabel (v : κ' → Rat) (l : LinComb key) :
    (l.relabel f : LinComb key').eval v = l.eval (v ∘ φ) := by
  rw [LinComb.eval, LinComb.relabel, LinComb.total_perm (h.summand.image_perm l.toSortedBy)]
  simp only [LinComb.eval, LinComb.total, List.foldr_map, Prod.map_fst, Prod.map_snd, h.key_map,
    id, Function.comp]

theorem isEmpty_relabel (l : LinComb key) :
    (l.relabel f : LinComb key').isEmpty = l.isEmpty := by
  rw [isEmpty, isEmpty, ← List.isEmpty_map (f := Prod.map f id),
    ← (h.summand.image_perm l.toSortedBy).isEmpty_eq]
  rfl

theorem mem_keys_relabel {k' : κ'} {l : LinComb key} :
    k' ∈ (l.relabel f : LinComb key').keys ↔ ∃ k ∈ l.keys, φ k = k' := by
  simp only [LinComb.keys, LinComb.relabel, List.mem_map, h.summand.mem_image]
  constructor
  · rintro ⟨_, ⟨e, he, rfl⟩, rfl⟩
    exact ⟨key e.1, ⟨e, he, rfl⟩, (h.key_map e.1).symm⟩
  · rintro ⟨_, ⟨e, he, rfl⟩, rfl⟩
    exact ⟨_, ⟨e, he, rfl⟩, h.key_map e.1⟩

variable [Std.TransOrd κ]

theorem relabel_injective (hf : Function.Injective f) :
    Function.Injective (LinComb.relabel f : LinComb key → LinComb key') := by
  intro l m he
  have himage := h.summand.image_injective (hf.prodMap Function.injective_id)
    (congrArg LinComb.toSortedBy he)
  exact LinComb.ext (congrArg toList himage)

variable [DecidableEq κ]

theorem relabel_add (l m : LinComb key) :
    (l.add m).relabel f = (l.relabel f : LinComb key').add (m.relabel f) := by
  apply h.relabel_eq
  · intro k
    rw [LinComb.find?_add, LinComb.find?_add, h.find?_relabel, h.find?_relabel]
    cases m.find? k with
    | none => rfl
    | some e => exact LinComb.joined_map f (l.find? k) e
  · intro k' hk
    rw [LinComb.find?_add, h.find?_relabel_eq_none hk, h.find?_relabel_eq_none hk]
    rfl

end SortedBy.Relabels
end LinearArith
