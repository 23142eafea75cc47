import LinearArith.SortedBy.Lookup
import Mathlib.Data.List.Nodup

/-! The image of an ascending list under a map of its elements. Where the map takes different keys to
different keys the members of the image are the images of the members, whatever becomes of their
order, and look-ups and changes can be made before or after. -/

namespace LinearArith
namespace SortedBy
variable {α β κ κ' : Type} {key : α → κ} {key' : β → κ'}

/-- The map of elements takes keys to keys, and different ones to different ones. -/
structure Relabels (key : α → κ) (key' : β → κ') (f : α → β) (φ : κ → κ') : Prop where
  injective : Function.Injective φ
  key_map : ∀ a, key' (f a) = φ (key a)

theorem Relabels.key_ne {f : α → β} {φ : κ → κ'} (h : Relabels key key' f φ) {a b : α}
    (hab : key a ≠ key b) : key' (f a) ≠ key' (f b) := by
  rw [h.key_map, h.key_map]
  exact h.injective.ne hab

variable [Ord κ] [Ord κ']

section Members

section Lawful
variable [Std.LawfulEqOrd κ]

theorem pairwise_key_ne (s : SortedBy key) : s.toList.Pairwise fun a b => key a ≠ key b :=
  s.ascending.imp fun h he => by simp [he] at h

end Lawful

variable [Std.TransOrd κ]

theorem mem_of_mem_insert {a b : α} {s : SortedBy key} (h : a ∈ (s.insert b).toList) :
    a = b ∨ a ∈ s.toList := mem_of_mem_placeIn h

theorem mem_of_mem_ofList {a : α} {l : List α} (h : a ∈ (ofList l : SortedBy key).toList) :
    a ∈ l := by
  have fold : ∀ s : SortedBy key, a ∈ (l.foldl (fun s b => s.insert b) s).toList →
      a ∈ l ∨ a ∈ s.toList := by
    clear h
    induction l with
    | nil => exact fun s hs => Or.inr hs
    | cons b l ih =>
      intro s hs
      rcases ih (s.insert b) hs with hl | hs
      · exact Or.inl (List.mem_cons_of_mem b hl)
      · rcases mem_of_mem_insert hs with rfl | hs
        · exact Or.inl List.mem_cons_self
        · exact Or.inr hs
  exact (fold empty h).resolve_right List.not_mem_nil

variable [Std.LawfulEqOrd κ] [DecidableEq κ]

theorem mem_insert {a b : α} {s : SortedBy key} :
    a ∈ (s.insert b).toList ↔ a = b ∨ a ∈ s.toList ∧ key a ≠ key b := by
  rw [mem_iff_find?, find?_insert, mem_iff_find?]
  by_cases h : key b = key a
  · rw [if_pos h, Option.some.injEq]
    simp [h, eq_comm]
  · rw [if_neg h]
    have hne : a ≠ b := fun he => h (he ▸ rfl)
    simp [hne, Ne.symm h]

theorem mem_ofList_of_pairwise {a : α} {l : List α} (h : l.Pairwise fun a b => key a ≠ key b) :
    a ∈ (ofList l : SortedBy key).toList ↔ a ∈ l := by
  have fold : ∀ s : SortedBy key, (∀ b ∈ l, ∀ c ∈ s.toList, key c ≠ key b) →
      (a ∈ (l.foldl (fun s b => s.insert b) s).toList ↔ a ∈ l ∨ a ∈ s.toList) := by
    induction l with
    | nil => simp
    | cons b l ih =>
      intro s hs
      obtain ⟨hb, hl⟩ := List.pairwise_cons.mp h
      have hnew : ∀ d ∈ l, ∀ c ∈ (s.insert b).toList, key c ≠ key d := by
        intro d hd c hc
        rcases mem_of_mem_insert hc with rfl | hc
        · exact hb d hd
        · exact hs d (List.mem_cons_of_mem b hd) c hc
      have hkept : a ∈ (s.insert b).toList ↔ a = b ∨ a ∈ s.toList := by
        rw [mem_insert]
        exact or_congr_right (and_iff_left_of_imp fun ha => hs b List.mem_cons_self a ha)
      rw [List.foldl_cons, ih hl _ hnew, hkept, List.mem_cons, or_left_comm, or_assoc]
  rw [ofList, fold empty (by simp)]
  exact or_iff_left List.not_mem_nil

end Members

/-- The images of the elements, in the order of their own keys. -/
def image [Std.TransOrd κ'] (f : α → β) (s : SortedBy key) : SortedBy key' :=
  ofList (s.toList.map f)

namespace Relabels
variable [Std.LawfulEqOrd κ] [Std.LawfulEqOrd κ'] [DecidableEq κ'] [Std.TransOrd κ'] {f : α → β}
  {φ : κ → κ'} (h : Relabels key key' f φ)
include h

theorem mem_image {b : β} {s : SortedBy key} :
    b ∈ (s.image f : SortedBy key').toList ↔ ∃ a ∈ s.toList, f a = b := by
  have hpair : (s.toList.map f).Pairwise fun a b => key' a ≠ key' b :=
    List.pairwise_map.mpr (s.pairwise_key_ne.imp h.key_ne)
  rw [image, mem_ofList_of_pairwise hpair, List.mem_map]

theorem image_perm (s : SortedBy key) :
    (s.image f : SortedBy key').toList.Perm (s.toList.map f) := by
  have hleft : (s.image f : SortedBy key').toList.Nodup :=
    (pairwise_key_ne _).imp fun hne he => hne (congrArg key' he)
  have hright : (s.toList.map f).Nodup :=
    List.pairwise_map.mpr (s.pairwise_key_ne.imp fun hne he => h.key_ne hne (congrArg key' he))
  rw [List.perm_ext_iff_of_nodup hleft hright]
  intro b
  rw [h.mem_image, List.mem_map]

theorem find?_image (k : κ) (s : SortedBy key) :
    (s.image f : SortedBy key').find? (φ k) = (s.find? k).map f := by
  ext b
  rw [find?_eq_some_iff, h.mem_image, Option.map_eq_some_iff]
  constructor
  · rintro ⟨⟨a, ha, rfl⟩, hk⟩
    have hk : key a = k := h.injective (by rw [← h.key_map, hk])
    exact ⟨a, find?_eq_some_iff.mpr ⟨ha, hk⟩, rfl⟩
  · rintro ⟨a, ha, rfl⟩
    obtain ⟨hmem, rfl⟩ := find?_eq_some_iff.mp ha
    exact ⟨⟨a, hmem, rfl⟩, h.key_map a⟩

theorem find?_image_eq_none {k' : κ'} (hk : ∀ k, φ k ≠ k') (s : SortedBy key) :
    (s.image f : SortedBy key').find? k' = none := by
  rw [find?_eq_none_iff]
  intro b hb
  obtain ⟨a, -, rfl⟩ := h.mem_image.mp hb
  rw [h.key_map]
  exact hk (key a)

variable [Std.TransOrd κ]

theorem image_injective (hf : Function.Injective f) :
    Function.Injective (image f : SortedBy key → SortedBy key') := by
  intro s t he
  apply eq_of_mem_iff
  intro a
  have hmem : ∀ u : SortedBy key, a ∈ u.toList ↔ f a ∈ (u.image f : SortedBy key').toList := by
    intro u
    rw [h.mem_image]
    exact ⟨fun ha => ⟨a, ha, rfl⟩, fun ⟨b, hb, he⟩ => hf he ▸ hb⟩
  rw [hmem s, hmem t, he]

end Relabels

end SortedBy
end LinearArith
