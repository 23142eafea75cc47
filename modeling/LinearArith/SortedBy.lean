/-! Lists in strictly ascending order of a key: one type for sets (the key is the element) and for
finite maps (the key is the first component). `place` puts an element where its key belongs and
keeps the order. -/

namespace LinearArith

/-- Elements with pairwise different keys, in ascending order of the key. -/
structure SortedBy {α κ : Type} [Ord κ] (key : α → κ) where
  toList : List α
  ascending : toList.Pairwise fun a b => compare (key a) (key b) = .lt

namespace SortedBy
variable {α κ : Type} [Ord κ] {key : α → κ}

instance [DecidableEq α] : DecidableEq (SortedBy key) := fun s t =>
  decidable_of_iff (s.toList = t.toList) (by cases s; cases t; simp)

@[ext] theorem ext {s t : SortedBy key} (h : s.toList = t.toList) : s = t := by
  cases s; cases t; simp_all

def empty : SortedBy key := ⟨[], .nil⟩

instance : Inhabited (SortedBy key) := ⟨empty⟩

@[simp] theorem toList_empty : (empty : SortedBy key).toList = [] := rfl

/-- Puts `b` where its key belongs. Where that key is taken, `b` replaces the present element `a`
only if `wins b a`. -/
def placeIn (key : α → κ) (wins : α → α → Bool) (b : α) : List α → List α
  | [] => [b]
  | a :: l =>
    match compare (key b) (key a) with
    | .lt => b :: a :: l
    | .eq => (if wins b a then b else a) :: l
    | .gt => a :: placeIn key wins b l

theorem mem_of_mem_placeIn {wins : α → α → Bool} {b c : α} {l : List α}
    (h : c ∈ placeIn key wins b l) : c = b ∨ c ∈ l := by
  induction l with
  | nil => simpa [placeIn] using h
  | cons a l ih =>
    rw [placeIn] at h
    split at h
    · simpa using h
    · split at h
      · rcases List.mem_cons.1 h with h | h <;> simp [h]
      · exact .inr h
    · rcases List.mem_cons.1 h with h | h
      · simp [h]
      · rcases ih h with h | h <;> simp [h]

theorem pairwise_placeIn [Std.TransOrd κ] (wins : α → α → Bool) (b : α) {l : List α}
    (h : l.Pairwise fun a b => compare (key a) (key b) = .lt) :
    (placeIn key wins b l).Pairwise fun a b => compare (key a) (key b) = .lt := by
  induction l with
  | nil => simp [placeIn]
  | cons a l ih =>
    obtain ⟨ha, hl⟩ := List.pairwise_cons.1 h
    rw [placeIn]
    split
    next hb =>
      refine List.pairwise_cons.2 ⟨fun c hc => ?_, h⟩
      rcases List.mem_cons.1 hc with rfl | hc
      · exact hb
      · exact Std.TransCmp.lt_trans hb (ha c hc)
    next hb =>
      refine List.pairwise_cons.2 ⟨fun c hc => ?_, hl⟩
      split
      · exact Std.TransCmp.lt_of_eq_of_lt hb (ha c hc)
      · exact ha c hc
    next hb =>
      refine List.pairwise_cons.2 ⟨fun c hc => ?_, ih hl⟩
      rcases mem_of_mem_placeIn hc with rfl | hc
      · exact Std.OrientedCmp.lt_of_gt hb
      · exact ha c hc

def place [Std.TransOrd κ] (wins : α → α → Bool) (b : α) (s : SortedBy key) : SortedBy key :=
  ⟨placeIn key wins b s.toList, pairwise_placeIn wins b s.ascending⟩

def insert [Std.TransOrd κ] (b : α) (s : SortedBy key) : SortedBy key :=
  s.place (fun _ _ => true) b

def insertNew [Std.TransOrd κ] (b : α) (s : SortedBy key) : SortedBy key :=
  s.place (fun _ _ => false) b

/-- Of elements with equal keys the last is kept. -/
def ofList [Std.TransOrd κ] (l : List α) : SortedBy key :=
  l.foldl (fun s b => s.insert b) empty

def find? (k : κ) (s : SortedBy key) : Option α :=
  s.toList.find? fun a => compare (key a) k == .eq

def hasKey (k : κ) (s : SortedBy key) : Bool := (s.find? k).isSome

def filter (p : α → Bool) (s : SortedBy key) : SortedBy key :=
  ⟨s.toList.filter p, s.ascending.filter p⟩

def erase (k : κ) (s : SortedBy key) : SortedBy key :=
  s.filter fun a => compare (key a) k != .eq

def size (s : SortedBy key) : Nat := s.toList.length

def isEmpty (s : SortedBy key) : Bool := s.toList.isEmpty

/-- Applies `f` to every element; the keys may change but not their order. -/
def map {β κ' : Type} [Ord κ'] {key' : β → κ'} (f : α → β)
    (mono : ∀ a b, compare (key a) (key b) = .lt → compare (key' (f a)) (key' (f b)) = .lt)
    (s : SortedBy key) : SortedBy key' :=
  ⟨s.toList.map f, List.pairwise_map.2 (s.ascending.imp (mono _ _))⟩

@[simp] theorem toList_map {β κ' : Type} [Ord κ'] {key' : β → κ'} (f : α → β)
    (mono : ∀ a b, compare (key a) (key b) = .lt → compare (key' (f a)) (key' (f b)) = .lt)
    (s : SortedBy key) : (s.map f mono : SortedBy key').toList = s.toList.map f := rfl

@[simp] theorem toList_filter (p : α → Bool) (s : SortedBy key) :
    (s.filter p).toList = s.toList.filter p := rfl

end SortedBy
end LinearArith
