import LinearArith.SortedBy
import LinearArith.Rational

/-! Linear combinations with rational coefficients, in the one form that has ascending keys and no
zero coefficient. Things with equal keys are summed, and the first of them labels the sum. -/

namespace LinearArith

namespace LinComb

/-- The value of the summands `q · a` when each key `k` has the value `v k`. -/
def total {α κ : Type} (key : α → κ) (v : κ → Rat) (summands : List (α × Rat)) : Rat :=
  summands.foldr (fun e s => e.2 * v (key e.1) + s) 0

@[simp] theorem total_nil {α κ : Type} (key : α → κ) (v : κ → Rat) : total key v [] = 0 := rfl

@[simp] theorem total_cons {α κ : Type} (key : α → κ) (v : κ → Rat) (e : α × Rat)
    (es : List (α × Rat)) : total key v (e :: es) = e.2 * v (key e.1) + total key v es := rfl

theorem total_congr {α κ : Type} {key : α → κ} {v w : κ → Rat} {es : List (α × Rat)}
    (h : ∀ e ∈ es, v (key e.1) = w (key e.1)) : total key v es = total key w es := by
  induction es with
  | nil => rfl
  | cons e es ih =>
    have he : v (key e.1) = w (key e.1) := h e (by simp)
    have hes : total key v es = total key w es := ih fun d hd => h d (by simp [hd])
    rw [total_cons, total_cons, he, hes]

theorem total_eq_zero {α κ : Type} {key : α → κ} {v : κ → Rat} {es : List (α × Rat)}
    (h : ∀ e ∈ es, v (key e.1) = 0) : total key v es = 0 := by
  induction es with
  | nil => rfl
  | cons e es ih =>
    rw [total_cons, h e (by simp), ih fun d hd => h d (by simp [hd])]
    grind

end LinComb

/-- `Σ q · a` over pairs `(a, q)` with `q ≠ 0`, in ascending order of the key of `a`. -/
structure LinComb {α κ : Type} [Ord κ] (key : α → κ) extends
    SortedBy fun e : α × Rat => key e.1 where
  nonzero : ∀ e ∈ toList, e.2 ≠ 0

namespace LinComb
variable {α κ : Type} [Ord κ] {key : α → κ}

@[ext] theorem ext {l m : LinComb key} (h : l.toList = m.toList) : l = m := by
  obtain ⟨⟨_, _⟩, _⟩ := l
  obtain ⟨⟨_, _⟩, _⟩ := m
  simp_all

instance [DecidableEq α] : DecidableEq (LinComb key) := fun l m =>
  decidable_of_iff (l.toList = m.toList) ⟨ext, fun h => h ▸ rfl⟩

def empty : LinComb key := ⟨SortedBy.empty, by simp⟩

instance : Inhabited (LinComb key) := ⟨empty⟩

/-- The coefficient stored for a key, 0 where there is none. -/
def coeff (k : κ) (l : LinComb key) : Rat := ((l.find? k).map (·.2)).getD 0

def eval (v : κ → Rat) (l : LinComb key) : Rat := total key v l.toList

def keys (l : LinComb key) : List κ := l.toList.map fun e => key e.1

def scale (q : Rat) (l : LinComb key) : LinComb key :=
  if h : q = 0 then empty
  else
    ⟨l.toSortedBy.map (fun e : α × Rat => (e.1, e.2 * q)) (fun _ _ h => h), by
      intro e he
      obtain ⟨d, hd, rfl⟩ := List.mem_map.1 he
      exact fun hz => (Rat.mul_eq_zero.1 hz).elim (l.nonzero d hd) h⟩

def neg (l : LinComb key) : LinComb key := l.scale (-1)

def names (l : LinComb key) : LinComb (id : κ → κ) :=
  ⟨l.toSortedBy.map (fun e : α × Rat => (key e.1, e.2)) (fun _ _ h => h), by
    intro e he
    obtain ⟨d, hd, rfl⟩ := List.mem_map.1 he
    exact l.nonzero d hd⟩

/-- What stands for the key of `a`: the thing that brought the key in, else `a`. -/
def label (a : α) (l : LinComb key) : α := (l.find? (key a)).elim a (·.1)

def erase (k : κ) (l : LinComb key) : LinComb key :=
  ⟨l.toSortedBy.erase k, fun e he => l.nonzero e (List.mem_filter.1 he).1⟩

variable [Std.TransOrd κ]

/-- Gives `a` the coefficient `q`, replacing what its key had. -/
def set (a : α) (q : Rat) (hq : q ≠ 0) (l : LinComb key) : LinComb key :=
  ⟨l.toSortedBy.insert (a, q), by
    intro e he
    rcases SortedBy.mem_of_mem_placeIn he with rfl | he
    · exact hq
    · exact l.nonzero e he⟩

def single (a : α) (q : Rat) : LinComb key := if hq : q = 0 then empty else set a q hq empty

def addTerm (a : α) (q : Rat) (l : LinComb key) : LinComb key :=
  if h : l.coeff (key a) + q = 0 then l.erase (key a)
  else l.set (l.label a) (l.coeff (key a) + q) h

def add (l m : LinComb key) : LinComb key := m.toList.foldl (fun s e => s.addTerm e.1 e.2) l

/-- The pairs with nonzero coefficient; of several with one key the last counts. -/
def ofList (entries : List (α × Rat)) : LinComb key :=
  entries.foldl (fun l e => if h : e.2 = 0 then l else l.set e.1 e.2 h) empty

def compareEntry (key : α → κ) : α × Rat → α × Rat → Ordering :=
  compareLex (compareOn fun e => key e.1) (compareOn fun e => e.2)

instance : Std.TransCmp (compareEntry key) :=
  inferInstanceAs (Std.TransCmp (compareLex _ _))

/-- Combinations are compared as sequences of pairs. -/
instance : Ord (LinComb key) := ⟨fun l m => List.compareLex (compareEntry key) l.toList m.toList⟩

instance : Std.TransOrd (LinComb key) where
  eq_swap {l m} :=
    (Std.OrientedCmp.eq_swap : List.compareLex (compareEntry key) l.toList m.toList = _)
  isLE_trans {l m n} :=
    (Std.TransCmp.isLE_trans :
      (List.compareLex (compareEntry key) l.toList m.toList).isLE →
        (List.compareLex (compareEntry key) m.toList n.toList).isLE → _)

instance [Std.LawfulEqOrd κ] : Std.LawfulEqCmp (compareEntry (id : κ → κ)) where
  eq_of_compare {d e} h := by
    simp only [compareEntry, compareLex_eq_eq, compareOn, Std.LawfulEqOrd.compare_eq_iff_eq, id] at h
    exact Prod.ext h.1 h.2

instance [Std.LawfulEqOrd κ] : Std.LawfulEqOrd (LinComb (id : κ → κ)) where
  eq_of_compare {l m} h :=
    ext ((Std.LawfulEqCmp.eq_of_compare :
      List.compareLex (compareEntry id) l.toList m.toList = .eq → l.toList = m.toList) h)

end LinComb
end LinearArith
