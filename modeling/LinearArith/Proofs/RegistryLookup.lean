import LinearArith.Registry
import LinearArith.SortedBy.Image
import Mathlib.Data.String.Basic
import Mathlib.Order.Compare

/-! What a registry holds is told by the registrations alone: under each name the tactic that was
registered last under it. Another name finds the tactic whose name has the same lower case, and if there
is only one it does not matter in what order the tactics are gone through. -/

namespace LinearArith
namespace Registry

/-- The registry holds what was registered: nothing or the built-in tactic, then the other tactics in
their order. -/
inductive Registered : List Tactic → Registry → Prop
  | empty : Registered [] .empty
  | standard : Registered [.linearArithmetic {} .elimination] .standard
  | register {ts : List Tactic} {r : Registry} (h : Registered ts r) (t : Tactic) :
      Registered (ts ++ [t]) (r.register t)

def RegisteredLast (ts : List Tactic) (t : Tactic) : Prop :=
  ∃ before after, ts = before ++ t :: after ∧ ∀ u ∈ after, u.name ≠ t.name

/-- At most one registered name has the lower case of the name `n`. -/
def UniqueUpToCase (n : String) (r : Registry) : Prop :=
  ∀ m ∈ r.names, ∀ m' ∈ r.names, Text.lowercase m = Text.lowercase n →
    Text.lowercase m' = Text.lowercase n → m = m'

instance (n : String) (r : Registry) : Decidable (r.UniqueUpToCase n) :=
  inferInstanceAs (Decidable (∀ m ∈ r.names, ∀ m' ∈ r.names,
    Text.lowercase m = Text.lowercase n → Text.lowercase m' = Text.lowercase n → m = m'))

/-- What is found under a name if the tactics are gone through in the given order. -/
def getAlong (order : List Tactic) (name : String) : Except Error Tactic :=
  match order.find? fun t => t.name == name with
  | some t => .ok t
  | none =>
    match order.find? fun t => Text.lowercase t.name == Text.lowercase name with
    | some t => .ok t
    | none => .error (.invalidConfig ("Unknown tactic: " ++ name))

/-! ### Names -/

variable {r : Registry} {ts : List Tactic}

theorem mem_names_iff {n : String} : n ∈ r.names ↔ ∃ t ∈ r.toList, t.name = n := List.mem_map

theorem has_iff {n : String} : r.has n = true ↔ n ∈ r.names := by
  rw [has, SortedBy.hasKey_iff, mem_names_iff]

theorem ascending_names (r : Registry) : r.names.Pairwise (· < ·) :=
  List.pairwise_map.mpr (r.ascending.imp compare_lt_iff_lt.mp)

theorem eq_of_name_eq {t u : Tactic} (ht : t ∈ r.toList) (hu : u ∈ r.toList)
    (h : t.name = u.name) : t = u := by
  have hfind : r.find? t.name = some t := SortedBy.mem_iff_find?.mp ht
  rw [h, SortedBy.mem_iff_find?.mp hu] at hfind
  exact (Option.some.inj hfind).symm

/-! ### Look-ups -/

theorem find?_of_registered (h : Registered ts r) (n : String) :
    r.find? n = ts.reverse.find? (·.name == n) := by
  have hregister : ∀ (r : Registry) (t : Tactic),
      (r.register t).find? n = if t.name == n then some t else r.find? n := by
    intro r t
    rw [register, SortedBy.find?_insert]
    simp only [beq_iff_eq]
  induction h with
  | empty => rfl
  | standard =>
    have hstart := hregister .empty (.linearArithmetic {} .elimination)
    rw [List.reverse_singleton, List.find?_singleton]
    exact hstart
  | @register ts r _ t ih =>
    rw [hregister, ih, List.reverse_append, List.reverse_singleton, List.singleton_append,
      List.find?_cons]
    cases t.name == n <;> rfl

theorem registeredLast_of_find? {n : String} {t : Tactic}
    (h : ts.reverse.find? (·.name == n) = some t) : t.name = n ∧ RegisteredLast ts t := by
  obtain ⟨hname, after, before, hts, hafter⟩ := List.find?_eq_some_iff_append.mp h
  have hname : t.name = n := beq_iff_eq.mp hname
  refine ⟨hname, before.reverse, after.reverse, ?_, fun u hu he => ?_⟩
  · rw [← List.reverse_reverse ts, hts]
    simp
  · have hne : (u.name == n) = false := by simpa using hafter u (List.mem_reverse.mp hu)
    rw [he, hname, beq_self_eq_true] at hne
    cases hne

theorem mem_names_of_registered (h : Registered ts r) {n : String} :
    n ∈ r.names ↔ n ∈ ts.map (·.name) := by
  rw [← has_iff, has, SortedBy.hasKey, find?_of_registered h, List.find?_isSome]
  simp

theorem exists_registeredLast (h : Registered ts r) {n : String} (hn : n ∈ r.names) :
    ∃ t, t.name = n ∧ RegisteredLast ts t ∧ r.get n = .ok t := by
  obtain ⟨t, ht⟩ := Option.isSome_iff_exists.mp (has_iff.mpr hn)
  obtain ⟨hname, hlast⟩ := registeredLast_of_find? ((find?_of_registered h n).symm.trans ht)
  exact ⟨t, hname, hlast, by rw [get, ht]⟩

/-- Where at most one member of a list is wanted, its order does not matter. -/
theorem find?_eq_of_perm {α : Type} {p : α → Bool} {l l' : List α} (h : l.Perm l')
    (hone : ∀ a ∈ l, ∀ b ∈ l, p a = true → p b = true → a = b) : l.find? p = l'.find? p := by
  cases hl : l.find? p with
  | none =>
    have hnone := List.find?_eq_none.mp hl
    exact (List.find?_eq_none.mpr fun a ha => hnone a (h.mem_iff.mpr ha)).symm
  | some a =>
    have ha : a ∈ l := List.mem_of_find?_eq_some hl
    have hsome : (l'.find? p).isSome = true :=
      List.find?_isSome.mpr ⟨a, h.mem_iff.mp ha, List.find?_some hl⟩
    obtain ⟨b, hb⟩ := Option.isSome_iff_exists.mp hsome
    have hmem : b ∈ l := h.mem_iff.mpr (List.mem_of_find?_eq_some hb)
    rw [hb, hone a ha b hmem (List.find?_some hl) (List.find?_some hb)]

theorem getAlong_toList (r : Registry) (n : String) : getAlong r.toList n = r.get n := by
  have hexact : (fun t : Tactic => t.name == n) = fun t => compare t.name n == .eq := by
    funext t
    rw [Bool.eq_iff_iff]
    simp
  rw [getAlong, hexact]
  rfl

/-- A registered name, or one that has the lower case of one registered name at most, is looked up with
the same result in any order. -/
theorem getAlong_of_perm {order : List Tactic} (horder : order.Perm r.toList) {n : String}
    (hn : n ∈ r.names ∨ r.UniqueUpToCase n) : getAlong order n = r.get n := by
  have hexact : order.find? (fun t => t.name == n) = r.toList.find? fun t => t.name == n := by
    apply find?_eq_of_perm horder
    intro t ht u hu htn hun
    apply eq_of_name_eq (horder.mem_iff.mp ht) (horder.mem_iff.mp hu)
    rw [beq_iff_eq.mp htn, beq_iff_eq.mp hun]
  rw [← getAlong_toList, getAlong, getAlong, hexact]
  cases hfind : r.toList.find? fun t => t.name == n with
  | some t => rfl
  | none =>
    -- the name is not registered, so it is the fallback that counts
    have hunique : r.UniqueUpToCase n := by
      refine hn.resolve_left fun hmem => ?_
      obtain ⟨t, ht, hname⟩ := mem_names_iff.mp hmem
      exact List.find?_eq_none.mp hfind t ht (beq_iff_eq.mpr hname)
    have hfallback : order.find? (fun t => Text.lowercase t.name == Text.lowercase n) =
        r.toList.find? fun t => Text.lowercase t.name == Text.lowercase n := by
      apply find?_eq_of_perm horder
      intro t ht u hu htn hun
      have ht := horder.mem_iff.mp ht
      have hu := horder.mem_iff.mp hu
      apply eq_of_name_eq ht hu
      exact hunique _ (mem_names_iff.mpr ⟨t, ht, rfl⟩) _ (mem_names_iff.mpr ⟨u, hu, rfl⟩)
        (beq_iff_eq.mp htn) (beq_iff_eq.mp hun)
    rw [hfallback]

theorem get_of_not_mem {n : String} (hn : n ∉ r.names) :
    r.get n =
      match r.toList.find? fun t => Text.lowercase t.name == Text.lowercase n with
      | some t => .ok t
      | none => .error (.invalidConfig ("Unknown tactic: " ++ n)) := by
  have hnone : r.find? n = none := by
    rw [← Option.not_isSome_iff_eq_none]
    exact fun hsome => hn (has_iff.mp hsome)
  unfold get
  split
  next t ht =>
    rw [hnone] at ht
    cases ht
  next => rfl

theorem get_eq_of_lowercase_eq {n m : String} (hn : n ∉ r.names) (hunique : r.UniqueUpToCase n)
    (hm : m ∈ r.names) (hlower : Text.lowercase m = Text.lowercase n) : r.get n = r.get m := by
  obtain ⟨t, ht, hname⟩ := mem_names_iff.mp hm
  have hsome : (r.toList.find? fun t => Text.lowercase t.name == Text.lowercase n).isSome = true :=
    List.find?_isSome.mpr ⟨t, ht, beq_iff_eq.mpr (hname ▸ hlower)⟩
  obtain ⟨u, hu⟩ := Option.isSome_iff_exists.mp hsome
  have humem : u ∈ r.toList := List.mem_of_find?_eq_some hu
  have hulower := List.find?_some hu
  rw [beq_iff_eq] at hulower
  have huname : u.name = m :=
    hunique _ (mem_names_iff.mpr ⟨u, humem, rfl⟩) _ hm hulower hlower
  have hfind : r.find? m = some u := SortedBy.find?_eq_some_iff.mpr ⟨humem, huname⟩
  rw [get_of_not_mem hn, hu, get, hfind]

theorem get_eq_error_of_lowercase_ne {n : String}
    (hlower : ∀ m ∈ r.names, Text.lowercase m ≠ Text.lowercase n) :
    r.get n = .error (.invalidConfig ("Unknown tactic: " ++ n)) := by
  have hn : n ∉ r.names := fun hmem => hlower n hmem rfl
  have hnone : (r.toList.find? fun t => Text.lowercase t.name == Text.lowercase n) = none := by
    refine List.find?_eq_none.mpr fun t ht he => ?_
    exact hlower _ (mem_names_iff.mpr ⟨t, ht, rfl⟩) (beq_iff_eq.mp he)
  rw [get_of_not_mem hn, hnone]

/-- After any registrations the names are listed in ascending order, each once, and they are those that
were registered. A registered name is looked up as the tactic registered last under it, whatever other
names there are. Another name is looked up as the registered name with the same lower case, if there is
one, and else in vain; here there has to be one at most, and then it does not matter in what order the
tactics are gone through. -/
theorem lookup_of_registered (h : Registered ts r) :
    r.names.Pairwise (· < ·) ∧ r.names.Nodup ∧ (∀ n, n ∈ r.names ↔ n ∈ ts.map (·.name)) ∧
      r.size = r.names.length ∧ (∀ n, r.has n = true ↔ n ∈ r.names) ∧
      (∀ n ∈ r.names, ∃ t, t.name = n ∧ RegisteredLast ts t ∧ r.get n = .ok t) ∧
      (∀ n ∉ r.names, r.UniqueUpToCase n →
        (∀ m ∈ r.names, Text.lowercase m = Text.lowercase n → r.get n = r.get m) ∧
          ((∀ m ∈ r.names, Text.lowercase m ≠ Text.lowercase n) →
            r.get n = .error (.invalidConfig ("Unknown tactic: " ++ n)))) ∧
      ∀ order : List Tactic, order.Perm r.toList → ∀ n, n ∈ r.names ∨ r.UniqueUpToCase n →
        getAlong order n = r.get n := by
  refine ⟨ascending_names r, (ascending_names r).imp ne_of_lt, fun n => mem_names_of_registered h,
    (List.length_map _).symm, fun n => has_iff, fun n => exists_registeredLast h, fun n hn hunique => ?_,
    fun order horder n => getAlong_of_perm horder⟩
  exact ⟨fun m => get_eq_of_lowercase_eq hn hunique, get_eq_error_of_lowercase_ne⟩

def idle (name label : String) : Tactic := ⟨name, label, "", [], fun s t => (.ok [s], t)⟩

/-- A capital sigma at the end of a word has another lower case than one inside it, so of two small
spellings one is found. The two names that differ only in case are found each by itself. -/
theorem lookup_of_final_sigma :
    ∃ r, Registered [.linearArithmetic {} .elimination, idle "ΟΔΟΣ" "1", idle "LinArith" "",
        idle "ΟΔΟΣ" "2"] r ∧
      (∃ t, t.name = "LinArith" ∧
        RegisteredLast [.linearArithmetic {} .elimination, idle "ΟΔΟΣ" "1", idle "LinArith" "",
          idle "ΟΔΟΣ" "2"] t ∧ r.get "LinArith" = .ok t) ∧
      r.get "οδος" = r.get "ΟΔΟΣ" ∧
      r.get "οδοσ" = .error (.invalidConfig "Unknown tactic: οδοσ") := by
  have hr := ((Registered.standard.register (idle "ΟΔΟΣ" "1")).register
    (idle "LinArith" "")).register (idle "ΟΔΟΣ" "2")
  obtain ⟨-, -, -, -, -, hexact, hfallback, -⟩ := lookup_of_registered hr
  refine ⟨_, hr, hexact _ (by decide +kernel), ?_, ?_⟩
  · exact (hfallback "οδος" (by decide +kernel) (by decide +kernel)).1 _ (by decide +kernel)
      (by decide +kernel)
  · exact (hfallback "οδοσ" (by decide +kernel) (by decide +kernel)).2 (by decide +kernel)

end Registry
end LinearArith
