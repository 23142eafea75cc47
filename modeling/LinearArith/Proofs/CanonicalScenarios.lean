import LinearArith.LinComb.Laws
import LinearArith.Options
import LinearArith.Proofs.LazyEnumeration
import Mathlib.Data.String.Basic
import Mathlib.Order.Compare
import Mathlib.Order.Defs.Unbundled

/-! Scenarios are sets: constraints have a strict total order in which only equal ones are level, so a
scenario does not tell in what order its members came or how often, and option lists may be permuted
without a change to which scenarios are found. -/

namespace LinearArith

/-! ### The order of constraints -/

theorem compareLex_eq_lt_iff {α : Type} {cmp : α → α → Ordering} [Std.LawfulEqCmp cmp]
    {l m : List α} :
    List.compareLex cmp l m = .lt ↔ List.Lex (fun a b => cmp a b = .lt) l m := by
  induction l generalizing m with
  | nil =>
    cases m with
    | nil => exact iff_of_false nofun List.not_lex_nil
    | cons b m => exact iff_of_true List.compareLex_nil_cons .nil
  | cons a l ih =>
    cases m with
    | nil =>
      rw [List.compareLex_cons_nil]
      exact iff_of_false (by decide) List.not_lex_nil
    | cons b m =>
      rw [List.compareLex_cons_cons, Ordering.then_eq_lt, List.cons_lex_cons_iff, ih,
        Std.LawfulEqCmp.compare_eq_iff_eq]

abbrev PairBelow : String × Rat → String × Rat → Prop := Prod.Lex (· < ·) (· < ·)

namespace LinComb

theorem compareEntry_eq_lt_iff {d e : String × Rat} :
    compareEntry (id : String → String) d e = .lt ↔ PairBelow d e := by
  have hparts : compareEntry (id : String → String) d e =
      (compare d.1 e.1).then (compare d.2 e.2) := rfl
  have hname : compare d.1 e.1 = .lt ↔ d.1 < e.1 := compare_lt_iff_lt
  rw [hparts, Ordering.then_eq_lt, hname, Std.compare_eq_iff_eq, compare_rat_eq_lt]
  exact Prod.lex_def.symm

theorem compare_eq_lt_iff {l m : Linear} :
    compare l m = .lt ↔ List.Lex PairBelow l.toList m.toList := by
  have hbelow : (fun d e => compareEntry (id : String → String) d e = .lt) = PairBelow := by
    funext d e
    exact propext compareEntry_eq_lt_iff
  rw [← hbelow]
  exact compareLex_eq_lt_iff

/-- What is declared of the names does not count. -/
theorem compare_names (l m : LinComb Variable.name) : compare l.names m.names = compare l m := by
  have hlist : ∀ ds es : List (Variable × Rat),
      List.compareLex (compareEntry id) (ds.map fun d => (d.1.name, d.2))
          (es.map fun e => (e.1.name, e.2)) =
        List.compareLex (compareEntry Variable.name) ds es := by
    intro ds
    induction ds with
    | nil => intro es; cases es <;> rfl
    | cons d ds ih =>
      intro es
      cases es with
      | nil => rfl
      | cons e es =>
        rw [List.map_cons, List.map_cons, List.compareLex_cons_cons, List.compareLex_cons_cons, ih]
        rfl
  exact hlist l.toList m.toList

theorem names_eq_iff {l m : LinComb Variable.name} :
    l.names = m.names ↔ ∀ x, l.coeff x = m.coeff x := by
  constructor
  · intro h x
    rw [← coeff_names, h, coeff_names]
  · intro h
    apply eq_of_coeff_eq
    intro x
    rw [coeff_names, coeff_names, h]

end LinComb

theorem Relation.compare_eq_lt_iff {r s : Relation} : compare r s = .lt ↔ r.rank < s.rank :=
  Nat.compare_eq_lt

namespace Constraint

/-- The combinations decide, as sequences of pairs; where they are the same the relations do, and
after them the constants. -/
def Below (c d : Constraint) : Prop :=
  List.Lex PairBelow c.linear.toList d.linear.toList ∨
    c.linear = d.linear ∧
      (c.relation.rank < d.relation.rank ∨ c.relation = d.relation ∧ c.constant < d.constant)

theorem compare_eq_lt_iff {c d : Constraint} : compare c d = .lt ↔ c.Below d := by
  have hparts : compare c d = (compare c.linear d.linear).then
      ((compare c.relation d.relation).then (compare c.constant d.constant)) := rfl
  rw [hparts, Ordering.then_eq_lt, Ordering.then_eq_lt, LinComb.compare_eq_lt_iff,
    Relation.compare_eq_lt_iff, compare_rat_eq_lt, Std.compare_eq_iff_eq, Std.compare_eq_iff_eq,
    Below]

instance : IsStrictTotalOrder Constraint Below where
  trichotomous c d hcd hdc := by
    rw [← compare_eq_lt_iff] at hcd hdc
    rw [← Std.OrientedCmp.gt_iff_lt] at hdc
    apply Std.compare_eq_iff_eq.mp
    cases h : compare c d with
    | lt => exact absurd h hcd
    | eq => rfl
    | gt => exact absurd h hdc
  irrefl c h := by
    rw [← compare_eq_lt_iff, Std.compare_self] at h
    cases h
  trans c d e hcd hde := by
    rw [← compare_eq_lt_iff] at hcd hde ⊢
    exact Std.TransCmp.lt_trans hcd hde

theorem compare_ofForm (f g : LinearForm) (r s : Relation) :
    compare (ofForm f r) (ofForm g s) =
      (compare f.linear g.linear).then
        ((compare r s).then (compare (-f.constant) (-g.constant))) := by
  rw [← LinComb.compare_names]
  rfl

theorem compare_ofForm_eq_iff {f g : LinearForm} {r s : Relation} :
    compare (ofForm f r) (ofForm g s) = .eq ↔
      (∀ x, f.linear.coeff x = g.linear.coeff x) ∧ r = s ∧ f.constant = g.constant := by
  have hneg : -f.constant = -g.constant ↔ f.constant = g.constant := by
    refine ⟨fun h => ?_, congrArg _⟩
    rw [← Rat.neg_neg f.constant, h, Rat.neg_neg]
  rw [Std.compare_eq_iff_eq, ofForm, ofForm, mk.injEq, LinComb.names_eq_iff, hneg]

end Constraint

/-! ### Scenarios as sets -/

namespace Scenario

theorem ofList_eq_ofList_iff {cs ds : List Constraint} :
    (SortedBy.ofList cs : Scenario) = SortedBy.ofList ds ↔ ∀ c, c ∈ cs ↔ c ∈ ds := by
  constructor
  · intro h c
    rw [← SortedBy.mem_ofList_iff, h, SortedBy.mem_ofList_iff]
  · intro h
    apply SortedBy.eq_of_mem_iff
    intro c
    rw [SortedBy.mem_ofList_iff, SortedBy.mem_ofList_iff, h]

theorem ofList_eq_of_perm {cs ds : List Constraint} (h : cs.Perm ds) :
    (SortedBy.ofList cs : Scenario) = SortedBy.ofList ds :=
  ofList_eq_ofList_iff.mpr fun _ => h.mem_iff

theorem hasKey_ofList_iff {c : Constraint} {cs : List Constraint} :
    (SortedBy.ofList cs : Scenario).hasKey c = true ↔ c ∈ cs := by
  rw [SortedBy.hasKey_iff, ← SortedBy.mem_ofList_iff]
  exact exists_eq_right

theorem pairwise_below (s : Scenario) : s.toList.Pairwise Constraint.Below :=
  s.ascending.imp Constraint.compare_eq_lt_iff.mp

end Scenario

/-! ### Permuted option lists -/

theorem exists_perm_mem_product {α : Type} {ls ms : List (List α)} (h : ls.Perm ms) :
    ∀ cs ∈ product ls, ∃ ds ∈ product ms, cs.Perm ds := by
  induction h with
  | nil => exact fun cs hcs => ⟨cs, hcs, .refl cs⟩
  | cons l _ ih =>
    intro cs hcs
    obtain ⟨a, ha, hcs⟩ := List.mem_flatMap.mp hcs
    obtain ⟨as, has, rfl⟩ := List.mem_map.mp hcs
    obtain ⟨bs, hbs, hperm⟩ := ih as has
    exact ⟨a :: bs, List.mem_flatMap.mpr ⟨a, ha, List.mem_map_of_mem hbs⟩, hperm.cons a⟩
  | swap l m ls =>
    intro cs hcs
    obtain ⟨b, hb, hcs⟩ := List.mem_flatMap.mp hcs
    obtain ⟨bs, hbs, rfl⟩ := List.mem_map.mp hcs
    obtain ⟨a, ha, hbs⟩ := List.mem_flatMap.mp hbs
    obtain ⟨as, has, rfl⟩ := List.mem_map.mp hbs
    have hrest : b :: as ∈ product (m :: ls) :=
      List.mem_flatMap.mpr ⟨b, hb, List.mem_map_of_mem has⟩
    refine ⟨a :: b :: as, ?_, .swap a b as⟩
    exact List.mem_flatMap.mpr ⟨a, ha, List.mem_map_of_mem hrest⟩
  | trans _ _ ih ih' =>
    intro cs hcs
    obtain ⟨ds, hds, hperm⟩ := ih cs hcs
    obtain ⟨es, hes, hperm'⟩ := ih' ds hds
    exact ⟨es, hes, hperm.trans hperm'⟩

namespace Enumeration

def scenarios (lists : List (List Constraint)) : List Scenario :=
  (ofLists lists).toList.map (·.scenario)

theorem scenarios_eq (lists : List (List Constraint)) :
    scenarios lists = distinct (space lists) := by
  rw [scenarios, toList_ofLists, firstOccurrences, List.map_map]
  exact List.map_id _

theorem mem_scenarios_of_perm {ls ms : List (List Constraint)} (h : ls.Perm ms) {s : Scenario}
    (hs : s ∈ scenarios ls) : s ∈ scenarios ms := by
  rw [scenarios_eq, mem_distinct_iff] at hs ⊢
  obtain ⟨cs, hcs, rfl⟩ := List.mem_map.mp hs.1
  obtain ⟨ds, hds, hperm⟩ := exists_perm_mem_product h cs hcs
  exact ⟨List.mem_map.mpr ⟨ds, hds, (Scenario.ofList_eq_of_perm hperm).symm⟩, hs.2⟩

/-- Each run keeps the first pick of a scenario it meets, which need not be the same pick; the
scenarios are the same. -/
theorem scenarios_perm {ls ms : List (List Constraint)} (h : ls.Perm ms) :
    (scenarios ls).Perm (scenarios ms) := by
  apply (List.perm_ext_iff_of_nodup (nodup_toList_ofLists ls) (nodup_toList_ofLists ms)).mpr
  exact fun s => ⟨mem_scenarios_of_perm h, mem_scenarios_of_perm h.symm⟩

end Enumeration

/-- Constraints are ordered strictly and totally by their pairs of name and coefficient, then by
relation, then by constant, and only equal constraints are level; domains and signs of the variables
they come from do not count. So two lists with the same members make one scenario, whose members are
listed upwards and read alike, and a scenario contains what it was made from. And the enumeration of
permuted option lists gives the same scenarios, each once, in some order. -/
theorem scenarios_canonical :
    (IsStrictTotalOrder Constraint Constraint.Below ∧
      ∀ c d : Constraint, (compare c d = .lt ↔ c.Below d) ∧ (compare c d = .eq ↔ c = d) ∧
        (compare c d = .gt ↔ d.Below c)) ∧
      (∀ (f g : LinearForm) (r s : Relation),
        compare (Constraint.ofForm f r) (Constraint.ofForm g s) =
            (compare f.linear g.linear).then
              ((compare r s).then (compare (-f.constant) (-g.constant))) ∧
          (compare (Constraint.ofForm f r) (Constraint.ofForm g s) = .eq ↔
            (∀ x, f.linear.coeff x = g.linear.coeff x) ∧ r = s ∧ f.constant = g.constant)) ∧
      (∀ cs ds : List Constraint, (∀ c, c ∈ cs ↔ c ∈ ds) →
        (SortedBy.ofList cs : Scenario) = SortedBy.ofList ds ∧
          (SortedBy.ofList cs : Scenario).toList = (SortedBy.ofList ds : Scenario).toList ∧
          (SortedBy.ofList cs : Scenario).toList.Pairwise Constraint.Below ∧
          Scenario.text (SortedBy.ofList cs) = Scenario.text (SortedBy.ofList ds) ∧
          ∀ c, (SortedBy.ofList cs : Scenario).hasKey c = true ↔ c ∈ cs) ∧
      ∀ ls ms : List (List Constraint), ls.Perm ms →
        (Enumeration.scenarios ls).Nodup ∧
          (Enumeration.scenarios ls).Perm (Enumeration.scenarios ms) := by
  refine ⟨⟨inferInstance, fun c d => ⟨Constraint.compare_eq_lt_iff, Std.compare_eq_iff_eq, ?_⟩⟩,
    fun f g r s => ⟨Constraint.compare_ofForm f g r s, Constraint.compare_ofForm_eq_iff⟩,
    fun cs ds h => ?_, fun ls ms h => ⟨Enumeration.nodup_toList_ofLists ls,
      Enumeration.scenarios_perm h⟩⟩
  · rw [Std.OrientedCmp.gt_iff_lt, Constraint.compare_eq_lt_iff]
  · have heq : (SortedBy.ofList cs : Scenario) = SortedBy.ofList ds :=
      Scenario.ofList_eq_ofList_iff.mpr h
    exact ⟨heq, congrArg SortedBy.toList heq, Scenario.pairwise_below _, congrArg Scenario.text heq,
      fun c => Scenario.hasKey_ofList_iff⟩

/-- Two lists with an option in common are gone through in two ways that find the scenarios in different
orders. -/
theorem scenarios_of_swapped_lists :
    (SortedBy.ofList [.single "x" 1 .lt 0, .falsum, .single "x" 1 .lt 0] : Scenario) =
        SortedBy.ofList [.falsum, .single "x" 1 .lt 0] ∧
      Enumeration.scenarios
          [[.single "x" 1 .lt 0, .single "y" 1 .gt 0], [.single "x" 1 .lt 0, .single "z" 1 .eq 0]] ≠
        Enumeration.scenarios
          [[.single "x" 1 .lt 0, .single "z" 1 .eq 0], [.single "x" 1 .lt 0, .single "y" 1 .gt 0]] ∧
      (Enumeration.scenarios
          [[.single "x" 1 .lt 0, .single "y" 1 .gt 0],
            [.single "x" 1 .lt 0, .single "z" 1 .eq 0]]).Perm
        (Enumeration.scenarios
          [[.single "x" 1 .lt 0, .single "z" 1 .eq 0],
            [.single "x" 1 .lt 0, .single "y" 1 .gt 0]]) := by
  obtain ⟨-, -, hset, hperm⟩ := scenarios_canonical
  refine ⟨(hset _ _ fun c => ?_).1, ?_, (hperm _ _ (.swap _ _ _)).2⟩
  · simp only [List.mem_cons, List.not_mem_nil, or_false]
    exact ⟨fun h => h.elim .inr id, .inr⟩
  · rw [Enumeration.scenarios_eq, Enumeration.scenarios_eq]
    decide +kernel

end LinearArith
