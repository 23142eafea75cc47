import LinearArith.Odometer

/-! An odometer runs through the Cartesian product of its lists in lexicographic order: each state
shows the next pick, and no pick is left when the last wheel that can turn has come round. -/

namespace LinearArith

section Product
variable {α : Type}

/-- The Cartesian product in lexicographic order, the first list varying slowest. -/
def product : List (List α) → List (List α)
  | [] => [[]]
  | l :: ls => l.flatMap fun a => (product ls).map (a :: ·)

theorem exists_mem_product_iff {P : α → Prop} {ls : List (List α)} :
    (∃ cs ∈ product ls, ∀ c ∈ cs, P c) ↔ ∀ l ∈ ls, ∃ c ∈ l, P c := by
  induction ls with
  | nil => simp [product]
  | cons l ls ih =>
    simp only [product, List.mem_flatMap, List.mem_map, List.forall_mem_cons, ← ih]
    constructor
    · rintro ⟨_, ⟨a, ha, as, has, rfl⟩, h⟩
      obtain ⟨hPa, hPas⟩ := List.forall_mem_cons.mp h
      exact ⟨⟨a, ha, hPa⟩, as, has, hPas⟩
    · rintro ⟨⟨a, ha, hPa⟩, as, has, hPas⟩
      exact ⟨a :: as, ⟨a, ha, as, has, rfl⟩, List.forall_mem_cons.mpr ⟨hPa, hPas⟩⟩

theorem length_product (ls : List (List α)) : (product ls).length = pickCount ls := by
  induction ls with
  | nil => rfl
  | cons l ls ih =>
    simp only [product, pickCount, List.length_flatMap, List.length_map, ih, List.map_const',
      List.sum_replicate_nat]

theorem product_map {β : Type} (g : α → β) (ls : List (List α)) :
    product (ls.map (List.map g)) = (product ls).map (List.map g) := by
  induction ls with
  | nil => rfl
  | cons l ls ih =>
    simp only [List.map_cons, product, ih, List.flatMap_map, List.map_flatMap, List.map_map,
      Function.comp_def]

theorem product_singletons_append (as : List α) (ls : List (List α)) :
    product (as.map (fun a => [a]) ++ ls) = (product ls).map (as ++ ·) := by
  induction as with
  | nil => simp
  | cons a as ih => simp [product, ih, Function.comp_def]

end Product

namespace Wheel
variable {α : Type}

/-- The members after the one that is shown. -/
def later (w : Wheel α) : List α := w.options.drop (w.place + 1)

theorem later_eq (w : Wheel α) : w.later = w.turn?.elim [] fun w' => w'.shown :: w'.later := by
  by_cases h : w.place + 1 < w.options.length
  · simp only [turn?, dif_pos h, Option.elim]
    exact List.drop_eq_getElem_cons h
  · simp only [turn?, dif_neg h, Option.elim]
    exact List.drop_of_length_le (Nat.le_of_not_lt h)

theorem shown_cons_later_reset (w : Wheel α) : w.reset.shown :: w.reset.later = w.options :=
  (List.drop_eq_getElem_cons w.place.pos).symm

theorem first?_cons (a : α) (l : List α) :
    ∃ w, first? (a :: l) = some w ∧ w.options = a :: l ∧ w.shown = a ∧ w.later = l :=
  ⟨⟨a :: l, ⟨0, Nat.succ_pos _⟩⟩, rfl, rfl, rfl, rfl⟩

end Wheel

namespace Odometer
variable {α : Type}

/-- The picks from the one that is shown on. -/
def picks : Odometer α → List (List α)
  | [] => [[]]
  | w :: ws =>
    (picks ws).map (w.shown :: ·) ++ w.later.flatMap fun a => (product (options ws)).map (a :: ·)

theorem picks_reset (o : Odometer α) : picks (reset o) = product (options o) := by
  induction o with
  | nil => rfl
  | cons w ws ih =>
    calc picks (reset (w :: ws))
        = (picks (reset ws)).map (w.reset.shown :: ·) ++
            w.reset.later.flatMap fun a => (product (options (reset ws))).map (a :: ·) := rfl
      _ = (w.reset.shown :: w.reset.later).flatMap
            fun a => (product (options ws)).map (a :: ·) := by
          rw [ih, options_reset, List.flatMap_cons]
      _ = product (options (w :: ws)) := by rw [Wheel.shown_cons_later_reset]; rfl

/-- The pick that is shown comes first, those of the next state follow. -/
theorem picks_eq (o : Odometer α) : picks o = shown o :: (advance? o).elim [] picks := by
  induction o with
  | nil => rfl
  | cons w ws ih =>
    have hw : w.later = w.turn?.elim [] fun w' => w'.shown :: w'.later := w.later_eq
    cases ha : advance? ws with
    | some ws' =>
      rw [ha] at ih
      simp only [advance?, ha, Option.elim, picks, ih, options_of_advance? ha, List.map_cons,
        List.cons_append]
      rfl
    | none =>
      rw [ha] at ih
      cases ht : w.turn? with
      | none =>
        rw [ht] at hw
        simp only [advance?, ha, ht, Option.map_none, Option.elim, picks, hw, ih]
        rfl
      | some w' =>
        rw [ht] at hw
        simp only [advance?, ha, ht, Option.map_some, Option.elim, picks, hw, ih, picks_reset,
          options_reset, List.flatMap_cons]
        rfl

theorem length_picks (o : Odometer α) : (picks o).length = remaining o := by
  induction o with
  | nil => rfl
  | cons w ws ih =>
    have hw : w.later.length = w.remaining := List.length_drop
    simp only [picks, remaining, List.length_append, List.length_map, List.length_flatMap, ih,
      length_product, List.map_const', List.sum_replicate_nat, hw]
    omega

theorem first?_cons (l : List α) (ls : List (List α)) :
    first? (l :: ls) = (Wheel.first? l).bind fun w => (first? ls).map (w :: ·) := by
  simp only [first?, List.mapM_cons]
  cases Wheel.first? l <;> cases ls.mapM Wheel.first? <;> rfl

theorem first?_cases (lists : List (List α)) :
    (first? lists = none ∧ product lists = []) ∨
      ∃ o, first? lists = some o ∧ options o = lists ∧ picks o = product lists := by
  induction lists with
  | nil => exact Or.inr ⟨[], rfl, rfl, rfl⟩
  | cons l ls ih =>
    cases l with
    | nil => exact Or.inl ⟨first?_cons [] ls, rfl⟩
    | cons a l =>
      obtain ⟨w, hw, hopts, hshown, hlater⟩ := Wheel.first?_cons a l
      rcases ih with ⟨hnone, hempty⟩ | ⟨o, hsome, ho, hpicks⟩
      · refine Or.inl ⟨by rw [first?_cons, hw, hnone]; rfl, ?_⟩
        simp [product, hempty]
      · refine Or.inr ⟨w :: o, by rw [first?_cons, hw, hsome]; rfl, ?_, ?_⟩
        · rw [options, List.map_cons, ← options, hopts, ho]
        · rw [picks, hshown, hlater, ho, hpicks, product, List.flatMap_cons]

/-- From its first state on an odometer shows the whole product. -/
theorem picks_first? (lists : List (List α)) : (first? lists).elim [] picks = product lists := by
  rcases first?_cases lists with ⟨hnone, hempty⟩ | ⟨o, hsome, -, hpicks⟩
  · rw [hnone, hempty]
    rfl
  · rw [hsome]
    exact hpicks

end Odometer
end LinearArith
