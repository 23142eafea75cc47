/-! Odometers: a row of wheels, each showing a member of a list. The last wheel turns fastest, and a
wheel that has come round turns the one before it. -/

namespace LinearArith

def pickCount {α : Type} : List (List α) → Nat
  | [] => 1
  | l :: ls => l.length * pickCount ls

/-- A list with the place of the member that is shown. -/
structure Wheel (α : Type) where
  options : List α
  place : Fin options.length

namespace Wheel
variable {α : Type}

def shown (w : Wheel α) : α := w.options[w.place]

def first? (options : List α) : Option (Wheel α) :=
  if h : 0 < options.length then some ⟨options, ⟨0, h⟩⟩ else none

/-- Turned to the next member; after the last there is none. -/
def turn? (w : Wheel α) : Option (Wheel α) :=
  if h : w.place + 1 < w.options.length then some ⟨w.options, ⟨w.place + 1, h⟩⟩ else none

def reset (w : Wheel α) : Wheel α := ⟨w.options, ⟨0, w.place.pos⟩⟩

def remaining (w : Wheel α) : Nat := w.options.length - (w.place + 1)

theorem remaining_reset (w : Wheel α) : w.reset.remaining + 1 = w.options.length :=
  Nat.sub_add_cancel w.place.pos

theorem remaining_eq (w : Wheel α) : w.remaining = w.turn?.elim 0 (·.remaining + 1) := by
  by_cases h : w.place + 1 < w.options.length
  · simp only [turn?, dif_pos h, Option.elim, remaining]
    omega
  · simp only [turn?, dif_neg h, Option.elim, remaining]
    omega

theorem options_of_turn? {w w' : Wheel α} (h : w.turn? = some w') : w'.options = w.options := by
  unfold turn? at h
  split at h
  next => rw [← Option.some.inj h]
  next => cases h

end Wheel

abbrev Odometer (α : Type) := List (Wheel α)

namespace Odometer
variable {α : Type}

/-- All wheels show their first members. Without members there is no wheel. -/
def first? (lists : List (List α)) : Option (Odometer α) := lists.mapM Wheel.first?

def shown (o : Odometer α) : List α := o.map Wheel.shown

def reset (o : Odometer α) : Odometer α := o.map Wheel.reset

/-- One step on; none where all wheels have come round. -/
def advance? : Odometer α → Option (Odometer α)
  | [] => none
  | w :: ws =>
    match advance? ws with
    | some ws' => some (w :: ws')
    | none => w.turn?.map (· :: reset ws)

def options (o : Odometer α) : List (List α) := o.map Wheel.options

theorem options_reset (o : Odometer α) : options (reset o) = options o := by
  simp [options, reset, Wheel.reset, Function.comp_def]

theorem options_of_advance? {o o' : Odometer α} (h : advance? o = some o') :
    options o' = options o := by
  induction o generalizing o' with
  | nil => cases h
  | cons w ws ih =>
    cases ha : advance? ws with
    | some ws' =>
      simp only [advance?, ha, Option.some.injEq] at h
      rw [← h, options, List.map_cons, ← options, ih ha]
      rfl
    | none =>
      simp only [advance?, ha, Option.map_eq_some_iff] at h
      obtain ⟨w', hw, rfl⟩ := h
      change w'.options :: options (reset ws) = w.options :: options ws
      rw [Wheel.options_of_turn? hw, options_reset]

def remaining : Odometer α → Nat
  | [] => 1
  | w :: ws => w.remaining * pickCount (options ws) + remaining ws

theorem remaining_reset (o : Odometer α) : remaining (reset o) = pickCount (options o) := by
  induction o with
  | nil => rfl
  | cons w ws ih =>
    have hw : w.reset.remaining + 1 = w.options.length := w.remaining_reset
    change w.reset.remaining * pickCount (options (reset ws)) + remaining (reset ws) =
      w.options.length * pickCount (options ws)
    rw [ih, options_reset, ← hw, Nat.succ_mul]

theorem remaining_eq (o : Odometer α) : remaining o = (advance? o).elim 0 remaining + 1 := by
  induction o with
  | nil => rfl
  | cons w ws ih =>
    have hw : w.remaining = w.turn?.elim 0 (·.remaining + 1) := w.remaining_eq
    cases ha : advance? ws with
    | some ws' =>
      rw [ha] at ih
      simp only [advance?, ha, Option.elim, remaining, options_of_advance? ha, ih, Nat.add_assoc]
    | none =>
      rw [ha] at ih
      cases ht : w.turn? with
      | none =>
        rw [ht] at hw
        simp only [advance?, ha, ht, Option.map_none, Option.elim, remaining, hw, ih, Nat.zero_mul]
      | some w' =>
        rw [ht] at hw
        simp only [advance?, ha, ht, Option.map_some, Option.elim, remaining, hw, ih,
          remaining_reset, options_reset, Nat.succ_mul]

end Odometer
end LinearArith
