import LinearArith.Proofs.Linearization
import Mathlib.Logic.Function.Basic

/-! Linear forms are canonical. Forms are made from each other step by step, and each step does to the
values of the forms what it does to the forms. However a form was made, it has a coefficient for a
name only if its value depends on that name, and forms with the same values are equal. -/

namespace LinearArith

namespace LinearForm

theorem eval_zero_values (f : LinearForm) : f.eval (fun _ => 0) = f.constant := by
  have hlinear : f.linear.eval (fun _ => 0) = 0 := LinComb.total_eq_zero fun _ _ => rfl
  rw [eval, hlinear, zero_add]

theorem coeff_eq_eval_sub (x : String) (f : LinearForm) :
    f.linear.coeff x = f.eval (Function.update (fun _ => 0) x 1) - f.eval (fun _ => 0) := by
  have hvalues : Function.update (fun _ => 0) x 1 = fun y : String => if y = x then (1 : Rat) else 0 := by
    funext y
    rw [Function.update_apply]
  rw [eval_zero_values, hvalues, eval, ← LinComb.coeff_eq_eval, add_sub_cancel_right]

theorem mem_keys_iff {x : String} {f : LinearForm} :
    x ∈ f.linear.keys ↔ ∃ v q, f.eval (Function.update v x q) ≠ f.eval v := by
  constructor
  · intro hx
    have hne : f.linear.coeff x ≠ 0 := LinComb.mem_keys_iff.mp hx
    rw [coeff_eq_eval_sub] at hne
    exact ⟨fun _ => 0, 1, sub_ne_zero.mp hne⟩
  · rintro ⟨v, q, hne⟩
    by_contra hx
    have hsame : f.linear.eval (Function.update v x q) = f.linear.eval v := by
      apply LinComb.eval_congr
      intro y hy
      have hyx : y ≠ x := fun he => hx (he ▸ hy)
      exact Function.update_of_ne hyx q v
    exact hne (by rw [eval, eval, hsame])

theorem sameAs_iff_eval {f g : LinearForm} : f.sameAs g = true ↔ ∀ v, f.eval v = g.eval v := by
  rw [sameAs_iff]
  constructor
  · rintro ⟨hnames, hconstant⟩ v
    rw [eval, eval, ← LinComb.eval_names, hnames, LinComb.eval_names, hconstant]
  · intro h
    constructor
    · apply LinComb.eq_of_coeff_eq
      intro x
      rw [LinComb.coeff_names, LinComb.coeff_names, coeff_eq_eval_sub, coeff_eq_eval_sub, h, h]
    · rw [← eval_zero_values, ← eval_zero_values, h]

/-! ### Forms made step by step -/

/-- A step puts a new form at the end of a list of forms or changes one of them in place. -/
inductive Step where
  | zero
  | const (q : Rat)
  | ofVariable (v : Variable)
  | linearize (t : Term)
  | scale (i : Nat) (q : Rat)
  | sub (i j : Nat)
  | addScaled (i j : Nat) (q : Rat)

/-- What the steps do to things that can be added and multiplied by a number. -/
structure Operations (α : Type) where
  zero : α
  const : Rat → α
  ofVariable : Variable → α
  ofTerm? : Term → Option α
  scale : α → Rat → α
  sub : α → α → α
  addScaled : α → α → Rat → α

namespace Operations

def forms : Operations LinearForm where
  zero := .zero
  const := .const
  ofVariable := .ofVariable
  ofTerm? t := t.linearize.toOption
  scale := .scale
  sub := .sub
  addScaled := .addScaled

/-- The steps on values; a term has its value, not that of its form. -/
def values (ρ : Interpretation) : Operations Rat where
  zero := 0
  const q := q
  ofVariable v := ρ.value v.name
  ofTerm? t := t.linearize.toOption.map fun _ => t.value ρ
  scale p q := q * p
  sub p r := p - r
  addScaled p r q := p + q * r

end Operations

/-- A step that refers to a place where there is nothing, or to a term without a linear form, leaves
the list as it is. -/
def Step.apply {α : Type} (A : Operations α) (pool : List α) : Step → List α
  | zero => pool ++ [A.zero]
  | const q => pool ++ [A.const q]
  | ofVariable v => pool ++ [A.ofVariable v]
  | linearize t => pool ++ (A.ofTerm? t).toList
  | scale i q =>
    match pool[i]? with
    | some f => pool ++ [A.scale f q]
    | none => pool
  | sub i j =>
    match pool[i]?, pool[j]? with
    | some f, some g => pool ++ [A.sub f g]
    | _, _ => pool
  | addScaled i j q =>
    match pool[i]?, pool[j]? with
    | some f, some g => pool.set i (A.addScaled f g q)
    | _, _ => pool

def run {α : Type} (A : Operations α) (steps : List Step) (pool : List α) : List α :=
  steps.foldl (Step.apply A) pool

structure Operations.Carries {α β : Type} (A : Operations α) (B : Operations β) (h : α → β) :
    Prop where
  zero : h A.zero = B.zero
  const : ∀ q, h (A.const q) = B.const q
  ofVariable : ∀ v, h (A.ofVariable v) = B.ofVariable v
  ofTerm? : ∀ t, (A.ofTerm? t).map h = B.ofTerm? t
  scale : ∀ f q, h (A.scale f q) = B.scale (h f) q
  sub : ∀ f g, h (A.sub f g) = B.sub (h f) (h g)
  addScaled : ∀ f g q, h (A.addScaled f g q) = B.addScaled (h f) (h g) q

section Carries
variable {α β : Type} {A : Operations α} {B : Operations β} {h : α → β}

theorem Operations.Carries.map_apply (hh : A.Carries B h) (s : Step) (pool : List α) :
    (s.apply A pool).map h = s.apply B (pool.map h) := by
  cases s with
  | zero => simp only [Step.apply, List.map_append, List.map_cons, List.map_nil, hh.zero]
  | const q => simp only [Step.apply, List.map_append, List.map_cons, List.map_nil, hh.const]
  | ofVariable v =>
    simp only [Step.apply, List.map_append, List.map_cons, List.map_nil, hh.ofVariable]
  | linearize t =>
    have ht := hh.ofTerm? t
    simp only [Step.apply, List.map_append, ← ht, Option.toList_map]
  | scale i q =>
    simp only [Step.apply, List.getElem?_map]
    cases pool[i]? with
    | none => rfl
    | some f => simp only [Option.map_some, List.map_append, List.map_cons, List.map_nil, hh.scale]
  | sub i j =>
    simp only [Step.apply, List.getElem?_map]
    cases pool[i]? with
    | none => rfl
    | some f =>
      cases pool[j]? with
      | none => rfl
      | some g => simp only [Option.map_some, List.map_append, List.map_cons, List.map_nil, hh.sub]
  | addScaled i j q =>
    simp only [Step.apply, List.getElem?_map]
    cases pool[i]? with
    | none => rfl
    | some f =>
      cases pool[j]? with
      | none => rfl
      | some g => simp only [Option.map_some, List.map_set, hh.addScaled]

/-- To carry over the outcome of a run is to run on what is carried over. -/
theorem Operations.Carries.map_run (hh : A.Carries B h) (steps : List Step) (pool : List α) :
    (run A steps pool).map h = run B steps (pool.map h) := by
  induction steps generalizing pool with
  | nil => rfl
  | cons s steps ih => exact (ih (s.apply A pool)).trans (congrArg _ (hh.map_apply s pool))

end Carries

theorem carries_eval (ρ : Interpretation) :
    Operations.forms.Carries (.values ρ) (·.eval ρ.value) where
  zero := eval_zero ρ.value
  const := eval_const ρ.value
  ofVariable := eval_ofVariable ρ.value
  ofTerm? t := by
    cases h : t.linearize with
    | error e => simp [Operations.forms, Operations.values, h, Except.toOption]
    | ok f => simp [Operations.forms, Operations.values, h, Except.toOption, Term.eval_of_linearize ρ t h]
  scale f q := eval_scale ρ.value f q
  sub f g := eval_sub ρ.value f g
  addScaled f g q := eval_addScaled ρ.value f g q

/-- The values of the forms that steps make are what the steps make of values. No form has a zero
coefficient, nor a coefficient for a name on which its value does not depend. Two forms, however they
are made, are equal if and only if they have the same values. -/
theorem run_canonical :
    (∀ (steps : List Step) (ρ : Interpretation),
      (run .forms steps []).map (·.eval ρ.value) = run (.values ρ) steps []) ∧
    (∀ steps : List Step, ∀ f ∈ run .forms steps [], (∀ e ∈ f.linear.toList, e.2 ≠ 0) ∧
      ∀ x, x ∈ f.linear.keys ↔ ∃ v q, f.eval (Function.update v x q) ≠ f.eval v) ∧
    ∀ steps steps' : List Step, ∀ f ∈ run .forms steps [], ∀ g ∈ run .forms steps' [],
      f.sameAs g = true ↔ ∀ v, f.eval v = g.eval v := by
  refine ⟨fun steps ρ => (carries_eval ρ).map_run steps [], fun steps f _ => ?_,
    fun steps steps' f _ g _ => sameAs_iff_eval⟩
  exact ⟨f.linear.nonzero, fun x => mem_keys_iff⟩

/-- The forms of `x` less itself and of 3 less itself are equal, and `x` has no coefficient. -/
theorem sameAs_of_cancellation :
    ∃ f ∈ run .forms [.ofVariable ⟨"x", .real, .unknown⟩, .addScaled 0 0 (-1)] [],
      ∃ g ∈ run .forms [.const 3, .addScaled 0 0 (-1)] [],
        f.sameAs g = true ∧ "x" ∉ f.linear.keys := by
  obtain ⟨-, hdepends, hequal⟩ := run_canonical
  let x : Variable := ⟨"x", .real, .unknown⟩
  have hf : (ofVariable x).addScaled (ofVariable x) (-1) ∈
      run .forms [.ofVariable x, .addScaled 0 0 (-1)] [] := List.mem_singleton_self _
  have hg : (const 3).addScaled (const 3) (-1) ∈ run .forms [.const 3, .addScaled 0 0 (-1)] [] :=
    List.mem_singleton_self _
  have hzero : ∀ v, ((ofVariable x).addScaled (ofVariable x) (-1)).eval v = 0 := by
    intro v
    rw [eval_addScaled, neg_one_mul, add_neg_cancel]
  refine ⟨_, hf, _, hg, (hequal _ _ _ hf _ hg).mpr fun v => ?_, fun hx => ?_⟩
  · rw [hzero, eval_addScaled, neg_one_mul, add_neg_cancel]
  · obtain ⟨v, q, hne⟩ := ((hdepends _ _ hf).2 "x").mp hx
    exact hne ((hzero _).trans (hzero v).symm)

end LinearForm
end LinearArith
