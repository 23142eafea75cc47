import LinearArith.LinComb.Relabel
import LinearArith.LinearForm.Laws
import LinearArith.Options
import LinearArith.ProofState
import LinearArith.Scenario

/-! Renaming of variables. Different names stay different, but their order may change, and with it the
order of declarations, of the summands of a linear form and of the constraints of a scenario. What a
proposition asserts is renamed along with it: linear forms and options commute with renaming. -/

namespace LinearArith

/-- New names for variables, and new texts for what cannot be read, where names may occur too. -/
structure Renaming where
  name : String → String
  injective : Function.Injective name
  unread : String → String

/-! ### Terms, propositions and proof states -/

def Variable.rename (f : Renaming) (v : Variable) : Variable := { v with name := f.name v.name }

namespace Term

mutual

def rename (f : Renaming) : Term → Term
  | const q => const q
  | var v => var (v.rename f)
  | add ts => add (renameAll f ts)
  | mul ts => mul (renameAll f ts)
  | neg t => neg (t.rename f)
  | div t u => div (t.rename f) (u.rename f)

def renameAll (f : Renaming) : List Term → List Term
  | [] => []
  | t :: ts => t.rename f :: renameAll f ts

end

end Term

def Proposition.rename (f : Renaming) : Proposition → Proposition
  | truth b => truth b
  | compare c l r => compare c (l.rename f) (r.rename f)
  | typed v => typed (v.rename f)
  | unread text => unread (f.unread text)

def Hypothesis.rename (f : Renaming) (h : Hypothesis) : Hypothesis := ⟨h.name, h.claim.rename f⟩

def ProofState.rename (f : Renaming) (s : ProofState) : ProofState :=
  ⟨s.scope.image (Variable.rename f), s.hypotheses.map (Hypothesis.rename f), s.goal.rename f⟩

/-! ### Linear forms, constraints and scenarios -/

def LinearForm.rename (f : Renaming) (g : LinearForm) : LinearForm :=
  ⟨g.linear.relabel (Variable.rename f), g.constant⟩

def Constraint.rename (f : Renaming) (c : Constraint) : Constraint :=
  ⟨c.linear.relabel f.name, c.relation, c.constant⟩

def Scenario.rename (f : Renaming) (s : Scenario) : Scenario := s.image (Constraint.rename f)

namespace Renaming
variable (f : Renaming)

theorem relabels_variable : SortedBy.Relabels Variable.name Variable.name (Variable.rename f) f.name :=
  ⟨f.injective, fun _ => rfl⟩

theorem relabels_name : SortedBy.Relabels (id : String → String) id f.name f.name :=
  ⟨f.injective, fun _ => rfl⟩

end Renaming

/-! ### Linear forms commute with renaming -/

namespace LinearForm
variable (f : Renaming)

theorem rename_ofVariable (v : Variable) : (ofVariable v).rename f = ofVariable (v.rename f) := by
  rw [rename, ofVariable, LinComb.relabel_single]
  rfl

theorem rename_addScaled (g h : LinearForm) (q : Rat) :
    (g.addScaled h q).rename f = (g.rename f).addScaled (h.rename f) q := by
  simp only [rename, addScaled, f.relabels_variable.relabel_add, f.relabels_variable.relabel_scale]

theorem rename_scale (g : LinearForm) (q : Rat) : (g.scale q).rename f = (g.rename f).scale q :=
  rename_addScaled f zero g q

theorem rename_sub (g h : LinearForm) : (g.sub h).rename f = (g.rename f).sub (h.rename f) :=
  rename_addScaled f g h (-1)

theorem constant_rename (g : LinearForm) : (g.rename f).constant = g.constant := rfl

theorem isConstant_rename (g : LinearForm) : (g.rename f).isConstant = g.isConstant :=
  f.relabels_variable.isEmpty_relabel g.linear

end LinearForm

namespace Term

theorem toOption_linearize_neg (t : Term) :
    (neg t).linearize.toOption = t.linearize.toOption.map (·.scale (-1)) := by
  rw [linearize, toOption_bind]
  cases t.linearize.toOption <;> rfl

theorem toOption_linearize_div (t u : Term) :
    (div t u).linearize.toOption = u.linearize.toOption.bind fun d =>
      if d.isConstant = true ∧ d.constant ≠ 0 then
        t.linearize.toOption.map (·.scale d.constant⁻¹)
      else none := by
  rw [linearize, toOption_bind]
  congr 1
  funext d
  by_cases hc : d.isConstant = true
  · by_cases hz : d.constant = 0
    · simp only [hc, hz]
      rfl
    · simp only [hc, hz, Bool.not_true, Bool.false_eq_true, if_false, toOption_bind]
      rw [if_pos ⟨trivial, hz⟩]
      cases t.linearize.toOption <;> rfl
  · simp only [hc]
    rfl

theorem toOption_linearizeSum_cons (sum : LinearForm) (t : Term) (ts : List Term) :
    (linearizeSum sum (t :: ts)).toOption =
      t.linearize.toOption.bind fun g => (linearizeSum (sum.addScaled g 1) ts).toOption := by
  rw [linearizeSum, toOption_bind]

theorem toOption_linearizeProduct_cons (whole : Term) (q : Rat) (symbolic : Option LinearForm)
    (t : Term) (ts : List Term) :
    (linearizeProduct whole q symbolic (t :: ts)).toOption =
      t.linearize.toOption.bind fun g =>
        if g.isConstant = true then (linearizeProduct whole (q * g.constant) symbolic ts).toOption
        else if symbolic.isNone = true then (linearizeProduct whole q (some g) ts).toOption
        else none := by
  rw [linearizeProduct, toOption_bind]
  congr 1
  funext g
  split
  · rfl
  · split <;> rfl

mutual

/-- The linear form of a renamed term is the renamed linear form. A term without one has none under
other names either, but the text of its fault is another. -/
theorem linearize_rename (f : Renaming) : (t : Term) →
    (t.rename f).linearize.toOption = t.linearize.toOption.map (·.rename f)
  | const q => by
    rw [rename, linearize]
    rfl
  | var v => by
    rw [rename, linearize, linearize, ← LinearForm.rename_ofVariable]
    rfl
  | add ts => by
    rw [rename, linearize, linearize]
    exact linearizeSum_rename f ts .zero
  | mul ts => by
    rw [rename, linearize, linearize]
    exact linearizeProduct_rename f ts _ _ 1 none
  | neg t => by
    rw [rename, toOption_linearize_neg, toOption_linearize_neg, linearize_rename f t]
    simp only [Option.map_map, Function.comp_def, LinearForm.rename_scale]
  | div t u => by
    rw [rename, toOption_linearize_div, toOption_linearize_div, linearize_rename f t,
      linearize_rename f u]
    cases u.linearize.toOption with
    | none => rfl
    | some d =>
      simp only [Option.map_some, Option.bind_some, LinearForm.isConstant_rename,
        LinearForm.constant_rename]
      split
      · simp only [Option.map_map, Function.comp_def, LinearForm.rename_scale]
      · rfl

theorem linearizeSum_rename (f : Renaming) : (ts : List Term) → (sum : LinearForm) →
    (linearizeSum (sum.rename f) (renameAll f ts)).toOption =
      (linearizeSum sum ts).toOption.map (·.rename f)
  | [], sum => by
    rw [renameAll, linearizeSum, linearizeSum]
    rfl
  | t :: ts, sum => by
    rw [renameAll, toOption_linearizeSum_cons, toOption_linearizeSum_cons, linearize_rename f t]
    cases t.linearize.toOption with
    | none => rfl
    | some g =>
      simp only [Option.map_some, Option.bind_some]
      rw [← LinearForm.rename_addScaled, linearizeSum_rename f ts]

/-- The product as a whole matters for the text of a fault alone. -/
theorem linearizeProduct_rename (f : Renaming) : (ts : List Term) → (whole whole' : Term) →
    (q : Rat) → (symbolic : Option LinearForm) →
    (linearizeProduct whole' q (symbolic.map (·.rename f)) (renameAll f ts)).toOption =
      (linearizeProduct whole q symbolic ts).toOption.map (·.rename f)
  | [], whole, whole', q, symbolic => by
    rw [renameAll, linearizeProduct, linearizeProduct]
    cases symbolic with
    | none => rfl
    | some h => exact congrArg some (LinearForm.rename_scale f h q).symm
  | t :: ts, whole, whole', q, symbolic => by
    rw [renameAll, toOption_linearizeProduct_cons, toOption_linearizeProduct_cons,
      linearize_rename f t]
    cases t.linearize.toOption with
    | none => rfl
    | some g =>
      simp only [Option.map_some, Option.bind_some, LinearForm.isConstant_rename,
        LinearForm.constant_rename]
      split
      · exact linearizeProduct_rename f ts whole whole' (q * g.constant) symbolic
      · cases symbolic with
        | none => exact linearizeProduct_rename f ts whole whole' q (some g)
        | some h => rfl

end

theorem linearDifference_rename (f : Renaming) (t u : Term) :
    ((t.rename f).linearDifference (u.rename f)).toOption =
      (t.linearDifference u).toOption.map (·.rename f) := by
  simp only [linearDifference, toOption_bind, linearize_rename]
  cases t.linearize.toOption with
  | none => rfl
  | some g => cases u.linearize.toOption with
    | none => rfl
    | some h => exact congrArg some (LinearForm.rename_sub f g h).symm

end Term

/-! ### Options commute with renaming -/

theorem realDifference?_eq (l r : Term) :
    realDifference? l r = (l.linearDifference r).toOption.bind fun g =>
      if (g.linear.toList.all fun e => e.1.isReal) = true then some g else none := by
  rw [realDifference?]
  cases l.linearDifference r <;> rfl

theorem LinearForm.all_isReal_rename (f : Renaming) (g : LinearForm) :
    ((g.rename f).linear.toList.all fun e => e.1.isReal) =
      g.linear.toList.all fun e => e.1.isReal := by
  have hperm := f.relabels_variable.summand.image_perm g.linear.toSortedBy
  rw [rename, LinComb.relabel, hperm.all_eq, List.all_map]
  rfl

theorem realDifference?_rename (f : Renaming) (l r : Term) :
    realDifference? (l.rename f) (r.rename f) = (realDifference? l r).map (·.rename f) := by
  rw [realDifference?_eq, realDifference?_eq, Term.linearDifference_rename]
  cases (l.linearDifference r).toOption with
  | none => rfl
  | some g =>
    simp only [Option.map_some, Option.bind_some, LinearForm.all_isReal_rename]
    split <;> rfl

theorem Constraint.rename_ofForm (f : Renaming) (g : LinearForm) (r : Relation) :
    (ofForm g r).rename f = ofForm (g.rename f) r := by
  simp only [rename, ofForm, LinearForm.rename, f.relabels_variable.relabel_names]

theorem Variable.bound?_rename (f : Renaming) (v : Variable) :
    (v.rename f).bound? = v.bound?.map (·.rename f) := by
  obtain ⟨x, domain, sign⟩ := v
  cases domain <;> cases sign <;> rfl

namespace Proposition
variable (f : Renaming)

theorem options_rename (p : Proposition) :
    (p.rename f).options = p.options.map (Constraint.rename f) := by
  cases p with
  | truth b => cases b <;> rfl
  | compare c l r =>
    simp only [rename, options, realDifference?_rename]
    cases realDifference? l r with
    | none => rfl
    | some g => simp only [Option.map_some, List.map_map, Function.comp_def, Constraint.rename_ofForm]
  | typed v =>
    simp only [rename, options, Variable.bound?_rename]
    cases v.bound? <;> rfl
  | unread text => rfl

theorem options_negate_rename (p : Proposition) :
    (p.rename f).negate.options = p.negate.options.map (Constraint.rename f) := by
  cases p with
  | truth b => exact options_rename f (truth !b)
  | compare c l r => exact options_rename f (compare c.negate l r)
  | typed v =>
    obtain ⟨x, domain, sign⟩ := v
    cases domain <;> cases sign <;> rfl
  | unread text => rfl

end Proposition

end LinearArith
