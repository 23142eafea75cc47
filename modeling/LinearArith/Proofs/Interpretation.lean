import LinearArith.ProofState
import Mathlib.Algebra.Order.Field.Rat

/-! The meaning of terms, propositions and proof states. An interpretation gives every name a rational value.
Where arithmetic says nothing it is free: at quotients by 0, at propositions that are not understood
and at typed facts without a sign. -/

namespace LinearArith

structure Interpretation where
  value : String → Rat
  /-- The value of `t / u` where that of `u` is 0. -/
  quotient : Term → Term → Rat
  typed : Variable → Prop
  unread : String → Prop

namespace Term

mutual

def value (ρ : Interpretation) : Term → Rat
  | const q => q
  | var v => ρ.value v.name
  | add ts => sumValue ρ ts
  | mul ts => productValue ρ ts
  | neg t => -t.value ρ
  | div t u => if u.value ρ = 0 then ρ.quotient t u else t.value ρ / u.value ρ

def sumValue (ρ : Interpretation) : List Term → Rat
  | [] => 0
  | t :: ts => t.value ρ + sumValue ρ ts

def productValue (ρ : Interpretation) : List Term → Rat
  | [] => 1
  | t :: ts => t.value ρ * productValue ρ ts

end

end Term

def Variable.hasRealSign (v : Variable) : Bool := v.isReal && v.isNonnegative

theorem Variable.hasRealSign_iff {v : Variable} :
    v.hasRealSign = true ↔ v.isReal = true ∧ v.isNonnegative = true := Bool.and_eq_true_iff

theorem Variable.isNonnegative_of_isPositive {v : Variable} (h : v.isPositive = true) :
    v.isNonnegative = true := by
  have hs : v.sign = .positive := beq_iff_eq.mp h
  rw [isNonnegative, hs]
  rfl

def Variable.SignHolds (x : Rat) (v : Variable) : Prop := if v.isPositive then 0 < x else 0 ≤ x

namespace Proposition

def Holds (ρ : Interpretation) : Proposition → Prop
  | truth b => b = true
  | compare c l r => c.holds (l.value ρ) (r.value ρ) = true
  | typed v => if v.hasRealSign then v.SignHolds (ρ.value v.name) else ρ.typed v
  | unread text => ρ.unread text

/-- Truth where a positive integer is one that is at least 1, even if its value is a fraction. -/
def HoldsSharply (ρ : Interpretation) : Proposition → Prop
  | typed v =>
    if v.isPositive && v.isInteger then 1 ≤ ρ.value v.name else (typed v).Holds ρ
  | p => p.Holds ρ

theorem holdsSharply_iff {ρ : Interpretation} {p : Proposition}
    (h : ∀ v, p = typed v → v.domain = .integer → ∃ n : Int, ρ.value v.name = n) :
    p.HoldsSharply ρ ↔ p.Holds ρ := by
  cases p with
  | truth b => exact Iff.rfl
  | compare c l r => exact Iff.rfl
  | unread text => exact Iff.rfl
  | typed v =>
    by_cases hv : (v.isPositive && v.isInteger) = true
    · simp only [HoldsSharply, if_pos hv]
      obtain ⟨hpos, hint⟩ := Bool.and_eq_true_iff.mp hv
      have hd : v.domain = .integer := beq_iff_eq.mp hint
      obtain ⟨n, hn⟩ := h v rfl hd
      have hreal : v.isReal = true := by rw [Variable.isReal, hd]; rfl
      have hsign : v.hasRealSign = true :=
        Variable.hasRealSign_iff.mpr ⟨hreal, Variable.isNonnegative_of_isPositive hpos⟩
      simp only [Holds, if_pos hsign, Variable.SignHolds, if_pos hpos, hn]
      norm_cast
    · simp only [HoldsSharply, if_neg hv]

/-- A negation is true where the proposition is false, if it is understood at all. -/
theorem holds_negate {ρ : Interpretation} {p : Proposition} (h : ∀ text, p.negate ≠ unread text) :
    p.negate.Holds ρ ↔ ¬p.Holds ρ := by
  cases p with
  | truth b => cases b <;> simp [negate, Holds]
  | compare c l r => simp [negate, Holds, Comparison.holds_negate]
  | unread text => exact absurd rfl (h _)
  | typed v =>
    by_cases hr : v.isReal = true
    · by_cases hp : v.isPositive = true
      · have hs : v.hasRealSign = true :=
          Variable.hasRealSign_iff.mpr ⟨hr, Variable.isNonnegative_of_isPositive hp⟩
        have hneg : (typed v).negate = compare .le (.var v) (.const 0) := by simp [negate, hr, hp]
        rw [hneg, Holds, Holds, if_pos hs, Variable.SignHolds, if_pos hp, not_lt]
        exact decide_eq_true_iff
      · by_cases hn : v.isNonnegative = true
        · have hs : v.hasRealSign = true := Variable.hasRealSign_iff.mpr ⟨hr, hn⟩
          have hneg : (typed v).negate = compare .lt (.var v) (.const 0) := by
            simp [negate, hr, hp, hn]
          rw [hneg, Holds, Holds, if_pos hs, Variable.SignHolds, if_neg hp, not_le]
          exact decide_eq_true_iff
        · exact absurd (by simp [negate, hp, hn]) (h ("¬" ++ v.text))
    · exact absurd (by simp [negate, hr]) (h ("¬" ++ v.text))

end Proposition

namespace ProofState

/-- The state tells the domain of the variable, in a declaration or an assumed typed fact. -/
def Types (s : ProofState) (v : Variable) : Prop :=
  v ∈ s.scope.toList ∨ ∃ h ∈ s.hypotheses, h.claim = .typed v

/-- The integer variables have integer values, and what is declared and assumed is true. -/
structure Premises (s : ProofState) (ρ : Interpretation) : Prop where
  integral : ∀ v, s.Types v → v.domain = .integer → ∃ n : Int, ρ.value v.name = n
  declared : ∀ v ∈ s.scope.toList, v.hasRealSign = true → v.SignHolds (ρ.value v.name)
  assumed : ∀ h ∈ s.hypotheses, h.claim.Holds ρ

/-- The goal is true under every interpretation that makes the premises true. -/
def Entailed (s : ProofState) : Prop := ∀ ρ, s.Premises ρ → s.goal.Holds ρ

end ProofState
end LinearArith
