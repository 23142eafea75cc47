import LinearArith.LinearForm.Laws
import LinearArith.Proofs.Interpretation
import Mathlib.Tactic.Ring

/-! The linear form of a term has the value of the term under every interpretation. -/

namespace LinearArith

namespace LinearForm

theorem eval_of_isConstant {f : LinearForm} (h : f.isConstant = true) (v : String → Rat) :
    f.eval v = f.constant := by
  have he : f.linear = LinComb.empty := LinComb.isEmpty_iff.mp h
  rw [eval, he, LinComb.eval_empty, zero_add]

end LinearForm

namespace Term

theorem linearize_neg_eq_ok {t : Term} {f : LinearForm} (h : (neg t).linearize = .ok f) :
    ∃ g, t.linearize = .ok g ∧ f = g.scale (-1) := by
  rw [linearize] at h
  obtain ⟨g, hg, hf⟩ := bind_eq_ok_iff.mp h
  exact ⟨g, hg, (Except.ok.inj hf).symm⟩

theorem linearize_div_eq_ok {t u : Term} {f : LinearForm} (h : (div t u).linearize = .ok f) :
    ∃ d g, u.linearize = .ok d ∧ d.isConstant = true ∧ d.constant ≠ 0 ∧
      t.linearize = .ok g ∧ f = g.scale d.constant⁻¹ := by
  rw [linearize] at h
  obtain ⟨d, hd, h⟩ := bind_eq_ok_iff.mp h
  by_cases hc : d.isConstant = true
  · by_cases hz : d.constant = 0
    · simp only [hc, hz] at h
      cases h
    · simp only [hc, hz] at h
      obtain ⟨g, hg, hf⟩ := bind_eq_ok_iff.mp h
      exact ⟨d, g, hd, hc, hz, hg, (Except.ok.inj hf).symm⟩
  · simp only [hc] at h
    cases h

theorem linearizeSum_cons_eq_ok {t : Term} {ts : List Term} {sum f : LinearForm}
    (h : linearizeSum sum (t :: ts) = .ok f) :
    ∃ g, t.linearize = .ok g ∧ linearizeSum (sum.addScaled g 1) ts = .ok f := by
  rw [linearizeSum] at h
  exact bind_eq_ok_iff.mp h

theorem linearizeProduct_cons_eq_ok {whole t : Term} {ts : List Term} {q : Rat}
    {symbolic : Option LinearForm} {f : LinearForm}
    (h : linearizeProduct whole q symbolic (t :: ts) = .ok f) :
    ∃ g, t.linearize = .ok g ∧
      (g.isConstant = true ∧ linearizeProduct whole (q * g.constant) symbolic ts = .ok f ∨
        symbolic = none ∧ linearizeProduct whole q (some g) ts = .ok f) := by
  rw [linearizeProduct] at h
  obtain ⟨g, hg, h⟩ := bind_eq_ok_iff.mp h
  refine ⟨g, hg, ?_⟩
  by_cases hc : g.isConstant = true
  · rw [if_pos hc] at h
    exact Or.inl ⟨hc, h⟩
  · rw [if_neg hc] at h
    cases symbolic with
    | none => exact Or.inr ⟨rfl, h⟩
    | some s => cases h

mutual

/-- No interpretation can tell a term from its linear form. -/
theorem eval_of_linearize (ρ : Interpretation) : (t : Term) → {f : LinearForm} →
    t.linearize = .ok f → f.eval ρ.value = t.value ρ
  | const q, f, h => by
    rw [linearize] at h
    rw [← Except.ok.inj h, LinearForm.eval_const, value]
  | var v, f, h => by
    rw [linearize] at h
    rw [← Except.ok.inj h, LinearForm.eval_ofVariable, value]
  | add ts, f, h => by
    rw [linearize] at h
    rw [eval_of_linearizeSum ρ ts h, LinearForm.eval_zero, zero_add, value]
  | mul ts, f, h => by
    rw [linearize] at h
    rw [eval_of_linearizeProduct ρ ts h, value]
    simp only [Option.elim, one_mul]
  | neg t, f, h => by
    obtain ⟨g, hg, rfl⟩ := linearize_neg_eq_ok h
    rw [LinearForm.eval_scale, eval_of_linearize ρ t hg, value, neg_one_mul]
  | div t u, f, h => by
    obtain ⟨d, g, hd, hconst, hne, hg, rfl⟩ := linearize_div_eq_ok h
    have hu : u.value ρ = d.constant := by
      rw [← eval_of_linearize ρ u hd, LinearForm.eval_of_isConstant hconst]
    rw [LinearForm.eval_scale, eval_of_linearize ρ t hg, value, hu, if_neg hne,
      inv_mul_eq_div]

theorem eval_of_linearizeSum (ρ : Interpretation) : (ts : List Term) → {sum f : LinearForm} →
    linearizeSum sum ts = .ok f → f.eval ρ.value = sum.eval ρ.value + sumValue ρ ts
  | [], sum, f, h => by
    rw [linearizeSum] at h
    rw [← Except.ok.inj h, sumValue, add_zero]
  | t :: ts, sum, f, h => by
    obtain ⟨g, hg, h⟩ := linearizeSum_cons_eq_ok h
    rw [eval_of_linearizeSum ρ ts h, LinearForm.eval_addScaled, eval_of_linearize ρ t hg,
      sumValue]
    ring

/-- What was found before the remaining factors multiplies their values. -/
theorem eval_of_linearizeProduct (ρ : Interpretation) : (ts : List Term) → {whole : Term} → {q : Rat} →
    {symbolic : Option LinearForm} → {f : LinearForm} →
    linearizeProduct whole q symbolic ts = .ok f →
    f.eval ρ.value = symbolic.elim 1 (·.eval ρ.value) * q * productValue ρ ts
  | [], whole, q, symbolic, f, h => by
    rw [linearizeProduct] at h
    rw [← Except.ok.inj h, productValue]
    cases symbolic with
    | none => simp
    | some g => simp [LinearForm.eval_scale, mul_comm]
  | t :: ts, whole, q, symbolic, f, h => by
    obtain ⟨g, hg, hc⟩ := linearizeProduct_cons_eq_ok h
    have ht : g.eval ρ.value = t.value ρ := eval_of_linearize ρ t hg
    rcases hc with ⟨hconst, hts⟩ | ⟨rfl, hts⟩
    · rw [eval_of_linearizeProduct ρ ts hts, productValue, ← ht,
        LinearForm.eval_of_isConstant hconst]
      ring
    · rw [eval_of_linearizeProduct ρ ts hts, productValue, ← ht]
      simp only [Option.elim]
      ring

end

theorem eval_of_linearDifference (ρ : Interpretation) {t u : Term} {f : LinearForm}
    (h : t.linearDifference u = .ok f) : f.eval ρ.value = t.value ρ - u.value ρ := by
  rw [linearDifference] at h
  obtain ⟨g, hg, h⟩ := bind_eq_ok_iff.mp h
  obtain ⟨g', hg', h⟩ := bind_eq_ok_iff.mp h
  rw [← Except.ok.inj h, LinearForm.eval_sub, eval_of_linearize ρ t hg,
    eval_of_linearize ρ u hg']

end Term
end LinearArith
