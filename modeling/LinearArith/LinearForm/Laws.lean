import LinearArith.LinComb.Laws
import LinearArith.LinearForm

/-! What the operations on linear forms do to values, and what equality of forms means. -/

namespace LinearArith
namespace LinearForm

@[simp] theorem eval_zero (v : String → Rat) : zero.eval v = 0 := by
  rw [eval, zero, LinComb.eval_empty, Rat.zero_add]

@[simp] theorem eval_const (v : String → Rat) (q : Rat) : (const q).eval v = q := by
  rw [eval, const, LinComb.eval_empty, Rat.zero_add]

@[simp] theorem eval_ofVariable (v : String → Rat) (x : Variable) :
    (ofVariable x).eval v = v x.name := by
  rw [eval, ofVariable, LinComb.eval_single, Rat.one_mul, Rat.add_zero]

theorem eval_addScaled (v : String → Rat) (f g : LinearForm) (q : Rat) :
    (f.addScaled g q).eval v = f.eval v + q * g.eval v := by
  simp only [addScaled, eval, LinComb.eval_add, LinComb.eval_scale]
  grind

theorem eval_scale (v : String → Rat) (f : LinearForm) (q : Rat) :
    (f.scale q).eval v = q * f.eval v := by
  rw [scale, eval_addScaled, eval_zero, Rat.zero_add]

theorem eval_sub (v : String → Rat) (f g : LinearForm) :
    (f.sub g).eval v = f.eval v - g.eval v := by
  rw [sub, eval_addScaled]
  grind

theorem sameAs_iff {f g : LinearForm} :
    f.sameAs g ↔ f.linear.names = g.linear.names ∧ f.constant = g.constant := by
  simp [sameAs]

end LinearForm
end LinearArith
