import LinearArith.Constraint
import LinearArith.LinComb.Laws

/-! What a constraint without unknowns and a constraint in canonical form say. -/

namespace LinearArith

def Canonical.holdsAt (v : String → Rat) (d : Canonical) : Bool :=
  d.kind.relation.holds (d.linear.eval v) d.bound

namespace Constraint

theorem canonical_kind_strict_iff {c : Constraint} :
    c.canonical.kind = .strict ↔ c.relation.isStrict = true := by
  rcases c with ⟨l, r, q⟩
  cases r <;> simp [canonical, Relation.isStrict, Relation.isLower]

theorem canonical_kind_equal_iff {c : Constraint} :
    c.canonical.kind = .equal ↔ c.relation = .eq := by
  rcases c with ⟨l, r, q⟩
  cases r <;> simp [canonical, Relation.isStrict, Relation.isLower]

/-- Turning a lower bound round changes nothing. -/
theorem holdsAt_canonical (v : String → Rat) (c : Constraint) :
    c.canonical.holdsAt v = c.holdsAt v := by
  have hneg : c.linear.neg.eval v = -c.linear.eval v := by
    rw [LinComb.neg, LinComb.eval_scale, Rat.mul_neg, Rat.mul_one]
  rcases c with ⟨l, r, q⟩
  cases r with
  | eq => rfl
  | le => rfl
  | lt => rfl
  | ge =>
    change decide (l.neg.eval v ≤ -q) = decide (q ≤ l.eval v)
    rw [hneg, decide_eq_decide]
    exact Rat.neg_le_neg_iff
  | gt =>
    change decide (l.neg.eval v < -q) = decide (q < l.eval v)
    rw [hneg, decide_eq_decide]
    exact Rat.neg_lt_neg_iff

theorem holdsAt_of_isStaticallyFalse {c : Constraint}
    (h : c.isStaticallyFalse = true) (v : String → Rat) : c.holdsAt v = false := by
  obtain ⟨he, hf⟩ := Bool.and_eq_true_iff.mp h
  have hz : c.linear.eval v = 0 := by rw [LinComb.isEmpty_iff.mp he, LinComb.eval_empty]
  rw [holdsAt, hz]
  simpa using hf

end Constraint
end LinearArith
