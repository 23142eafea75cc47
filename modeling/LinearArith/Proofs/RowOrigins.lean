import LinearArith.Proofs.CheckedElimination
import LinearArith.Proofs.Provenance

/-! The rows that an elimination comes across, and where they come from: in a scenario each of them is
the sum of constraints that its `origin` tells, with coefficients other than 0 to divide by. -/

namespace LinearArith
namespace Elimination

/-- The elimination of `rows` comes across the row: it is there in the beginning or in some state, or it
is a sum that a step makes or a candidate that a step normalizes. -/
inductive Occurs (rows : List Row) : Row → Prop
  | initial {r : Row} (hr : r ∈ rows) : Occurs rows r
  | current {xs : List String} {current : List Row} {r : Row} (h : Reaches rows xs current)
      (hr : r ∈ current) : Occurs rows r
  | combined {x : String} {xs : List String} {current : List Row} {r : Row}
      (h : Reaches rows (x :: xs) current) (hr : r ∈ resolvents x current) : Occurs rows r
  | rescaled {x : String} {xs : List String} {current : List Row} {r : Row}
      (h : Reaches rows (x :: xs) current) (hr : r ∈ candidates x current) : Occurs rows r.normalize

theorem Occurs.of_stable {P : Row → Prop} (hP : Row.Stable P) {rows : List Row}
    (hrows : ∀ r ∈ rows, P r) {r : Row} (h : Occurs rows r) : P r := by
  cases h with
  | initial hr => exact hrows r hr
  | current h hr => exact h.forall_of_stable hP hrows r hr
  | combined h hr => exact forall_resolvents hP (h.forall_of_stable hP hrows) r hr
  | @rescaled x _ current r h hr =>
    have hcurrent := h.forall_of_stable hP hrows
    apply hP.normalize
    rcases List.mem_append.mp hr with hr | hr
    · exact hcurrent r (List.mem_filter.mp hr).1
    · exact forall_resolvents hP hcurrent r (List.mem_filter.mp hr).1

theorem occurs_of_run_error {rows : List Row} {r : Row} (h : run rows = .error r) :
    Occurs rows r := by
  rcases exists_reaches_of_run_error h with hr | ⟨x, xs, current, hreach, hr⟩
  · exact .initial hr
  · exact .combined hreach hr

theorem occurs_of_run_ok {rows : List Row} {stages : List Stage} (h : run rows = .ok stages) :
    ∀ s ∈ stages, ∀ r ∈ s.rows, Occurs rows r := by
  intro s hs r hr
  obtain ⟨xs, current, hreach, hrows⟩ := exists_reaches_of_run_ok h s hs
  rw [hrows] at hr
  exact .current hreach (List.mem_filter.mp hr).1

end Elimination

namespace Scenario

open Elimination (Occurs)

/-- Every row that the elimination of a scenario comes across is the sum of constraints that its `origin`
tells, and none of its coefficients is 0. That includes the rows with which the elimination ends. So no
division on the way to the certificate is by 0, and no coefficient is missing. -/
theorem rows_tell_origin (s : Scenario) :
    (∀ r, Occurs (s.toList.flatMap Row.ofConstraint) r → r.SumOf s ∧
      ∀ e ∈ r.linear.toList, e.2 ≠ 0 ∧
        e.2 = r.origin.eval fun c => c.canonical.linear.coeff e.1) ∧
    (∀ r, Elimination.run (s.toList.flatMap Row.ofConstraint) = .error r →
      Occurs (s.toList.flatMap Row.ofConstraint) r) ∧
    (∀ stages, Elimination.run (s.toList.flatMap Row.ofConstraint) = .ok stages →
      ∀ t ∈ stages, ∀ r ∈ t.rows, Occurs (s.toList.flatMap Row.ofConstraint) r) ∧
    Checked.certificate s = .ok s.certificate := by
  refine ⟨fun r hr => ?_, fun _ => Elimination.occurs_of_run_error,
    fun _ => Elimination.occurs_of_run_ok, Checked.certificate_eq s⟩
  have hsum : r.SumOf s := hr.of_stable (Row.SumOf.stable s) Row.SumOf.of_mem_rows
  refine ⟨hsum, fun e he => ⟨r.linear.nonzero e he, ?_⟩⟩
  rw [← hsum.linear]
  exact (LinComb.coeff_of_mem he).symm

/-- Of `x < y` and `x + 2 * y = 3`, the inequality and the second half of the equation give `-y < -1`. -/
theorem normalized_sum_tells_origin :
    ∃ s : Scenario, s.toList = [⟨LinComb.ofList [("x", 1), ("y", -1)], .lt, 0⟩,
        ⟨LinComb.ofList [("x", 1), ("y", 2)], .eq, 3⟩] ∧
      ∃ r, Occurs (s.toList.flatMap Row.ofConstraint) r ∧
        r.linear.toList = [("y", -1)] ∧ r.bound = -1 ∧ r.strict = true ∧
        r.origin.toList.map (·.2) = [1 / 3, -1 / 3] ∧ r.SumOf s := by
  let c : Constraint := ⟨LinComb.ofList [("x", 1), ("y", -1)], .lt, 0⟩
  let d : Constraint := ⟨LinComb.ofList [("x", 1), ("y", 2)], .eq, 3⟩
  refine ⟨⟨[c, d], by decide +kernel⟩, rfl, ?_⟩
  generalize hrows : [c, d].flatMap Row.ofConstraint = rows
  have hstart : Elimination.Reaches rows (Elimination.unknowns rows) rows :=
    .of_not_isConstant (by subst hrows; decide +kernel)
  rw [show Elimination.unknowns rows = ["x", "y"] by subst hrows; decide +kernel] at hstart
  have hoccurs : Occurs rows (Row.normalize ⟨LinComb.ofList [("y", -3)], -3, true,
      LinComb.ofList [(c, 1), (d, -1)]⟩) := .rescaled hstart (by subst hrows; decide +kernel)
  exact ⟨_, hoccurs, by decide +kernel, by decide +kernel, by decide +kernel, by decide +kernel,
    ((rows_tell_origin ⟨[c, d], by decide +kernel⟩).1 _ (hrows ▸ hoccurs)).1⟩

end Scenario
end LinearArith
