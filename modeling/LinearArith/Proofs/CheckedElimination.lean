import LinearArith.Proofs.EliminationStates

/-! Elimination and back substitution where each division is checked and each coefficient is looked up.
A division by 0 ends the calculation, and so does a coefficient that is missing. Neither comes up: the
checked calculation always comes to the certificate. -/

namespace LinearArith

inductive Obstacle where
  | zeroDivisor
  | missingCoefficient
  deriving DecidableEq, Repr

namespace Checked

/-! ### Arithmetic -/

def inverse (q : Rat) : Except Obstacle Rat := if q = 0 then .error .zeroDivisor else .ok q⁻¹

def quotient (p q : Rat) : Except Obstacle Rat :=
  if q = 0 then .error .zeroDivisor else .ok (p / q)

def coefficient (x : String) (r : Row) : Except Obstacle Rat :=
  match r.linear.find? x with
  | some e => .ok e.2
  | none => .error .missingCoefficient

theorem inverse_eq {q : Rat} (h : q ≠ 0) : inverse q = .ok q⁻¹ := if_neg h

theorem quotient_eq {p q : Rat} (h : q ≠ 0) : quotient p q = .ok (p / q) := if_neg h

theorem coefficient_eq {x : String} {r : Row} (h : r.linear.coeff x ≠ 0) :
    coefficient x r = .ok (r.linear.coeff x) := by
  unfold coefficient LinComb.coeff at *
  cases hf : r.linear.find? x with
  | none => simp [hf] at h
  | some e => rfl

/-! ### Elimination -/

def resolve (x : String) (upper lower : Row) : Except Obstacle Row := do
  let a ← coefficient x upper
  let b ← coefficient x lower
  let p ← inverse a
  let q ← inverse (-b)
  return (upper.scale p).add (lower.scale q)

def pairs (x : String) (rows : List Row) : List (Row × Row) :=
  (rows.filter fun r => 0 < r.linear.coeff x).flatMap fun upper =>
    (rows.filter fun r => r.linear.coeff x < 0).map fun lower => (upper, lower)

def resolvents (x : String) (rows : List Row) : Except Obstacle (List Row) :=
  (pairs x rows).mapM fun p => resolve x p.1 p.2

def normalize (r : Row) : Except Obstacle Row :=
  match r.linear.toList with
  | [] => .ok r
  | e :: _ => do return r.scale (← inverse (magnitude e.2))

def tightest (rows : List Row) : Except Obstacle (List Row) := do
  let normalized ← rows.mapM normalize
  return normalized.foldl (fun kept r => SortedBy.placeIn Row.linear Row.tighter r kept) []

def project (x : String) (rows : List Row) : Except Obstacle (Except Row (List Row)) := do
  let derived ← resolvents x rows
  match derived.find? Row.isContradiction with
  | some r => return .error r
  | none =>
    let left ← tightest (rows.filter (!Elimination.mentions x ·) ++ derived.filter (!·.isConstant))
    return .ok left

def eliminate : List String → List Row → Except Obstacle (Except Row (List Stage))
  | [], _ => return .ok []
  | x :: xs, rows => do
    match ← project x rows with
    | .error r => return .error r
    | .ok left =>
      return (← eliminate xs left).map (⟨x, rows.filter (Elimination.mentions x)⟩ :: ·)

def run (rows : List Row) : Except Obstacle (Except Row (List Stage)) :=
  match rows.find? Row.isContradiction with
  | some r => return .error r
  | none =>
    let live := rows.filter (!·.isConstant)
    eliminate (Elimination.unknowns live) live

theorem resolve_eq {x : String} {upper lower : Row} (hu : 0 < upper.linear.coeff x)
    (hl : lower.linear.coeff x < 0) : resolve x upper lower = .ok (Row.resolve x upper lower) := by
  rw [resolve, coefficient_eq hu.ne', coefficient_eq hl.ne]
  change (inverse _ >>= fun p => inverse _ >>= fun q => _) = _
  rw [inverse_eq hu.ne', inverse_eq (neg_pos.mpr hl).ne']
  rfl

theorem map_resolve_pairs (x : String) (rows : List Row) :
    (pairs x rows).map (fun p => Row.resolve x p.1 p.2) = Elimination.resolvents x rows := by
  simp only [pairs, Elimination.resolvents, List.map_flatMap, List.map_map, Function.comp_def]

theorem resolvents_eq (x : String) (rows : List Row) :
    resolvents x rows = .ok (Elimination.resolvents x rows) := by
  rw [← map_resolve_pairs]
  apply mapM_eq_ok
  intro p hp
  obtain ⟨upper, hu, hp⟩ := List.mem_flatMap.mp hp
  obtain ⟨lower, hl, rfl⟩ := List.mem_map.mp hp
  exact resolve_eq (by simpa using (List.mem_filter.mp hu).2)
    (by simpa using (List.mem_filter.mp hl).2)

/-- The first coefficient is not 0, as no coefficient is. -/
theorem normalize_eq (r : Row) : normalize r = .ok r.normalize := by
  cases h : r.linear.toList with
  | nil => rw [normalize, h, Row.normalize_of_nil h]
  | cons e es =>
    have hne : e.2 ≠ 0 := r.linear.nonzero e (by rw [h]; simp)
    rw [normalize, h, Row.normalize_of_cons h]
    change (inverse (magnitude e.2) >>= fun q => _) = _
    rw [inverse_eq (magnitude_pos hne).ne']
    rfl

theorem toList_foldl_place (rows : List Row) (kept : SortedBy Row.linear) :
    (rows.foldl (fun kept r => kept.place Row.tighter r.normalize) kept).toList =
      (rows.map Row.normalize).foldl (fun kept r => SortedBy.placeIn Row.linear Row.tighter r kept)
        kept.toList := by
  induction rows generalizing kept with
  | nil => rfl
  | cons r rows ih =>
    rw [List.foldl_cons, ih]
    rfl

theorem tightest_eq (rows : List Row) : tightest rows = .ok (Row.tightest rows) := by
  rw [tightest, mapM_eq_ok fun r _ => normalize_eq r, Row.tightest, toList_foldl_place]
  rfl

theorem project_eq (x : String) (rows : List Row) :
    project x rows = .ok (Elimination.project x rows) := by
  rw [project, resolvents_eq, Elimination.project]
  cases h : (Elimination.resolvents x rows).find? Row.isContradiction with
  | some r => simp only [bind, Except.bind, h, pure, Except.pure]
  | none => simp only [bind, Except.bind, h, tightest_eq, pure, Except.pure]

theorem eliminate_eq (xs : List String) (rows : List Row) :
    eliminate xs rows = .ok (Elimination.eliminate xs rows) := by
  induction xs generalizing rows with
  | nil => rfl
  | cons x xs ih =>
    rw [eliminate, project_eq]
    cases h : Elimination.project x rows with
    | error r =>
      rw [Elimination.eliminate, h]
      rfl
    | ok left =>
      rw [Elimination.eliminate_of_project h]
      change (eliminate xs left >>= fun stages => _) = _
      rw [ih]
      rfl

theorem run_eq (rows : List Row) : run rows = .ok (Elimination.run rows) := by
  unfold run Elimination.run
  cases rows.find? Row.isContradiction with
  | some r => rfl
  | none => exact eliminate_eq _ _

/-! ### Back substitution -/

def limit (x : String) (values : Witness) (r : Row) : Except Obstacle Limit := do
  let a ← coefficient x r
  let value ← quotient (r.bound - r.linear.eval fun y => if y = x then 0 else values.value y) a
  return ⟨value, r.strict⟩

/-- Each row sets an end: an upper one if the coefficient is positive, else a lower one. -/
def choose (s : Stage) (values : Witness) : Except Obstacle Rat := do
  let highs ← (s.rows.filter fun r => 0 < r.linear.coeff s.unknown).mapM (limit s.unknown values)
  let lows ← (s.rows.filter fun r => !(0 < r.linear.coeff s.unknown)).mapM (limit s.unknown values)
  return chooseBetween (Limit.highest lows) (Limit.lowest highs)

def backSubstitute : List Stage → Except Obstacle Witness
  | [] => return SortedBy.empty
  | s :: ss => do
    let values ← backSubstitute ss
    let value ← choose s values
    return values.insert (s.unknown, value)

def certificate (s : Scenario) : Except Obstacle Certificate := do
  match ← run (s.toList.flatMap Row.ofConstraint) with
  | .error r => return .infeasible (s.multipliersOf r)
  | .ok stages =>
    let values ← backSubstitute stages
    return .feasible (s.unknowns.toList.foldl (fun w x => w.insertNew (x, 0)) values)

theorem limit_eq {x : String} {values : Witness} {r : Row} (h : r.linear.coeff x ≠ 0) :
    limit x values r = .ok (Stage.limit x values r) := by
  rw [limit, coefficient_eq h]
  change (quotient _ _ >>= fun value => _) = _
  rw [quotient_eq h]
  rfl

theorem choose_eq {s : Stage} (values : Witness)
    (h : ∀ r ∈ s.rows, r.linear.coeff s.unknown ≠ 0) : choose s values = .ok (s.choose values) := by
  have hlimit : ∀ p : Row → Bool, (s.rows.filter p).mapM (limit s.unknown values) =
      .ok ((s.rows.filter p).map (Stage.limit s.unknown values)) := fun p =>
    mapM_eq_ok fun r hr => limit_eq (h r (List.mem_filter.mp hr).1)
  -- no coefficient is 0, so one that is not positive is negative
  have hlows : (s.rows.filter fun r => !(0 < r.linear.coeff s.unknown)) =
      s.rows.filter fun r => r.linear.coeff s.unknown < 0 := by
    apply List.filter_congr
    intro r hr
    rcases lt_or_gt_of_ne (h r hr) with hneg | hpos
    · simp [hneg, hneg.le]
    · simp [hpos, hpos.le]
  rw [choose, hlimit, hlows, hlimit]
  rfl

theorem backSubstitute_eq {stages : List Stage}
    (h : ∀ s ∈ stages, ∀ r ∈ s.rows, r.linear.coeff s.unknown ≠ 0) :
    backSubstitute stages = .ok (LinearArith.backSubstitute stages) := by
  induction stages with
  | nil => rfl
  | cons s ss ih =>
    rw [backSubstitute, ih fun t ht => h t (by simp [ht])]
    change (choose s _ >>= fun value => _) = _
    rw [choose_eq _ (h s (by simp))]
    rfl

end Checked

theorem Elimination.coeff_ne_zero_of_run_ok {rows : List Row} {stages : List Stage}
    (h : run rows = .ok stages) : ∀ s ∈ stages, ∀ r ∈ s.rows, r.linear.coeff s.unknown ≠ 0 := by
  intro s hs r hr
  obtain ⟨xs, current, -, hrows⟩ := exists_reaches_of_run_ok h s hs
  rw [hrows] at hr
  exact mentions_iff.mp (List.mem_filter.mp hr).2

/-- Deciding a scenario comes upon no obstacle. -/
theorem Checked.certificate_eq (s : Scenario) : certificate s = .ok s.certificate := by
  rw [certificate, run_eq, Scenario.certificate]
  cases h : Elimination.run (s.toList.flatMap Row.ofConstraint) with
  | error r => rfl
  | ok stages =>
    change (backSubstitute stages >>= fun values => _) = _
    rw [backSubstitute_eq (Elimination.coeff_ne_zero_of_run_ok h)]
    rfl

end LinearArith
