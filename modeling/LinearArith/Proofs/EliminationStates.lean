import LinearArith.Proofs.BackSubstitution

/-! The states that an elimination comes to: the unknowns that are still to be eliminated, and the rows
there are. A run goes on from each of them, and what sums and positive multiples keep is true of all
their rows. -/

namespace LinearArith
namespace Elimination

/-- The elimination of `rows` comes to the state in which `xs` are still to be eliminated from
`current`. -/
inductive Reaches (rows : List Row) : List String → List Row → Prop
  | start (h : ∀ r ∈ rows, r.isContradiction = false) :
      Reaches rows (unknowns (rows.filter (!·.isConstant))) (rows.filter (!·.isConstant))
  | step {x : String} {xs : List String} {current left : List Row}
      (h : Reaches rows (x :: xs) current) (hstep : project x current = .ok left) :
      Reaches rows xs left

/-- The rows of which a step keeps the tightest: those without `x`, and the sums in which it cancels
and some unknown is left. -/
def candidates (x : String) (rows : List Row) : List Row :=
  rows.filter (!mentions x ·) ++ (resolvents x rows).filter (!·.isConstant)

theorem project_eq_ok {x : String} {rows : List Row}
    (h : ∀ r ∈ resolvents x rows, r.isContradiction = false) :
    project x rows = .ok (Row.tightest (candidates x rows)) := by
  rcases project_cases x rows with ⟨r, hr, hc, -⟩ | ⟨-, ho⟩
  · rw [h r hr] at hc
    cases hc
  · exact ho

theorem project_eq_error {x : String} {rows : List Row}
    (h : ∃ r ∈ resolvents x rows, r.isContradiction = true) :
    ∃ r ∈ resolvents x rows, r.isContradiction = true ∧ project x rows = .error r := by
  rcases project_cases x rows with herr | ⟨hnone, -⟩
  · exact herr
  · obtain ⟨r, hr, hc⟩ := h
    rw [hnone r hr] at hc
    cases hc

theorem run_of_not_isContradiction {rows : List Row} (h : ∀ r ∈ rows, r.isContradiction = false) :
    run rows =
      eliminate (unknowns (rows.filter (!·.isConstant))) (rows.filter (!·.isConstant)) := by
  have hnone : rows.find? Row.isContradiction = none := by
    rw [List.find?_eq_none]
    intro r hr
    simp [h r hr]
  rw [run, hnone]

theorem eliminate_of_project {x : String} {xs : List String} {rows left : List Row}
    (h : project x rows = .ok left) :
    eliminate (x :: xs) rows = (eliminate xs left).map (⟨x, rows.filter (mentions x)⟩ :: ·) := by
  rw [eliminate, h]
  cases he : eliminate xs left <;> simp [bind, Except.bind, Except.map, he, pure, Except.pure]

namespace Reaches
variable {rows current : List Row} {xs : List String}

theorem of_not_isConstant (h : ∀ r ∈ rows, r.isConstant = false) :
    Reaches rows (unknowns rows) rows := by
  have hlive : rows.filter (!·.isConstant) = rows :=
    List.filter_eq_self.mpr fun r hr => by simp [h r hr]
  have hstart : Reaches rows _ _ := .start fun r hr => by simp [Row.isContradiction, h r hr]
  rwa [hlive] at hstart

theorem not_isContradiction (h : Reaches rows xs current) :
    ∀ r ∈ rows, r.isContradiction = false := by
  induction h with
  | start h => exact h
  | step _ _ ih => exact ih

theorem live (h : Reaches rows xs current) : Live xs current := by
  induction h with
  | start =>
    refine ⟨fun r hr y hy => mem_unknowns_iff.mpr ⟨r, hr, hy⟩, fun r hr => ?_⟩
    simpa using (List.mem_filter.mp hr).2
  | step _ hstep ih => exact ih.project hstep

theorem ascending (h : Reaches rows xs current) : xs.Pairwise fun x y => compare x y = .lt := by
  induction h with
  | start => exact (SortedBy.ofList _ : SortedBy (id : String → String)).ascending
  | step _ _ ih => exact (List.pairwise_cons.mp ih).2

theorem not_mem {x : String} (h : Reaches rows (x :: xs) current) : x ∉ xs := by
  intro hx
  have hlt := (List.pairwise_cons.mp h.ascending).1 x hx
  simp at hlt

/-- What sums and positive multiples keep is true of the rows of every state. -/
theorem forall_of_stable {P : Row → Prop} (hP : Row.Stable P) (hrows : ∀ r ∈ rows, P r)
    (h : Reaches rows xs current) : ∀ r ∈ current, P r := by
  induction h with
  | start => exact fun r hr => hrows r (List.mem_filter.mp hr).1
  | step _ hstep ih => exact forall_project hP ih hstep

theorem exists_run_eq (h : Reaches rows xs current) :
    ∃ earlier, run rows = (eliminate xs current).map (earlier ++ ·) := by
  induction h with
  | start h =>
    refine ⟨[], ?_⟩
    rw [run_of_not_isContradiction h]
    cases eliminate (unknowns (rows.filter (!·.isConstant))) (rows.filter (!·.isConstant)) <;> rfl
  | @step x xs current left _ hstep ih =>
    obtain ⟨earlier, hrun⟩ := ih
    refine ⟨earlier ++ [⟨x, current.filter (mentions x)⟩], ?_⟩
    rw [hrun, eliminate_of_project hstep]
    cases eliminate xs left <;> simp [Except.map]

theorem run_eq_error {x : String} {r : Row} (h : Reaches rows (x :: xs) current)
    (he : project x current = .error r) : run rows = .error r := by
  obtain ⟨earlier, hrun⟩ := h.exists_run_eq
  rw [hrun, eliminate, he]
  rfl

end Reaches

theorem exists_reaches_of_mem_stages {rows current : List Row} {xs : List String}
    {stages : List Stage} (h : Reaches rows xs current) (he : eliminate xs current = .ok stages) :
    ∀ s ∈ stages, ∃ ys state, Reaches rows (s.unknown :: ys) state ∧
      s.rows = state.filter (mentions s.unknown) := by
  induction xs generalizing current stages with
  | nil =>
    obtain rfl : [] = stages := Except.ok.inj he
    simp
  | cons x xs ih =>
    obtain ⟨left, later, hstep, hlater, rfl⟩ := eliminate_cons_eq_ok he
    intro s hs
    rcases List.mem_cons.mp hs with rfl | hs
    · exact ⟨xs, current, h, rfl⟩
    · exact ih (h.step hstep) hlater s hs

theorem exists_reaches_of_eliminate_error {rows current : List Row} {xs : List String} {r : Row}
    (h : Reaches rows xs current) (he : eliminate xs current = .error r) :
    ∃ x ys state, Reaches rows (x :: ys) state ∧ r ∈ resolvents x state := by
  induction xs generalizing current with
  | nil => cases he
  | cons x xs ih =>
    rcases eliminate_cons_eq_error he with hp | ⟨left, hstep, he⟩
    · rcases project_cases x current with ⟨s, hs, -, ho⟩ | ⟨-, ho⟩
      · obtain rfl : s = r := Except.error.inj (ho.symm.trans hp)
        exact ⟨x, xs, current, h, hs⟩
      · rw [ho] at hp
        cases hp
    · exact ih (h.step hstep) he

theorem not_isContradiction_of_run_ok {rows : List Row} {stages : List Stage}
    (h : run rows = .ok stages) : ∀ r ∈ rows, r.isContradiction = false := by
  unfold run at h
  split at h
  next => cases h
  next hfind => simpa using List.find?_eq_none.mp hfind

theorem exists_reaches_of_run_ok {rows : List Row} {stages : List Stage}
    (h : run rows = .ok stages) : ∀ s ∈ stages, ∃ xs current,
      Reaches rows (s.unknown :: xs) current ∧ s.rows = current.filter (mentions s.unknown) := by
  have hstart := not_isContradiction_of_run_ok h
  rw [run_of_not_isContradiction hstart] at h
  exact exists_reaches_of_mem_stages (.start hstart) h

theorem exists_reaches_of_run_error {rows : List Row} {r : Row} (h : run rows = .error r) :
    r ∈ rows ∨ ∃ x xs current, Reaches rows (x :: xs) current ∧ r ∈ resolvents x current := by
  by_cases hstart : ∀ r ∈ rows, r.isContradiction = false
  · rw [run_of_not_isContradiction hstart] at h
    exact Or.inr (exists_reaches_of_eliminate_error (.start hstart) h)
  · unfold run at h
    split at h
    next s hs =>
      obtain rfl : s = r := Except.error.inj h
      exact Or.inl (List.mem_of_find?_eq_some hs)
    next hfind =>
      exact absurd (by simpa using List.find?_eq_none.mp hfind) hstart

end Elimination
end LinearArith
