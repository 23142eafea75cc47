import LinearArith.Proofs.OptionTruth

/-! The options of a proposition and of its negation. Both have options or neither has, and then
values satisfy an option of exactly one of the two. For a positive integer this needs an integer
value: its option says that it is at least 1, that of its negation that it is at most 0. -/

namespace LinearArith

theorem Comparison.cases_ne_nil (c : Comparison) : c.cases ≠ [] := by
  cases c <;> simp [cases]

theorem realDifference?_var {x : Variable} (hr : x.isReal = true) (q : Rat) :
    realDifference? (.var x) (.const q) = some ((LinearForm.ofVariable x).sub (.const q)) := by
  have hdiff : (Term.var x).linearDifference (.const q) =
      .ok ((LinearForm.ofVariable x).sub (.const q)) := by
    simp only [Term.linearDifference, Term.linearize]
    rfl
  have hlist : ((LinearForm.ofVariable x).sub (.const q)).linear.toList = [(x, 1)] := rfl
  simp [realDifference?, hdiff, hlist, hr]

namespace Proposition

def optionHolds (v : String → Rat) (p : Proposition) : Bool := p.options.any (·.holdsAt v)

theorem options_compare_eq_nil_iff {c : Comparison} {l r : Term} :
    (compare c l r).options = [] ↔ realDifference? l r = none := by
  simp only [options]
  cases realDifference? l r with
  | none => simp
  | some f => simp [c.cases_ne_nil]

theorem options_negate_typed_ne_nil {x : Variable} (hs : x.hasRealSign = true) :
    (typed x).negate.options ≠ [] := by
  obtain ⟨hr, hn⟩ := Variable.hasRealSign_iff.mp hs
  have hdiff : realDifference? (.var x) (.const 0) ≠ none := by
    rw [realDifference?_var hr]
    exact Option.some_ne_none _
  by_cases hp : x.isPositive = true
  · have hneg : (typed x).negate = compare .le (.var x) (.const 0) := by simp [negate, hr, hp]
    rw [hneg]
    exact mt options_compare_eq_nil_iff.mp hdiff
  · have hneg : (typed x).negate = compare .lt (.var x) (.const 0) := by simp [negate, hr, hp, hn]
    rw [hneg]
    exact mt options_compare_eq_nil_iff.mp hdiff

theorem optionHolds_iff {ρ : Interpretation} {p : Proposition} (h : p.options ≠ []) :
    p.optionHolds ρ.value = true ↔ p.HoldsSharply ρ :=
  List.any_eq_true.trans (exists_option_iff ρ h)

/-- Of a proposition and its negation exactly one has an option that holds, if both have options and
integers have integer values. -/
theorem optionHolds_negate {ρ : Interpretation} {p : Proposition} (hp : p.options ≠ [])
    (hn : p.negate.options ≠ [])
    (hint : ∀ x, p = typed x → x.domain = .integer → ∃ n : Int, ρ.value x.name = n) :
    p.negate.optionHolds ρ.value = !p.optionHolds ρ.value := by
  have htrue : p.optionHolds ρ.value = true ↔ p.Holds ρ :=
    (optionHolds_iff hp).trans (holdsSharply_iff hint)
  have hfalse : p.negate.optionHolds ρ.value = true ↔ ¬p.Holds ρ :=
    (optionHolds_iff hn).trans (holdsSharply_negate_iff hn)
  rw [Bool.eq_iff_iff, hfalse, ← htrue, Bool.not_eq_true, Bool.not_eq_true']

/-- A comparison is the negation of its negation, has options if its negation has, and then values
satisfy an option of exactly one of them. So it is with a sign that a variable over the reals is
declared to have, if an integer has an integer value. -/
theorem options_complementary :
    (∀ (c : Comparison) (l r : Term),
      (compare c l r).negate.negate = compare c l r ∧
        ((compare c l r).options = [] ↔ (compare c l r).negate.options = []) ∧
        ((compare c l r).options ≠ [] → ∀ ρ : Interpretation,
          (compare c l r).negate.optionHolds ρ.value = !(compare c l r).optionHolds ρ.value)) ∧
      ∀ x : Variable, x.hasRealSign = true → ∀ ρ : Interpretation,
        (x.domain = .integer → ∃ n : Int, ρ.value x.name = n) →
          (typed x).negate.optionHolds ρ.value = !(typed x).optionHolds ρ.value := by
  constructor
  · intro c l r
    have hempty : (compare c l r).options = [] ↔ (compare c l r).negate.options = [] := by
      rw [negate, options_compare_eq_nil_iff, options_compare_eq_nil_iff]
    refine ⟨by rw [negate, negate, Comparison.negate_negate], hempty, fun h ρ => ?_⟩
    exact optionHolds_negate h (mt hempty.mpr h) fun _ he => by cases he
  · intro x hs ρ hint
    apply optionHolds_negate (options_typed_ne_nil_iff.mpr hs) (options_negate_typed_ne_nil hs)
    intro y hy
    obtain rfl := typed.inj hy
    exact hint

-- at 1/2 neither a positive integer nor its negation has an option that holds
example :
    (typed ⟨"n", .integer, .positive⟩).optionHolds (fun _ => 1 / 2) = false ∧
      (typed ⟨"n", .integer, .positive⟩).negate.optionHolds (fun _ => 1 / 2) = false := by
  decide +kernel

/-- At 1 the disequality `2 * x != 2` fails, and a positive integer may be 1. -/
theorem optionHolds_negate_at_one :
    (compare .ne (.mul [.const 2, .var ⟨"x", .real, .unknown⟩]) (.const 2)).options ≠ [] ∧
      (compare .ne (.mul [.const 2, .var ⟨"x", .real, .unknown⟩]) (.const 2)).negate.optionHolds
        (fun _ => 1) = true ∧
      (typed ⟨"n", .integer, .positive⟩).negate.optionHolds (fun _ => 1) = false := by
  have hne : (compare .ne (.mul [.const 2, .var ⟨"x", .real, .unknown⟩]) (.const 2)).options ≠ [] := by
    decide +kernel
  let ρ : Interpretation := ⟨fun _ => 1, fun _ _ => 0, fun _ => True, fun _ => True⟩
  have hcompare := (options_complementary.1 _ _ _).2.2 hne ρ
  have htyped := options_complementary.2 ⟨"n", .integer, .positive⟩ rfl ρ fun _ => ⟨1, rfl⟩
  refine ⟨hne, hcompare.trans ?_, htyped.trans ?_⟩
  · decide +kernel
  · decide +kernel

end Proposition
end LinearArith
