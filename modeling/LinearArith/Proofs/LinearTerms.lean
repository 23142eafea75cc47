import LinearArith.Proofs.Linearization

/-! Which terms have a linear form. It is enough that no product has two factors with variables and
that divisors are numbers other than 0; and where there is a linear form, no divisor is 0 whatever
the values are. -/

namespace LinearArith

namespace LinearForm

theorem coeff_addScaled (x : String) (f g : LinearForm) (q : Rat) :
    (f.addScaled g q).linear.coeff x = f.linear.coeff x + g.linear.coeff x * q := by
  rw [addScaled, LinComb.coeff_add, LinComb.coeff_scale]

/-- What holds of constants and of a sum `f + q · g` if it holds of `f` and `g`. -/
structure Stable (P : LinearForm → Prop) : Prop where
  const : ∀ q, P (.const q)
  addScaled : ∀ f g q, P f → P g → P (f.addScaled g q)

theorem Stable.scale {P : LinearForm → Prop} (hP : Stable P) {f : LinearForm} (hf : P f) (q : Rat) :
    P (f.scale q) := hP.addScaled zero f q (hP.const 0) hf

end LinearForm

namespace Term

mutual

def divisors : Term → List Term
  | const _ => []
  | var _ => []
  | add ts => divisorsIn ts
  | mul ts => divisorsIn ts
  | neg t => t.divisors
  | div t u => u :: (t.divisors ++ u.divisors)

def divisorsIn : List Term → List Term
  | [] => []
  | t :: ts => t.divisors ++ divisorsIn ts

end

mutual

/-- The products in a term, at any depth, each as the list of its factors. -/
def products : Term → List (List Term)
  | const _ => []
  | var _ => []
  | add ts => productsIn ts
  | mul ts => ts :: productsIn ts
  | neg t => t.products
  | div t u => t.products ++ u.products

def productsIn : List Term → List (List Term)
  | [] => []
  | t :: ts => t.products ++ productsIn ts

end

def mentionsVariable (t : Term) : Bool := !t.occurrences.isEmpty

/-- Each product has at most one factor that mentions a variable, and each divisor mentions none and
has a value other than 0. -/
structure PlainlyLinear (t : Term) : Prop where
  products : ∀ factors ∈ t.products, factors.countP mentionsVariable ≤ 1
  divisors : ∀ d ∈ t.divisors, d.mentionsVariable = false ∧ ∃ ρ : Interpretation, d.value ρ ≠ 0

theorem divisorsIn_eq (ts : List Term) : divisorsIn ts = ts.flatMap divisors := by
  induction ts with
  | nil => rfl
  | cons t ts ih => rw [divisorsIn, ih, List.flatMap_cons]

theorem productsIn_eq (ts : List Term) : productsIn ts = ts.flatMap products := by
  induction ts with
  | nil => rfl
  | cons t ts ih => rw [productsIn, ih, List.flatMap_cons]

namespace PlainlyLinear
variable {t u : Term} {ts : List Term}

theorem of_subset (h : t.PlainlyLinear) (hp : u.products ⊆ t.products)
    (hd : u.divisors ⊆ t.divisors) : u.PlainlyLinear :=
  ⟨fun factors hf => h.products factors (hp hf), fun d hmem => h.divisors d (hd hmem)⟩

theorem of_add (h : (add ts).PlainlyLinear) (ht : t ∈ ts) : t.PlainlyLinear := by
  apply h.of_subset
  · rw [Term.products, productsIn_eq]
    exact fun factors hf => List.mem_flatMap.mpr ⟨t, ht, hf⟩
  · rw [Term.divisors, divisorsIn_eq]
    exact fun d hd => List.mem_flatMap.mpr ⟨t, ht, hd⟩

theorem of_mul (h : (mul ts).PlainlyLinear) (ht : t ∈ ts) : t.PlainlyLinear := by
  apply h.of_subset
  · rw [Term.products, productsIn_eq]
    exact fun factors hf => List.mem_cons_of_mem ts (List.mem_flatMap.mpr ⟨t, ht, hf⟩)
  · rw [Term.divisors, divisorsIn_eq]
    exact fun d hd => List.mem_flatMap.mpr ⟨t, ht, hd⟩

theorem of_neg (h : (neg t).PlainlyLinear) : t.PlainlyLinear := ⟨h.products, h.divisors⟩

theorem of_div_left (h : (div t u).PlainlyLinear) : t.PlainlyLinear := by
  apply h.of_subset
  · exact List.subset_append_left t.products u.products
  · exact List.subset_cons_of_subset u (List.subset_append_left t.divisors u.divisors)

theorem of_div_right (h : (div t u).PlainlyLinear) : u.PlainlyLinear := by
  apply h.of_subset
  · exact List.subset_append_right t.products u.products
  · exact List.subset_cons_of_subset u (List.subset_append_right t.divisors u.divisors)

end PlainlyLinear

/-! ### What a linear form is made of -/

mutual

/-- What is stable and holds of the variables of a term holds of the linear form of the term. -/
theorem of_linearize {P : LinearForm → Prop} (hP : LinearForm.Stable P) : (t : Term) →
    {f : LinearForm} → t.linearize = .ok f → (∀ v ∈ t.occurrences, P (.ofVariable v)) → P f
  | const q, f, h, _ => by
    rw [linearize] at h
    exact Except.ok.inj h ▸ hP.const q
  | var v, f, h, hv => by
    rw [linearize] at h
    exact Except.ok.inj h ▸ hv v (by simp [occurrences])
  | add ts, f, h, hv => by
    rw [linearize] at h
    exact of_linearizeSum hP ts h (hP.const 0) hv
  | mul ts, f, h, hv => by
    rw [linearize] at h
    exact of_linearizeProduct hP ts h nofun hv
  | neg t, f, h, hv => by
    obtain ⟨g, hg, rfl⟩ := linearize_neg_eq_ok h
    exact hP.scale (of_linearize hP t hg hv) (-1)
  | div t u, f, h, hv => by
    obtain ⟨d, g, -, -, -, hg, rfl⟩ := linearize_div_eq_ok h
    have hPg : P g := of_linearize hP t hg fun v ht => hv v (List.mem_append_left _ ht)
    exact hP.scale hPg d.constant⁻¹

theorem of_linearizeSum {P : LinearForm → Prop} (hP : LinearForm.Stable P) : (ts : List Term) →
    {sum f : LinearForm} → linearizeSum sum ts = .ok f → P sum →
    (∀ v ∈ occurrencesIn ts, P (.ofVariable v)) → P f
  | [], sum, f, h, hsum, _ => by
    rw [linearizeSum] at h
    exact Except.ok.inj h ▸ hsum
  | t :: ts, sum, f, h, hsum, hv => by
    obtain ⟨g, hg, h⟩ := linearizeSum_cons_eq_ok h
    have hPg : P g := of_linearize hP t hg fun v ht => hv v (List.mem_append_left _ ht)
    exact of_linearizeSum hP ts h (hP.addScaled sum g 1 hsum hPg)
      fun v ht => hv v (List.mem_append_right _ ht)

theorem of_linearizeProduct {P : LinearForm → Prop} (hP : LinearForm.Stable P) :
    (ts : List Term) → {whole : Term} → {q : Rat} → {symbolic : Option LinearForm} →
    {f : LinearForm} → linearizeProduct whole q symbolic ts = .ok f → (∀ g ∈ symbolic, P g) →
    (∀ v ∈ occurrencesIn ts, P (.ofVariable v)) → P f
  | [], whole, q, symbolic, f, h, hs, _ => by
    rw [linearizeProduct] at h
    rw [← Except.ok.inj h]
    cases symbolic with
    | none => exact hP.const q
    | some g => exact hP.scale (hs g rfl) q
  | t :: ts, whole, q, symbolic, f, h, hs, hv => by
    obtain ⟨g, hg, hc⟩ := linearizeProduct_cons_eq_ok h
    have hPg : P g := of_linearize hP t hg fun v ht => hv v (List.mem_append_left _ ht)
    have hrest : ∀ v ∈ occurrencesIn ts, P (.ofVariable v) :=
      fun v ht => hv v (List.mem_append_right _ ht)
    rcases hc with ⟨-, hts⟩ | ⟨rfl, hts⟩
    · exact of_linearizeProduct hP ts hts hs hrest
    · exact of_linearizeProduct hP ts hts (fun g' he => Option.some.inj he ▸ hPg) hrest

end

theorem coeff_of_linearize {t : Term} {f : LinearForm} (h : t.linearize = .ok f) {x : String}
    (hx : ∀ v ∈ t.occurrences, v.name ≠ x) : f.linear.coeff x = 0 := by
  have hstable : LinearForm.Stable fun g => g.linear.coeff x = 0 := by
    constructor
    · intro q
      rfl
    · intro f g q hf hg
      rw [LinearForm.coeff_addScaled, hf, hg, zero_mul, add_zero]
  apply of_linearize hstable t h
  intro v hv
  rw [LinearForm.ofVariable, LinComb.coeff_single, if_neg (hx v hv)]

theorem isConstant_of_linearize {t : Term} {f : LinearForm} (h : t.linearize = .ok f)
    (ht : t.mentionsVariable = false) : f.isConstant = true := by
  have hnone : t.occurrences = [] := by simpa [mentionsVariable] using ht
  apply LinComb.isEmpty_iff.mpr
  apply LinComb.eq_empty_of_coeff
  intro x
  exact coeff_of_linearize h (by simp [hnone])

/-! ### Divisors -/

theorem value_of_isConstant {t : Term} {f : LinearForm} (h : t.linearize = .ok f)
    (hf : f.isConstant = true) (ρ : Interpretation) : t.value ρ = f.constant := by
  rw [← eval_of_linearize ρ t h, LinearForm.eval_of_isConstant hf]

mutual

theorem divisors_of_linearize (ρ : Interpretation) : (t : Term) → {f : LinearForm} →
    t.linearize = .ok f → ∀ d ∈ t.divisors, d.value ρ ≠ 0
  | const q, f, _, d, hd => nomatch hd
  | var v, f, _, d, hd => nomatch hd
  | add ts, f, h, d, hd => by
    rw [linearize] at h
    exact divisors_of_linearizeSum ρ ts h d hd
  | mul ts, f, h, d, hd => by
    rw [linearize] at h
    exact divisors_of_linearizeProduct ρ ts h d hd
  | neg t, f, h, d, hd => by
    obtain ⟨g, hg, -⟩ := linearize_neg_eq_ok h
    exact divisors_of_linearize ρ t hg d hd
  | div t u, f, h, d, hd => by
    obtain ⟨c, g, hc, hconst, hne, hg, -⟩ := linearize_div_eq_ok h
    rcases List.mem_cons.mp hd with rfl | hd
    · rwa [value_of_isConstant hc hconst]
    · rcases List.mem_append.mp hd with hd | hd
      · exact divisors_of_linearize ρ t hg d hd
      · exact divisors_of_linearize ρ u hc d hd

theorem divisors_of_linearizeSum (ρ : Interpretation) : (ts : List Term) →
    {sum f : LinearForm} → linearizeSum sum ts = .ok f → ∀ d ∈ divisorsIn ts, d.value ρ ≠ 0
  | [], sum, f, _, d, hd => nomatch hd
  | t :: ts, sum, f, h, d, hd => by
    obtain ⟨g, hg, h⟩ := linearizeSum_cons_eq_ok h
    rcases List.mem_append.mp hd with hd | hd
    · exact divisors_of_linearize ρ t hg d hd
    · exact divisors_of_linearizeSum ρ ts h d hd

theorem divisors_of_linearizeProduct (ρ : Interpretation) : (ts : List Term) → {whole : Term} →
    {q : Rat} → {symbolic : Option LinearForm} → {f : LinearForm} →
    linearizeProduct whole q symbolic ts = .ok f → ∀ d ∈ divisorsIn ts, d.value ρ ≠ 0
  | [], whole, q, symbolic, f, _, d, hd => nomatch hd
  | t :: ts, whole, q, symbolic, f, h, d, hd => by
    obtain ⟨g, hg, hc⟩ := linearizeProduct_cons_eq_ok h
    rcases List.mem_append.mp hd with hd | hd
    · exact divisors_of_linearize ρ t hg d hd
    · rcases hc with ⟨-, hts⟩ | ⟨-, hts⟩
      · exact divisors_of_linearizeProduct ρ ts hts d hd
      · exact divisors_of_linearizeProduct ρ ts hts d hd

end

/-! ### Terms that have a linear form -/

theorem linearize_div_of_isConstant {t u : Term} {f d : LinearForm} (hf : t.linearize = .ok f)
    (hd : u.linearize = .ok d) (hconst : d.isConstant = true) (hne : d.constant ≠ 0) :
    (div t u).linearize = .ok (f.scale d.constant⁻¹) := by
  rw [linearize, hd, hf]
  simp [bind, Except.bind, hconst, hne]
  rfl

theorem linearizeProduct_cons_of_isConstant {t : Term} {g : LinearForm} (hg : t.linearize = .ok g)
    (hconst : g.isConstant = true) (whole : Term) (q : Rat) (symbolic : Option LinearForm)
    (ts : List Term) : linearizeProduct whole q symbolic (t :: ts) =
      linearizeProduct whole (q * g.constant) symbolic ts := by
  rw [linearizeProduct, hg]
  exact if_pos hconst

theorem linearizeProduct_cons_of_not_isConstant {t : Term} {g : LinearForm}
    (hg : t.linearize = .ok g) (hconst : ¬g.isConstant = true) (whole : Term) (q : Rat)
    (ts : List Term) : linearizeProduct whole q none (t :: ts) =
      linearizeProduct whole q (some g) ts := by
  rw [linearizeProduct, hg]
  exact if_neg hconst

mutual

theorem exists_linearize : (t : Term) → t.PlainlyLinear → ∃ f, t.linearize = .ok f
  | const q, _ => ⟨_, by rw [linearize]⟩
  | var v, _ => ⟨_, by rw [linearize]⟩
  | add ts, h => by
    rw [linearize]
    exact exists_linearizeSum ts .zero fun t ht => h.of_add ht
  | mul ts, h => by
    have hcount : ts.countP mentionsVariable ≤ 1 := h.products ts (by simp [products])
    rw [linearize]
    exact exists_linearizeProduct ts (mul ts) 1 none (fun t ht => h.of_mul ht) hcount
  | neg t, h => by
    obtain ⟨f, hf⟩ := exists_linearize t h.of_neg
    exact ⟨_, by rw [linearize, hf]; rfl⟩
  | div t u, h => by
    obtain ⟨f, hf⟩ := exists_linearize t h.of_div_left
    obtain ⟨d, hd⟩ := exists_linearize u h.of_div_right
    obtain ⟨hvars, ρ, hne⟩ := h.divisors u (by simp [divisors])
    have hconst : d.isConstant = true := isConstant_of_linearize hd hvars
    rw [value_of_isConstant hd hconst] at hne
    exact ⟨_, linearize_div_of_isConstant hf hd hconst hne⟩

theorem exists_linearizeSum : (ts : List Term) → (sum : LinearForm) →
    (∀ t ∈ ts, t.PlainlyLinear) → ∃ f, linearizeSum sum ts = .ok f
  | [], sum, _ => ⟨sum, by rw [linearizeSum]⟩
  | t :: ts, sum, h => by
    obtain ⟨g, hg⟩ := exists_linearize t (h t (by simp))
    have hrest : ∀ u ∈ ts, u.PlainlyLinear := fun u hu => h u (by simp [hu])
    obtain ⟨f, hf⟩ := exists_linearizeSum ts (sum.addScaled g 1) hrest
    exact ⟨f, by rw [linearizeSum, hg]; exact hf⟩

/-- The factor found before counts along with those that are left. -/
theorem exists_linearizeProduct : (ts : List Term) → (whole : Term) → (q : Rat) →
    (symbolic : Option LinearForm) → (∀ t ∈ ts, t.PlainlyLinear) →
    ts.countP mentionsVariable + symbolic.toList.length ≤ 1 →
    ∃ f, linearizeProduct whole q symbolic ts = .ok f
  | [], whole, q, symbolic, _, _ => ⟨_, by rw [linearizeProduct]⟩
  | t :: ts, whole, q, symbolic, h, hcount => by
    obtain ⟨g, hg⟩ := exists_linearize t (h t (by simp))
    have hrest : ∀ u ∈ ts, u.PlainlyLinear := fun u hu => h u (by simp [hu])
    rw [List.countP_cons] at hcount
    by_cases hconst : g.isConstant = true
    · obtain ⟨f, hf⟩ := exists_linearizeProduct ts whole (q * g.constant) symbolic hrest (by omega)
      exact ⟨f, (linearizeProduct_cons_of_isConstant hg hconst ..).trans hf⟩
    · have hvars : t.mentionsVariable = true := by
        by_contra hnot
        exact hconst (isConstant_of_linearize hg (Bool.eq_false_iff.mpr hnot))
      rw [hvars, if_pos rfl] at hcount
      have hnone : symbolic = none := by
        cases symbolic with
        | none => rfl
        | some g' => simp at hcount
      subst hnone
      have hnomore : ts.countP mentionsVariable = 0 := by omega
      obtain ⟨f, hf⟩ := exists_linearizeProduct ts whole q (some g) hrest (by simp [hnomore])
      exact ⟨f, (linearizeProduct_cons_of_not_isConstant hg hconst ..).trans hf⟩

end

/-! ### Terms that have none -/

mutual

theorem error_of_linearize : (t : Term) → {e : Error} → t.linearize = .error e →
    (∃ text, e = .nonLinear text) ∨ e = .divisionByZero
  | const q, e, h => by
    rw [linearize] at h
    cases h
  | var v, e, h => by
    rw [linearize] at h
    cases h
  | add ts, e, h => by
    rw [linearize] at h
    exact error_of_linearizeSum ts h
  | mul ts, e, h => by
    rw [linearize] at h
    exact error_of_linearizeProduct ts h
  | neg t, e, h => by
    rw [linearize] at h
    rcases bind_eq_error_iff.mp h with ht | ⟨f, -, hf⟩
    · exact error_of_linearize t ht
    · cases hf
  | div t u, e, h => by
    rw [linearize] at h
    rcases bind_eq_error_iff.mp h with hu | ⟨d, -, h⟩
    · exact error_of_linearize u hu
    · by_cases hconst : d.isConstant = true
      · by_cases hz : d.constant = 0
        · simp only [hconst, hz] at h
          exact Or.inr (Except.error.inj h).symm
        · simp only [hconst, hz] at h
          rcases bind_eq_error_iff.mp h with ht | ⟨f, -, hf⟩
          · exact error_of_linearize t ht
          · cases hf
      · simp only [hconst] at h
        exact Or.inl ⟨_, (Except.error.inj h).symm⟩

theorem error_of_linearizeSum : (ts : List Term) → {sum : LinearForm} → {e : Error} →
    linearizeSum sum ts = .error e → (∃ text, e = .nonLinear text) ∨ e = .divisionByZero
  | [], sum, e, h => by
    rw [linearizeSum] at h
    cases h
  | t :: ts, sum, e, h => by
    rw [linearizeSum] at h
    rcases bind_eq_error_iff.mp h with ht | ⟨g, -, h⟩
    · exact error_of_linearize t ht
    · exact error_of_linearizeSum ts h

theorem error_of_linearizeProduct : (ts : List Term) → {whole : Term} → {q : Rat} →
    {symbolic : Option LinearForm} → {e : Error} →
    linearizeProduct whole q symbolic ts = .error e →
    (∃ text, e = .nonLinear text) ∨ e = .divisionByZero
  | [], whole, q, symbolic, e, h => by
    rw [linearizeProduct] at h
    cases h
  | t :: ts, whole, q, symbolic, e, h => by
    rw [linearizeProduct] at h
    rcases bind_eq_error_iff.mp h with ht | ⟨g, -, h⟩
    · exact error_of_linearize t ht
    · split at h
      · exact error_of_linearizeProduct ts h
      · split at h
        · exact error_of_linearizeProduct ts h
        · exact Or.inl ⟨_, (Except.error.inj h).symm⟩

end

theorem linearDifference_eq_ok {t u : Term} {f g : LinearForm} (hf : t.linearize = .ok f)
    (hg : u.linearize = .ok g) : t.linearDifference u = .ok (f.sub g) := by
  rw [linearDifference, hf, hg]
  rfl

/-- A linear form has the value of its term, in which no divisor is 0, under all interpretations; and
that of a difference has the value of the difference. Terms without products of variables and without
variable or zero divisors have linear forms, and a term without one has one of two faults. -/
theorem linearize_exact :
    (∀ (t : Term) (f : LinearForm), t.linearize = .ok f → ∀ ρ : Interpretation,
      (∀ d ∈ t.divisors, d.value ρ ≠ 0) ∧ t.value ρ = f.eval ρ.value) ∧
    (∀ (t u : Term) (f g : LinearForm), t.linearize = .ok f → u.linearize = .ok g →
      ∃ h, t.linearDifference u = .ok h ∧
        ∀ ρ : Interpretation, h.eval ρ.value = t.value ρ - u.value ρ) ∧
    (∀ t : Term, t.PlainlyLinear → ∃ f, t.linearize = .ok f) ∧
    ∀ (t : Term) (e : Error), t.linearize = .error e →
      (∃ text, e = .nonLinear text) ∨ e = .divisionByZero := by
  refine ⟨fun t f h ρ => ?_, fun t u f g hf hg => ?_, exists_linearize,
    fun t e => error_of_linearize t⟩
  · exact ⟨divisors_of_linearize ρ t h, (eval_of_linearize ρ t h).symm⟩
  · have hdiff : t.linearDifference u = .ok (f.sub g) := linearDifference_eq_ok hf hg
    exact ⟨f.sub g, hdiff, fun ρ => eval_of_linearDifference ρ hdiff⟩

def halved : Term := div (mul [const 2, var ⟨"x", .real, .unknown⟩]) (add [const 1, const 3])

theorem plainlyLinear_halved : halved.PlainlyLinear := by
  constructor
  · decide
  · intro d hd
    obtain rfl : d = add [const 1, const 3] := by simpa [halved, divisors, divisorsIn] using hd
    refine ⟨rfl, ⟨fun _ => 0, fun _ _ => 0, fun _ => True, fun _ => True⟩, ?_⟩
    norm_num [value, sumValue]

/-- The quotient is linear, and its product with itself is not. -/
theorem linearize_halved :
    (∃ f, halved.linearize = .ok f ∧ ∀ ρ : Interpretation,
      (add [const 1, const 3]).value ρ ≠ 0 ∧ halved.value ρ = f.eval ρ.value) ∧
    (∃ h, halved.linearDifference halved = .ok h ∧
      ∀ ρ : Interpretation, h.eval ρ.value = halved.value ρ - halved.value ρ) ∧
    ∃ e, (mul [halved, halved]).linearize = .error e ∧
      ((∃ text, e = .nonLinear text) ∨ e = .divisionByZero) := by
  obtain ⟨hexact, hdiff, hform, hfault⟩ := linearize_exact
  obtain ⟨f, hf⟩ := hform halved plainlyLinear_halved
  refine ⟨⟨f, hf, fun ρ => ?_⟩, hdiff halved halved f f hf hf, ?_⟩
  · obtain ⟨hne, hvalue⟩ := hexact halved f hf ρ
    exact ⟨hne _ (by simp [halved, divisors]), hvalue⟩
  · have herror : (mul [halved, halved]).linearize =
        .error (.nonLinear (mul [halved, halved]).text) := by decide +kernel
    exact ⟨_, herror, hfault _ _ herror⟩

end Term
end LinearArith
