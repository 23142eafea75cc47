import LinearArith.Proofs.CanonicalForms
import LinearArith.Proofs.Complement
import LinearArith.Proofs.LinearTerms
import LinearArith.Proofs.NameIndependence

/-! Comparisons that mention vectors. Whether one is left out is told by the linear form of its
difference, so it is left out if the difference depends on a vector. A comparison from whose difference
all vectors cancel counts like one between reals. -/

namespace LinearArith

/-! ### The labels of a linear form -/

namespace LinComb
variable {α κ : Type} [Ord κ] {key : α → κ}

theorem exists_label_of_mem_scale {q : Rat} {l : LinComb key} {e : α × Rat}
    (h : e ∈ (l.scale q).toList) : ∃ d ∈ l.toList, d.1 = e.1 := by
  unfold scale at h
  split at h
  case isTrue => cases h
  case isFalse =>
    obtain ⟨d, hd, rfl⟩ := List.mem_map.mp h
    exact ⟨d, hd, rfl⟩

variable [Std.LawfulEqOrd κ] [Std.TransOrd κ] [DecidableEq κ]

theorem exists_label_of_mem_add {l m : LinComb key} {e : α × Rat} (h : e ∈ (l.add m).toList) :
    (∃ d ∈ l.toList, d.1 = e.1) ∨ ∃ d ∈ m.toList, d.1 = e.1 := by
  have hfind : (l.add m).find? (key e.1) = some e := SortedBy.mem_iff_find?.mp h
  rw [find?_add] at hfind
  cases hm : m.find? (key e.1) with
  | none =>
    rw [hm] at hfind
    exact Or.inl ⟨e, (SortedBy.find?_eq_some_iff.mp hfind).1, rfl⟩
  | some d =>
    rw [hm, Option.elim, joined] at hfind
    split at hfind
    case isTrue => cases hfind
    case isFalse =>
      have hlabel : ((l.find? (key e.1)).elim d.1 (·.1)) = e.1 :=
        congrArg Prod.fst (Option.some.inj hfind)
      cases hl : l.find? (key e.1) with
      | none => exact Or.inr ⟨d, (SortedBy.find?_eq_some_iff.mp hm).1, by simpa [hl] using hlabel⟩
      | some d' =>
        exact Or.inl ⟨d', (SortedBy.find?_eq_some_iff.mp hl).1, by simpa [hl] using hlabel⟩

end LinComb

def LinearForm.LabelledBy (vs : List Variable) (f : LinearForm) : Prop :=
  ∀ e ∈ f.linear.toList, e.1 ∈ vs

theorem LinearForm.stable_labelledBy (vs : List Variable) : Stable (LabelledBy vs) where
  const _ := nofun
  addScaled f g q hf hg := by
    intro e he
    rcases LinComb.exists_label_of_mem_add he with ⟨d, hd, hlabel⟩ | ⟨d, hd, hlabel⟩
    · exact hlabel ▸ hf d hd
    · obtain ⟨d', hd', hlabel'⟩ := LinComb.exists_label_of_mem_scale hd
      exact hlabel ▸ hlabel' ▸ hg d' hd'

namespace Term

/-- Whatever cancels, each label of the form of a term occurs in the term. -/
theorem labelledBy_of_linearize {t : Term} {f : LinearForm} (h : t.linearize = .ok f) :
    f.LabelledBy t.occurrences := by
  apply of_linearize (LinearForm.stable_labelledBy t.occurrences) t h
  intro v hv e he
  obtain rfl : e = (v, 1) := List.mem_singleton.mp he
  exact hv

theorem labelledBy_of_linearDifference {t u : Term} {f : LinearForm}
    (h : t.linearDifference u = .ok f) : f.LabelledBy (t.occurrences ++ u.occurrences) := by
  rw [linearDifference] at h
  obtain ⟨g, hg, h⟩ := bind_eq_ok_iff.mp h
  obtain ⟨g', hg', h⟩ := bind_eq_ok_iff.mp h
  obtain rfl := Except.ok.inj h
  apply (LinearForm.stable_labelledBy _).addScaled
  · exact fun e he => List.mem_append_left _ (labelledBy_of_linearize hg e he)
  · exact fun e he => List.mem_append_right _ (labelledBy_of_linearize hg' e he)

end Term

/-! ### Dependence on a name -/

def Interpretation.set (x : String) (q : Rat) (ρ : Interpretation) : Interpretation :=
  { ρ with value := Function.update ρ.value x q }

namespace Term

/-- The difference of the terms changes with the value of the name `x` alone. -/
def DifferenceDependsOn (x : String) (t u : Term) : Prop :=
  ∃ (ρ : Interpretation) (q : Rat),
    t.value (ρ.set x q) - u.value (ρ.set x q) ≠ t.value ρ - u.value ρ

theorem differenceDependsOn_iff {x : String} {t u : Term} {f : LinearForm}
    (h : t.linearDifference u = .ok f) : t.DifferenceDependsOn x u ↔ x ∈ f.linear.keys := by
  rw [LinearForm.mem_keys_iff]
  constructor
  · rintro ⟨ρ, q, hne⟩
    rw [← eval_of_linearDifference ρ h, ← eval_of_linearDifference (ρ.set x q) h] at hne
    exact ⟨ρ.value, q, hne⟩
  · rintro ⟨v, q, hne⟩
    let ρ : Interpretation := ⟨v, fun _ _ => 0, fun _ => True, fun _ => True⟩
    refine ⟨ρ, q, ?_⟩
    rw [← eval_of_linearDifference ρ h, ← eval_of_linearDifference (ρ.set x q) h]
    exact hne

end Term

/-! ### Comparisons that are left out -/

theorem realDifference?_eq_some_iff {l r : Term} {f : LinearForm} :
    realDifference? l r = some f ↔
      l.linearDifference r = .ok f ∧ ∀ e ∈ f.linear.toList, e.1.isReal = true := by
  constructor
  · intro h
    unfold realDifference? at h
    split at h
    next g hg =>
      split at h
      next hall =>
        obtain rfl := Option.some.inj h
        exact ⟨hg, List.all_eq_true.mp hall⟩
      next => cases h
    next => cases h
  · rintro ⟨hd, hreal⟩
    have hall : (f.linear.toList.all fun e => e.1.isReal) = true := List.all_eq_true.mpr hreal
    simp only [realDifference?, hd, hall, if_true]

namespace Proposition

theorem options_eq_nil_of_dependsOn {c : Comparison} {l r : Term}
    (h : ∀ f, l.linearDifference r = .ok f → ∃ x,
      (∀ w ∈ l.occurrences ++ r.occurrences, w.name = x → w.domain = .vector) ∧
        l.DifferenceDependsOn x r) : (compare c l r).options = [] := by
  rw [options_compare_eq_nil_iff]
  by_contra hsome
  obtain ⟨f, hf⟩ := Option.ne_none_iff_exists'.mp hsome
  obtain ⟨hdiff, hreal⟩ := realDifference?_eq_some_iff.mp hf
  obtain ⟨x, hx, hdep⟩ := h f hdiff
  obtain ⟨e, he, hname⟩ := List.mem_map.mp ((Term.differenceDependsOn_iff hdiff).mp hdep)
  have hvector : e.1.domain = .vector :=
    hx e.1 (Term.labelledBy_of_linearDifference hdiff e he) hname
  have hisReal : e.1.isReal = true := hreal e he
  rw [Variable.isReal, hvector] at hisReal
  cases hisReal

theorem options_ne_nil_of_not_dependsOn {c : Comparison} {l r : Term} {f : LinearForm}
    (hf : l.linearDifference r = .ok f)
    (hindep : ∀ w ∈ l.occurrences ++ r.occurrences, w.domain = .vector →
      ¬l.DifferenceDependsOn w.name r) : (compare c l r).options ≠ [] := by
  have hreal : ∀ e ∈ f.linear.toList, e.1.isReal = true := by
    intro e he
    by_contra hnot
    have hvector : e.1.domain = .vector := by simpa [Variable.isReal] using hnot
    apply hindep e.1 (Term.labelledBy_of_linearDifference hf e he) hvector
    exact (Term.differenceDependsOn_iff hf).mpr (List.mem_map.mpr ⟨e, he, rfl⟩)
  rw [Ne, options_compare_eq_nil_iff, realDifference?_eq_some_iff.mpr ⟨hf, hreal⟩]
  exact Option.some_ne_none f

theorem optionLists_insert {p : Proposition} (hp : p.options = []) (ps qs : List Proposition) :
    optionLists (ps ++ p :: qs) = optionLists (ps ++ qs) := by
  have hone : optionLists [p] = [] := by simp [optionLists, hp]
  rw [List.append_cons, optionLists_append, optionLists_append, hone, List.append_nil,
    ← optionLists_append]

end Proposition

namespace ProofState

/-- The state with a hypothesis more, between the first `k` and the others. -/
def insertAt (k : Nat) (h : Hypothesis) (s : ProofState) : ProofState :=
  { s with hypotheses := s.hypotheses.take k ++ h :: s.hypotheses.drop k }

/-- A hypothesis without options makes no difference to a search, wherever it stands. -/
theorem search_insertAt {h : Hypothesis} (hh : h.claim.options = []) (k : Nat) (s : ProofState)
    (oracle : Oracle) : (s.insertAt k h).search oracle = s.search oracle := by
  have hclaims : s.hypotheses.map (·.claim) =
      (s.hypotheses.take k).map (·.claim) ++ (s.hypotheses.drop k).map (·.claim) := by
    rw [← List.map_append, List.take_append_drop]
  have hlists : Proposition.optionLists (s.insertAt k h).negatedProblem =
      Proposition.optionLists s.negatedProblem := by
    simp only [negatedProblem, facts, negatedGoal, insertAt, hclaims, List.map_append,
      List.map_cons, List.append_assoc, List.cons_append]
    rw [← List.append_assoc, Proposition.optionLists_insert hh, List.append_assoc]
  rw [search, enumeration, hlists]
  rfl

/-- A comparison whose difference is not linear or depends on a vector is left out: it has no options,
and as a hypothesis it makes no difference to the verdict wherever it stands. A comparison whose
difference is linear and depends on no vector is not left out, whatever vectors are mentioned in it. -/
theorem ignored_of_dependsOn_vector (c : Comparison) (l r : Term) :
    ((∀ f, l.linearDifference r = .ok f → ∃ x,
        (∀ w ∈ l.occurrences ++ r.occurrences, w.name = x → w.domain = .vector) ∧
          l.DifferenceDependsOn x r) →
      (Proposition.compare c l r).options = [] ∧
        ∀ (s : ProofState) (k : Nat) (name : String) (oracle : Oracle),
          (s.insertAt k ⟨name, .compare c l r⟩).decide oracle = s.decide oracle) ∧
      ((∃ f, l.linearDifference r = .ok f) →
        (∀ w ∈ l.occurrences ++ r.occurrences, w.domain = .vector →
          ¬l.DifferenceDependsOn w.name r) → (Proposition.compare c l r).options ≠ []) := by
  constructor
  · intro h
    have hnone : (Proposition.compare c l r).options = [] :=
      Proposition.options_eq_nil_of_dependsOn h
    refine ⟨hnone, fun s k name oracle => ?_⟩
    rw [decide, decide, search_insertAt (h := ⟨name, .compare c l r⟩) hnone]
  · rintro ⟨f, hf⟩ hindep
    exact Proposition.options_ne_nil_of_not_dependsOn hf hindep

/-- An equation of two vectors in front of the hypothesis that proves the goal makes no difference. An
equation of a vector with itself is not left out. -/
theorem ignored_equation_of_vectors :
    (Proposition.compare .eq (.var ⟨"v", .vector, .unknown⟩)
        (.var ⟨"w", .vector, .unknown⟩)).options = [] ∧
      (insertAt 0 ⟨"h", .compare .eq (.var ⟨"v", .vector, .unknown⟩) (.var ⟨"w", .vector, .unknown⟩)⟩
          ⟨.empty, [⟨"h1", .compare .gt (.var ⟨"x", .real, .unknown⟩) (.const 2)⟩],
            .compare .gt (.var ⟨"x", .real, .unknown⟩) (.const 1)⟩).decide .elimination =
        decide ⟨.empty, [⟨"h1", .compare .gt (.var ⟨"x", .real, .unknown⟩) (.const 2)⟩],
          .compare .gt (.var ⟨"x", .real, .unknown⟩) (.const 1)⟩ .elimination ∧
      (Proposition.compare .eq (.var ⟨"v", .vector, .unknown⟩)
        (.var ⟨"v", .vector, .unknown⟩)).options ≠ [] := by
  have hdep : (Term.var ⟨"v", .vector, .unknown⟩).DifferenceDependsOn "v"
      (.var ⟨"w", .vector, .unknown⟩) := by
    refine ⟨⟨fun _ => 0, fun _ _ => 0, fun _ => True, fun _ => True⟩, 1, ?_⟩
    simp [Term.value, Interpretation.set]
  obtain ⟨hnone, hsame⟩ := (ignored_of_dependsOn_vector .eq (.var ⟨"v", .vector, .unknown⟩)
    (.var ⟨"w", .vector, .unknown⟩)).1 fun _ _ => ⟨"v", by decide, hdep⟩
  refine ⟨hnone, hsame _ 0 "h" .elimination,
    (ignored_of_dependsOn_vector _ _ _).2 ⟨_, rfl⟩ fun w _ _ => ?_⟩
  rintro ⟨ρ, q, hne⟩
  exact hne (by rw [sub_self, sub_self])

/-- Comparisons in which a vector occurs but cancels are not left out. The disequality of a vector with
itself proves a goal that is not proved without it, and so does `0 * v = 1`. -/
theorem not_ignored_of_cancellation :
    (⟨"v", .vector, .unknown⟩ : Variable) ∈ (Term.var ⟨"v", .vector, .unknown⟩).vars.toList ∧
      (Proposition.compare .ne (.var ⟨"v", .vector, .unknown⟩)
          (.var ⟨"v", .vector, .unknown⟩)).options = [⟨.empty, .lt, 0⟩, ⟨.empty, .gt, 0⟩] ∧
      (insertAt 0 ⟨"h", .compare .ne (.var ⟨"v", .vector, .unknown⟩)
          (.var ⟨"v", .vector, .unknown⟩)⟩ (.ofGoal (.truth false))).decide .elimination =
        .ok (.proved []) ∧
      (⟨"v", .vector, .unknown⟩ : Variable) ∈
        (Term.mul [.const 0, .var ⟨"v", .vector, .unknown⟩]).vars.toList ∧
      (Proposition.compare .eq (.mul [.const 0, .var ⟨"v", .vector, .unknown⟩])
          (.const 1)).options = [⟨.empty, .eq, 1⟩] ∧
      (insertAt 0 ⟨"h", .compare .eq (.mul [.const 0, .var ⟨"v", .vector, .unknown⟩])
          (.const 1)⟩ (.ofGoal (.truth false))).decide .elimination = .ok (.proved []) ∧
      (ofGoal (.truth false)).decide .elimination = .ok (.refuted 0 .empty .empty true) := by
  decide +kernel

end ProofState
end LinearArith
