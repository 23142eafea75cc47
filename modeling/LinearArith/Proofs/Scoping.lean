import LinearArith.Proofs.PrintedTerms
import LinearArith.Proofs.Sessions
import LinearArith.Proofs.UsedNames
import LinearArith.SortedBy.Image

/-! The scoping of problems. Forms are accepted just if each is well formed, no name is declared twice,
there is one goal at most and a name is declared before it is used; and then every variable in a
hypothesis or in the goal is one that was declared before. -/

namespace LinearArith

theorem forall_prefix_concat_iff {α : Type} {l : List α} {b : α} {P : List α → α → Prop} :
    (∀ before a, before ++ [a] <+: l ++ [b] → P before a) ↔
      (∀ before a, before ++ [a] <+: l → P before a) ∧ P l b := by
  constructor
  · intro h
    exact ⟨fun before a hpre => h before a (hpre.trans (List.prefix_append l [b])),
      h l b (List.prefix_refl _)⟩
  · rintro ⟨h, hlast⟩ before a hpre
    rcases List.prefix_concat_iff.mp hpre with heq | hpre
    · obtain ⟨rfl, ha⟩ := List.append_inj' heq rfl
      rwa [List.singleton_inj.mp ha]
    · exact h before a hpre

namespace SExpr

def claim? (form : SExpr) : Option SExpr := (form.hypothesis?.map (·.2)).or form.goal?

def isForm (form : SExpr) : Bool := form.declaration?.isSome || form.claim?.any isClaim

def declaredNames (forms : List SExpr) : List String := (forms.filterMap declaration?).map (·.name)

theorem nodup_declaredNames_concat_iff {forms : List SExpr} {form : SExpr} :
    (declaredNames (forms ++ [form])).Nodup ↔ (declaredNames forms).Nodup ∧
      ∀ v, form.declaration? = some v → v.name ∉ declaredNames forms := by
  rw [declaredNames, filterMap_concat, List.map_append, ← declaredNames]
  cases form.declaration? with
  | none => simp
  | some v =>
    rw [Option.toList_some, List.map_singleton, ← List.concat_eq_append, List.nodup_concat]
    simp only [Option.some.injEq, forall_eq', and_comm]

theorem length_goals_concat_le_iff {forms : List SExpr} {form : SExpr} :
    ((forms ++ [form]).filterMap goal?).length ≤ 1 ↔ (forms.filterMap goal?).length ≤ 1 ∧
      (form.goal?.isSome = true → forms.filterMap goal? = []) := by
  rw [filterMap_concat, List.length_append]
  cases form.goal? with
  | none => simp
  | some e =>
    rw [Option.toList_some, List.length_singleton]
    simp only [Option.isSome_some, true_imp_iff, ← List.length_eq_zero_iff]
    omega

end SExpr

namespace ProofState

/-- The state is what the forms say under their declarations, and no claim uses a later one. -/
structure Scoped (forms : List SExpr) (s : ProofState) : Prop where
  declared : ∀ v, v ∈ s.scope.toList ↔ v ∈ forms.filterMap SExpr.declaration?
  hypotheses : List.Forall₂ (fun f h => h.name = f.1 ∧ f.2.toProposition s.scope = .ok h.claim)
    ((forms.filterMap SExpr.hypothesis?).mapIdx fun k f => (Hypothesis.nameAt k f.1, f.2))
    s.hypotheses
  goal : forms.filterMap SExpr.goal? = [] ∧ s.goal = .truth false ∨
    ∃ e, forms.filterMap SExpr.goal? = [e] ∧ e.toProposition s.scope = .ok s.goal
  before : ∀ before form, before ++ [form] <+: forms → ∀ e, form.claim? = some e →
    ∃ q, e.toProposition s.scope = .ok q ∧
      ∀ v ∈ q.occurrences, v ∈ before.filterMap SExpr.declaration?

end ProofState

namespace Problem

/-- Each form is well formed, and names are declared once and before they are used. -/
structure WellScoped (forms : List SExpr) : Prop where
  formed : ∀ form ∈ forms, form.isForm = true
  declaredOnce : (SExpr.declaredNames forms).Nodup
  oneGoal : (forms.filterMap SExpr.goal?).length ≤ 1
  declaredBefore : ∀ before form, before ++ [form] <+: forms → ∀ e, form.claim? = some e →
    ∀ x ∈ e.claimNames, x ∈ SExpr.declaredNames before

structure MayFollow (forms : List SExpr) (form : SExpr) : Prop where
  formed : form.isForm = true
  new : ∀ v, form.declaration? = some v → v.name ∉ SExpr.declaredNames forms
  firstGoal : form.goal?.isSome = true → forms.filterMap SExpr.goal? = []
  declared : ∀ e, form.claim? = some e → ∀ x ∈ e.claimNames, x ∈ SExpr.declaredNames forms

structure Fits (pr : Problem) (form : SExpr) : Prop where
  formed : form.isForm = true
  new : ∀ v, form.declaration? = some v → pr.state.scope.hasKey v.name = false
  firstGoal : form.goal?.isSome = true → pr.hasGoal = false
  declared : ∀ e, form.claim? = some e → ∀ x ∈ e.claimNames, pr.state.scope.hasKey x = true

/-! ### One form -/

variable {pr pr' : Problem} {form : SExpr}

theorem toProposition_of_reads (h : Reads pr form pr') {e : SExpr} (he : form.claim? = some e) :
    ∃ q, e.toProposition pr.state.scope = .ok q := by
  cases h with
  | declaration => simp [SExpr.claim?, SExpr.hypothesis?, SExpr.goal?] at he
  | hypothesis hclaim | namedHypothesis hclaim | goal _ hclaim =>
    obtain rfl := Option.some.inj he
    exact ⟨_, hclaim⟩

theorem fits_of_reads (h : Reads pr form pr') : pr.Fits form where
  formed := by
    cases h with
    | declaration hparts hdomain => simp [SExpr.isForm, SExpr.declaration?, hparts, hdomain]
    | hypothesis hclaim | namedHypothesis hclaim | goal _ hclaim =>
      have hformed := (SExpr.toProposition_ok_iff.mp ⟨_, hclaim⟩).1
      simp [SExpr.isForm, SExpr.claim?, SExpr.hypothesis?, SExpr.goal?, hformed]
  new := by
    intro v hv
    cases h with
    | declaration hparts hdomain hnew =>
      simp only [SExpr.declaration?, hparts, hdomain, Option.bind_some, Option.map_some,
        Option.some.injEq] at hv
      rwa [← hv]
    | _ => cases hv
  firstGoal := by
    intro hgoal
    cases h with
    | goal hfirst => exact hfirst
    | declaration => simp [SExpr.goal?] at hgoal
    | _ => cases hgoal
  declared := fun _ he => (SExpr.toProposition_ok_iff.mp (toProposition_of_reads h he)).2

theorem addForm_ok_iff : (∃ pr', pr.addForm form = .ok pr') ↔ pr.Fits form := by
  constructor
  · rintro ⟨pr', h⟩
    exact fits_of_reads (reads_of_addForm h)
  · intro h
    rcases Bool.or_eq_true_iff.mp h.formed with hdecl | hclaim
    · obtain ⟨v, hv⟩ := Option.isSome_iff_exists.mp hdecl
      exact ⟨_, addForm_of_declaration? hv (h.new v hv)⟩
    · obtain ⟨e, he, hformed⟩ := (Option.any_eq_true _ _).mp hclaim
      obtain ⟨q, hq⟩ := SExpr.toProposition_ok_iff.mpr ⟨hformed, h.declared e he⟩
      rcases Option.or_eq_some_iff.mp he with hhyp | ⟨-, hgoal⟩
      · obtain ⟨⟨name, claim⟩, hform, rfl⟩ := Option.map_eq_some_iff.mp hhyp
        rw [addForm_of_hypothesis? hform]
        exact ⟨_, bind_eq_ok_iff.mpr ⟨q, hq, rfl⟩⟩
      · rw [addForm_of_goal? hgoal, setGoal, h.firstGoal (by rw [hgoal]; rfl)]
        exact ⟨_, bind_eq_ok_iff.mpr ⟨q, hq, rfl⟩⟩

/-! ### What the forms leave -/

theorem mem_scope_of_reads (h : Reads pr form pr') {v : Variable} :
    v ∈ pr'.state.scope.toList ↔ v ∈ pr.state.scope.toList ∨ form.declaration? = some v := by
  cases h with
  | declaration hparts hdomain hnew =>
    have hfree := fun (w : Variable) (hw : w ∈ pr.state.scope.toList) he =>
      Bool.eq_false_iff.mp hnew (SortedBy.hasKey_iff.mpr ⟨w, hw, he⟩)
    rw [SortedBy.mem_insert, and_iff_left_of_imp (hfree v), or_comm]
    simp only [SExpr.declaration?, hparts, hdomain, Option.bind_some, Option.map_some,
      Option.some.injEq, eq_comm]
  | hypothesis | namedHypothesis => simp [SExpr.declaration?, ProofState.assume]
  | goal => simp [SExpr.declaration?, ProofState.setGoal]

/-- What was read is read alike after further forms. -/
theorem toProposition_of_reads_of_ok (h : Reads pr form pr') {e : SExpr} {q : Proposition}
    (he : e.toProposition pr.state.scope = .ok q) : e.toProposition pr'.state.scope = .ok q :=
  SExpr.toProposition_of_subset (fun _ hv => (mem_scope_of_reads h).mpr (Or.inl hv)) he

/-- The state is scoped by the forms, and whether a goal was given is known. -/
structure Scoped (forms : List SExpr) (pr : Problem) : Prop where
  state : pr.state.Scoped forms
  hasGoal : pr.hasGoal = (forms.filterMap SExpr.goal?).isEmpty.not

theorem Scoped.hypotheses_step {seen : List SExpr} (h : pr.Scoped seen) (hform : Reads pr form pr') :
    List.Forall₂ (fun f h => h.name = f.1 ∧ f.2.toProposition pr'.state.scope = .ok h.claim)
      (((seen ++ [form]).filterMap SExpr.hypothesis?).mapIdx
        fun k f => (Hypothesis.nameAt k f.1, f.2)) pr'.state.hypotheses := by
  have hold := h.state.hypotheses.imp fun _ _ hh =>
    And.intro hh.1 (toProposition_of_reads_of_ok hform hh.2)
  have hlength := h.state.hypotheses.length_eq
  rw [List.length_mapIdx] at hlength
  rw [filterMap_concat]
  cases hform with
  | declaration => simpa [SExpr.hypothesis?] using hold
  | goal => simpa [SExpr.hypothesis?, ProofState.setGoal] using hold
  | hypothesis hclaim | namedHypothesis hclaim =>
    rw [SExpr.hypothesis?, Option.toList_some, List.mapIdx_concat, hlength]
    exact List.rel_append hold (.cons ⟨rfl, hclaim⟩ .nil)

theorem Scoped.goal_step {seen : List SExpr} (h : pr.Scoped seen) (hform : Reads pr form pr') :
    (seen ++ [form]).filterMap SExpr.goal? = [] ∧ pr'.state.goal = .truth false ∨
      ∃ e, (seen ++ [form]).filterMap SExpr.goal? = [e] ∧
        e.toProposition pr'.state.scope = .ok pr'.state.goal := by
  have hold := h.state.goal.imp_right fun ⟨e, he, hread⟩ =>
    Exists.intro e (And.intro he (toProposition_of_reads_of_ok hform hread))
  rw [filterMap_concat]
  cases hform with
  | declaration => simpa [SExpr.goal?] using hold
  | hypothesis | namedHypothesis => simpa [SExpr.goal?, ProofState.assume] using hold
  | @goal _ _ claim _ hfirst hgoal =>
    have hnone : seen.filterMap SExpr.goal? = [] := by simpa [hfirst] using h.hasGoal
    rw [hnone]
    exact Or.inr ⟨claim, rfl, hgoal⟩

theorem Scoped.step {seen : List SExpr} (h : pr.Scoped seen) (hform : Reads pr form pr') :
    pr'.Scoped (seen ++ [form]) := by
  refine ⟨⟨fun v => ?_, h.hypotheses_step hform, h.goal_step hform, ?_⟩, ?_⟩
  · rw [mem_scope_of_reads hform, h.state.declared, filterMap_concat, List.mem_append,
      Option.mem_toList]
  · refine forall_prefix_concat_iff.mpr ⟨fun before f hpre e he => ?_, fun e he => ?_⟩
    · obtain ⟨q, hq, hv⟩ := h.state.before before f hpre e he
      exact ⟨q, toProposition_of_reads_of_ok hform hq, hv⟩
    · obtain ⟨q, hq⟩ := toProposition_of_reads hform he
      refine ⟨q, toProposition_of_reads_of_ok hform hq, fun v hv => ?_⟩
      exact (h.state.declared v).mp (SExpr.mem_scope_of_toProposition hq v hv)
  · rw [filterMap_concat]
    cases hform with
    | declaration => simpa [SExpr.goal?] using h.hasGoal
    | hypothesis | namedHypothesis => simpa [SExpr.goal?] using h.hasGoal
    | goal => simp [SExpr.goal?]

theorem scoped_of_ofForms {forms : List SExpr} (h : ofForms forms = .ok pr) : pr.Scoped forms := by
  have hstart : start.Scoped [] := by
    refine ⟨⟨fun v => Iff.rfl, .nil, Or.inl ⟨rfl, rfl⟩, fun before form hpre => ?_⟩, rfl⟩
    simp at hpre
  exact foldlM_addForm Scoped.step hstart h

/-! ### Acceptance -/

theorem Scoped.hasKey_iff {forms : List SExpr} (h : pr.Scoped forms) {x : String} :
    pr.state.scope.hasKey x = true ↔ x ∈ SExpr.declaredNames forms := by
  rw [SortedBy.hasKey_iff, SExpr.declaredNames, List.mem_map]
  simp only [h.state.declared]

theorem Scoped.fits_iff {forms : List SExpr} (h : pr.Scoped forms) :
    pr.Fits form ↔ MayFollow forms form := by
  have hgoal : pr.hasGoal = false ↔ forms.filterMap SExpr.goal? = [] := by simp [h.hasGoal]
  constructor
  · rintro ⟨formed, new, firstGoal, declared⟩
    refine ⟨formed, fun v hv hx => ?_, fun hg => hgoal.mp (firstGoal hg), fun e he x hx => ?_⟩
    · exact Bool.eq_false_iff.mp (new v hv) (h.hasKey_iff.mpr hx)
    · exact h.hasKey_iff.mp (declared e he x hx)
  · rintro ⟨formed, new, firstGoal, declared⟩
    refine ⟨formed, fun v hv => ?_, fun hg => hgoal.mpr (firstGoal hg), fun e he x hx => ?_⟩
    · exact Bool.eq_false_iff.mpr fun hx => new v hv (h.hasKey_iff.mp hx)
    · exact h.hasKey_iff.mpr (declared e he x hx)

theorem wellScoped_nil : WellScoped [] where
  formed := nofun
  declaredOnce := .nil
  oneGoal := Nat.zero_le 1
  declaredBefore := fun before form hpre => by simp at hpre

theorem wellScoped_concat_iff {forms : List SExpr} :
    WellScoped (forms ++ [form]) ↔ WellScoped forms ∧ MayFollow forms form := by
  constructor
  · rintro ⟨hformed, honce, hgoal, hbefore⟩
    obtain ⟨hformed, hform⟩ := List.forall_mem_append.mp hformed
    obtain ⟨honce, hnew⟩ := SExpr.nodup_declaredNames_concat_iff.mp honce
    obtain ⟨hgoal, hfirst⟩ := SExpr.length_goals_concat_le_iff.mp hgoal
    obtain ⟨hbefore, hdeclared⟩ := forall_prefix_concat_iff.mp hbefore
    exact ⟨⟨hformed, honce, hgoal, hbefore⟩,
      hform form List.mem_cons_self, hnew, hfirst, hdeclared⟩
  · rintro ⟨⟨hformed, honce, hgoal, hbefore⟩, hform, hnew, hfirst, hdeclared⟩
    exact ⟨List.forall_mem_append.mpr ⟨hformed, List.forall_mem_singleton.mpr hform⟩,
      SExpr.nodup_declaredNames_concat_iff.mpr ⟨honce, hnew⟩,
      SExpr.length_goals_concat_le_iff.mpr ⟨hgoal, hfirst⟩,
      forall_prefix_concat_iff.mpr ⟨hbefore, hdeclared⟩⟩

theorem ofForms_concat_ok_iff {forms : List SExpr} :
    (∃ pr', ofForms (forms ++ [form]) = .ok pr') ↔
      ∃ pr, ofForms forms = .ok pr ∧ pr.Fits form := by
  simp only [ofForms, List.foldlM_append, List.foldlM_cons, List.foldlM_nil, bind_pure,
    bind_eq_ok_iff, ← addForm_ok_iff]
  constructor
  · rintro ⟨pr', pr, hpr, h⟩
    exact ⟨pr, hpr, pr', h⟩
  · rintro ⟨pr, hpr, pr', h⟩
    exact ⟨pr', pr, hpr, h⟩

/-- Forms are accepted just if they are well scoped. -/
theorem ofForms_ok_iff {forms : List SExpr} : (∃ pr, ofForms forms = .ok pr) ↔ WellScoped forms := by
  induction forms using List.reverseRecOn with
  | nil => exact iff_of_true ⟨start, rfl⟩ wellScoped_nil
  | append_singleton forms form ih =>
    rw [ofForms_concat_ok_iff, wellScoped_concat_iff, ← ih]
    constructor
    · rintro ⟨pr, hpr, hfits⟩
      exact ⟨⟨pr, hpr⟩, (scoped_of_ofForms hpr).fits_iff.mp hfits⟩
    · rintro ⟨⟨pr, hpr⟩, hfits⟩
      exact ⟨pr, hpr, (scoped_of_ofForms hpr).fits_iff.mpr hfits⟩

theorem ofForms_error_iff {forms : List SExpr} :
    (∃ e, ofForms forms = .error e) ↔ ¬WellScoped forms := by
  rw [← ofForms_ok_iff]
  cases ofForms forms <;> simp

end Problem

namespace ProofState

theorem Scoped.declared?_eq {forms : List SExpr} {s : ProofState} (h : s.Scoped forms)
    {q : Proposition} (hq : q = s.goal ∨ q ∈ s.hypotheses.map (·.claim)) {v : Variable}
    (hv : v ∈ q.occurrences) : s.declared? v.name = some v := by
  apply SortedBy.mem_iff_find?.mp
  rcases hq with rfl | hq
  · rcases h.goal with ⟨-, hfalse⟩ | ⟨e, -, he⟩
    · rw [hfalse] at hv
      cases hv
    · exact SExpr.mem_scope_of_toProposition he v hv
  · obtain ⟨hyp, hmem, rfl⟩ := List.mem_map.mp hq
    obtain ⟨k, rfl⟩ := List.mem_iff_get.mp hmem
    obtain ⟨-, he⟩ := h.hypotheses.get (k.isLt.trans_eq h.hypotheses.length_eq.symm) k.isLt
    exact SExpr.mem_scope_of_toProposition he v hv

/-- A text that is read is a sequence of well-scoped forms, and the proof state is what they say: each
variable in a hypothesis or in the goal is as it was declared, by a form before the one that uses it. And
forms that are not well scoped are rejected, and no others are. -/
theorem scoped_of_ofText :
    (∀ text s, ofText text = .ok s → ∃ forms, SExpr.ofText text = .ok forms ∧
      Problem.WellScoped forms ∧ s.Scoped forms ∧
        ∀ q, q = s.goal ∨ q ∈ s.hypotheses.map (·.claim) → ∀ v ∈ q.occurrences,
          s.declared? v.name = some v) ∧
      ∀ forms, (∃ e, Problem.ofForms forms = .error e) ↔ ¬Problem.WellScoped forms := by
  refine ⟨fun text s h => ?_, fun forms => Problem.ofForms_error_iff⟩
  rw [ofText_eq] at h
  obtain ⟨forms, hforms, h⟩ := bind_eq_ok_iff.mp h
  obtain ⟨pr, hpr, h⟩ := bind_eq_ok_iff.mp h
  obtain rfl := Except.ok.inj h
  have hscoped := (Problem.scoped_of_ofForms hpr).state
  exact ⟨forms, hforms, Problem.ofForms_ok_iff.mp ⟨pr, hpr⟩, hscoped,
    fun q hq v hv => hscoped.declared?_eq hq hv⟩

/-- A goal that is negated twice, and a hypothesis whose variable is declared too late. -/
theorem scoped_of_late_declaration :
    (∃ s, ofText "(var y vector) (goal (not (not (= y 1))))" = .ok s ∧
      s.goal.occurrences = [⟨"y", .vector, .unknown⟩] ∧
      ∀ v ∈ s.goal.occurrences, s.declared? v.name = some v) ∧
      let p := Position.start
      let hypothesis := SExpr.list p [.symbol p "hyp",
        .list p [.symbol p "not", .list p [.symbol p "<", .symbol p "x", .number p 1]]]
      let declaration := SExpr.list p [.symbol p "var", .symbol p "x", .symbol p "real"]
      ∃ e, Problem.ofForms [hypothesis, declaration] = .error e := by
  obtain ⟨haccepted, hrejected⟩ := scoped_of_ofText
  constructor
  · have h : ofText "(var y vector) (goal (not (not (= y 1))))" =
        .ok ⟨SortedBy.ofList [⟨"y", .vector, .unknown⟩], [],
          .compare .eq (.var ⟨"y", .vector, .unknown⟩) (.const 1)⟩ := by decide +kernel
    obtain ⟨forms, -, -, -, hdeclared⟩ := haccepted _ _ h
    exact ⟨_, h, rfl, hdeclared _ (Or.inl rfl)⟩
  · refine (hrejected _).mpr fun h => ?_
    have hx := h.declaredBefore [] _ (List.prefix_append _ _) _ rfl "x" (by decide)
    cases hx

end ProofState
end LinearArith
