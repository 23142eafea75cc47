import LinearArith.Proofs.PrintedTrees
import LinearArith.Proofs.ProblemReading
import LinearArith.SortedBy.Image

/-! Terms printed into a problem text: a goal that compares their texts is read as the comparison of
the terms. -/

namespace LinearArith
open Scanner

namespace SExpr

theorem exists_number_of_bare {e : SExpr} {q : Rat} (h : e.bare = number .start q) :
    ∃ p, e = number p q := by
  cases e with
  | number p r => exact ⟨p, by cases h; rfl⟩
  | symbol | list => cases h

theorem exists_symbol_of_bare {e : SExpr} {name : String} (h : e.bare = symbol .start name) :
    ∃ p, e = symbol p name := by
  cases e with
  | symbol p n => exact ⟨p, by cases h; rfl⟩
  | number | list => cases h

theorem exists_list_of_bare {e : SExpr} {items : List SExpr} (h : e.bare = list .start items) :
    ∃ p items', e = list p items' ∧ items'.map bare = items := by
  cases e with
  | list p items' => exact ⟨p, items', rfl, bareAll_eq_map items' ▸ (list.inj h).2⟩
  | number | symbol => cases h

theorem exists_application_of_bare {e : SExpr} {head : String} {args : List SExpr}
    (h : e.bare = list .start (symbol .start head :: args)) :
    ∃ p p' args', e = list p (symbol p' head :: args') ∧ args'.map bare = args := by
  obtain ⟨p, items, rfl, hitems⟩ := exists_list_of_bare h
  obtain ⟨first, args', rfl, hfirst, hargs⟩ := List.map_eq_cons_iff.mp hitems
  obtain ⟨p', rfl⟩ := exists_symbol_of_bare hfirst
  exact ⟨p, p', args', rfl, hargs⟩

theorem exists_pair_of_bare {es : List SExpr} {a b : SExpr} (h : es.map bare = [a, b]) :
    ∃ e f, es = [e, f] ∧ e.bare = a ∧ f.bare = b := by
  obtain ⟨e, es, rfl, he, hes⟩ := List.map_eq_cons_iff.mp h
  obtain ⟨f, rfl, hf⟩ := List.map_eq_singleton_iff.mp hes
  exact ⟨e, f, rfl, he, hf⟩

end SExpr

namespace Term

mutual

def expression : Term → SExpr
  | const q => .number .start q
  | var v => .symbol .start v.name
  | add ts => .list .start (.symbol .start "+" :: expressions ts)
  | mul ts => .list .start (.symbol .start "*" :: expressions ts)
  | neg t => .list .start [.symbol .start "-", t.expression]
  | div t u => .list .start [.symbol .start "/", t.expression, u.expression]

def expressions : List Term → List SExpr
  | [] => []
  | t :: ts => t.expression :: expressions ts

end

/-- The symbols that stand for no variable. -/
def operators : List String := ["+", "*", "-", "/"]

theorem isSymbol_of_mem_operators : ∀ name ∈ operators, IsSymbol name := by decide +kernel

mutual

theorem text_expression : (t : Term) → t.expression.text = t.text
  | const _ => rfl
  | var _ => rfl
  | add ts => by simp [expression, SExpr.text, text, spacedText_expressions ts]
  | mul ts => by simp [expression, SExpr.text, text, spacedText_expressions ts]
  | neg t => by
    simp [expression, SExpr.text, SExpr.spacedText, text, text_expression t,
      ← String.append_assoc]
  | div t u => by
    simp [expression, SExpr.text, SExpr.spacedText, text, text_expression t, text_expression u,
      ← String.append_assoc]

theorem spacedText_expressions : (ts : List Term) →
    SExpr.spacedText (expressions ts) = spacedText ts
  | [] => rfl
  | t :: ts => by
    rw [expressions, SExpr.spacedText, spacedText, text_expression t, spacedText_expressions ts]

end

mutual

theorem isSymbol_expression : (t : Term) → (∀ v ∈ t.occurrences, IsSymbol v.name) →
    ∀ name ∈ t.expression.symbols, IsSymbol name
  | const _, _ => nofun
  | var v, h => by simpa [expression, SExpr.symbols, occurrences] using h
  | add ts, h => List.forall_mem_cons.mpr
      ⟨isSymbol_of_mem_operators _ (by decide), isSymbol_expressions ts h⟩
  | mul ts, h => List.forall_mem_cons.mpr
      ⟨isSymbol_of_mem_operators _ (by decide), isSymbol_expressions ts h⟩
  | neg t, h => by
    simp only [expression, SExpr.symbols, SExpr.symbolsIn, List.append_nil, List.singleton_append,
      List.forall_mem_cons]
    exact ⟨isSymbol_of_mem_operators _ (by decide), isSymbol_expression t h⟩
  | div t u, h => by
    obtain ⟨ht, hu⟩ := List.forall_mem_append.mp h
    simp only [expression, SExpr.symbols, SExpr.symbolsIn, List.append_nil, List.singleton_append,
      List.forall_mem_cons, List.forall_mem_append]
    exact ⟨isSymbol_of_mem_operators _ (by decide), isSymbol_expression t ht,
      isSymbol_expression u hu⟩

theorem isSymbol_expressions : (ts : List Term) → (∀ v ∈ occurrencesIn ts, IsSymbol v.name) →
    ∀ name ∈ SExpr.symbolsIn (expressions ts), IsSymbol name
  | [], _ => nofun
  | t :: ts, h => by
    obtain ⟨ht, hts⟩ := List.forall_mem_append.mp h
    exact List.forall_mem_append.mpr ⟨isSymbol_expression t ht, isSymbol_expressions ts hts⟩

end

mutual

theorem toTerm_of_bare {scope : Scope} : (t : Term) →
    (∀ v ∈ t.occurrences, scope.find? v.name = some v) → {e : SExpr} → e.bare = t.expression.bare →
    e.toTerm scope = .ok t
  | const q, _, e, he => by
    obtain ⟨p, rfl⟩ := SExpr.exists_number_of_bare he
    rfl
  | var v, h, e, he => by
    obtain ⟨p, rfl⟩ := SExpr.exists_symbol_of_bare he
    rw [SExpr.toTerm, h v (by simp [occurrences])]
  | add ts, h, e, he => by
    obtain ⟨p, p', args, rfl, hargs⟩ := SExpr.exists_application_of_bare he
    rw [SExpr.toTerm, toTerms_of_bare ts h hargs]
    rfl
  | mul ts, h, e, he => by
    obtain ⟨p, p', args, rfl, hargs⟩ := SExpr.exists_application_of_bare he
    rw [SExpr.toTerm, toTerms_of_bare ts h hargs]
    rfl
  | neg t, h, e, he => by
    obtain ⟨p, p', args, rfl, hargs⟩ := SExpr.exists_application_of_bare he
    obtain ⟨e', rfl, he'⟩ := List.map_eq_singleton_iff.mp hargs
    rw [SExpr.toTerm, SExpr.toTerms, toTerm_of_bare t h he']
    rfl
  | div t u, h, e, he => by
    obtain ⟨p, p', args, rfl, hargs⟩ := SExpr.exists_application_of_bare he
    obtain ⟨e₁, e₂, rfl, he₁, he₂⟩ := SExpr.exists_pair_of_bare hargs
    have ht := toTerm_of_bare t (fun v hv => h v (List.mem_append_left _ hv)) he₁
    have hu := toTerm_of_bare u (fun v hv => h v (List.mem_append_right _ hv)) he₂
    rw [SExpr.toTerm, SExpr.toTerms, ht, SExpr.toTerms, hu]
    rfl

theorem toTerms_of_bare {scope : Scope} : (ts : List Term) →
    (∀ v ∈ occurrencesIn ts, scope.find? v.name = some v) → {es : List SExpr} →
    es.map SExpr.bare = SExpr.bareAll (expressions ts) → SExpr.toTerms scope es = .ok ts
  | [], _, es, he => by
    obtain rfl := List.map_eq_nil_iff.mp he
    rfl
  | t :: ts, h, es, he => by
    obtain ⟨e, es, rfl, he, hes⟩ := List.map_eq_cons_iff.mp he
    have ht := toTerm_of_bare t (fun v hv => h v (List.mem_append_left _ hv)) he
    have hts := toTerms_of_bare ts (fun v hv => h v (List.mem_append_right _ hv)) hes
    rw [SExpr.toTerms, ht, hts]
    rfl

end

end Term

/-! ### Declarations and goals -/

def Sign.markText : Sign → String
  | unknown => ""
  | positive => " positive"
  | nonnegative => " nonnegative"

def Sign.marks : Sign → List SExpr
  | unknown => []
  | positive => [.symbol .start "positive"]
  | nonnegative => [.symbol .start "nonnegative"]

namespace Variable

def declarationText (v : Variable) : String :=
  "(var " ++ v.name ++ " " ++ v.domain.text ++ v.sign.markText ++ ")"

def declaration (v : Variable) : SExpr :=
  .list .start
    (.symbol .start "var" :: .symbol .start v.name :: .symbol .start v.domain.text :: v.sign.marks)

theorem text_declaration (v : Variable) : v.declaration.text = v.declarationText := by
  cases hsign : v.sign <;>
    simp [declaration, declarationText, Sign.marks, Sign.markText, hsign, SExpr.text,
      SExpr.spacedText, ← String.append_assoc]

theorem isSymbol_declaration {v : Variable} (h : IsSymbol v.name) :
    ∀ name ∈ v.declaration.symbols, IsSymbol name := by
  have hdomain : IsSymbol v.domain.text := by cases v.domain <;> decide +kernel
  have hmarks : ∀ name ∈ SExpr.symbolsIn v.sign.marks, IsSymbol name := by
    cases v.sign <;> decide +kernel
  simp only [declaration, SExpr.symbols, SExpr.symbolsIn, List.singleton_append,
    List.forall_mem_cons]
  exact ⟨by decide +kernel, h, hdomain, hmarks⟩

end Variable

theorem Domain.ofText?_text (d : Domain) : ofText? d.text = some d := by cases d <;> rfl

namespace Comparison

def goalText (c : Comparison) (t u : Term) : String :=
  "(goal (" ++ c.text ++ " " ++ t.text ++ " " ++ u.text ++ "))"

def goalForm (c : Comparison) (t u : Term) : SExpr :=
  .list .start [.symbol .start "goal",
    .list .start [.symbol .start c.text, t.expression, u.expression]]

theorem text_goalForm (c : Comparison) (t u : Term) : (c.goalForm t u).text = c.goalText t u := by
  rw [← String.toList_inj]
  simp [goalForm, goalText, SExpr.text, SExpr.spacedText, t.text_expression, u.text_expression]

theorem isSymbol_goalForm (c : Comparison) {t u : Term}
    (ht : ∀ v ∈ t.occurrences, IsSymbol v.name) (hu : ∀ v ∈ u.occurrences, IsSymbol v.name) :
    ∀ name ∈ (c.goalForm t u).symbols, IsSymbol name := by
  have hc : IsSymbol c.text := by cases c <;> decide +kernel
  simp only [goalForm, SExpr.symbols, SExpr.symbolsIn, List.append_nil, List.singleton_append,
    List.forall_mem_cons, List.forall_mem_append]
  exact ⟨by decide +kernel, hc, t.isSymbol_expression ht, u.isSymbol_expression hu⟩

theorem toProposition_of_bare (c : Comparison) {t u : Term} {scope : Scope} {e : SExpr}
    (h : e.bare = .list .start [.symbol .start c.text, t.expression.bare, u.expression.bare])
    (ht : ∀ v ∈ t.occurrences, scope.find? v.name = some v)
    (hu : ∀ v ∈ u.occurrences, scope.find? v.name = some v) :
    e.toProposition scope = .ok (.compare c t u) := by
  obtain ⟨p, p', args, rfl, hargs⟩ := SExpr.exists_application_of_bare h
  obtain ⟨e₁, e₂, rfl, h₁, h₂⟩ := SExpr.exists_pair_of_bare hargs
  rw [SExpr.toProposition_relation (ofText?_text c), t.toTerm_of_bare ht h₁, u.toTerm_of_bare hu h₂]
  rfl

end Comparison

namespace Problem

theorem declarationParts?_of_bare {v : Variable} {args : List SExpr}
    (h : args.map SExpr.bare =
      .symbol .start v.name :: .symbol .start v.domain.text :: SExpr.bareAll v.sign.marks) :
    ∃ place, declarationParts? args = some (v.name, place, v.domain.text, v.sign) := by
  obtain ⟨e₁, args, rfl, h₁, h⟩ := List.map_eq_cons_iff.mp h
  obtain ⟨e₂, marks, rfl, h₂, hmarks⟩ := List.map_eq_cons_iff.mp h
  obtain ⟨p₁, rfl⟩ := SExpr.exists_symbol_of_bare h₁
  obtain ⟨p₂, rfl⟩ := SExpr.exists_symbol_of_bare h₂
  refine ⟨.symbol p₂ v.domain.text, ?_⟩
  cases hsign : v.sign with
  | unknown =>
    rw [hsign] at hmarks
    obtain rfl := List.map_eq_nil_iff.mp hmarks
    rfl
  | positive | nonnegative =>
    rw [hsign] at hmarks
    obtain ⟨e₃, rfl, h₃⟩ := List.map_eq_singleton_iff.mp hmarks
    obtain ⟨p₃, rfl⟩ := SExpr.exists_symbol_of_bare h₃
    rfl

theorem addForm_declaration {v : Variable} {form : SExpr} {pr : Problem}
    (h : form.bare = v.declaration.bare) (hnew : pr.state.scope.hasKey v.name = false) :
    pr.addForm form =
      .ok { pr with state := { pr.state with scope := pr.state.scope.insert v } } := by
  obtain ⟨p, p', args, rfl, hargs⟩ := SExpr.exists_application_of_bare h
  obtain ⟨place, hparts⟩ := declarationParts?_of_bare hargs
  refine addForm_of_declaration? ?_ hnew
  simp only [SExpr.declaration?, hparts, Option.bind_some, Domain.ofText?_text, Option.map_some]

theorem addForm_goal {c : Comparison} {t u : Term} {form : SExpr} {pr : Problem}
    (h : form.bare = (c.goalForm t u).bare) (hfirst : pr.hasGoal = false)
    (ht : ∀ v ∈ t.occurrences, pr.state.scope.find? v.name = some v)
    (hu : ∀ v ∈ u.occurrences, pr.state.scope.find? v.name = some v) :
    pr.addForm form = .ok ⟨pr.state.setGoal (.compare c t u), true⟩ := by
  obtain ⟨p, p', args, rfl, hargs⟩ := SExpr.exists_application_of_bare h
  obtain ⟨goal, rfl, hgoal⟩ := List.map_eq_singleton_iff.mp hargs
  rw [addForm_of_goal? rfl, setGoal, hfirst, c.toProposition_of_bare hgoal ht hu]
  rfl

theorem foldlM_declarations {vars : List Variable} {forms : List SExpr} {pr : Problem}
    (h : forms.map SExpr.bare = (vars.map Variable.declaration).map SExpr.bare)
    (hnames : vars.Pairwise fun v w => v.name ≠ w.name)
    (hnew : ∀ v ∈ vars, pr.state.scope.hasKey v.name = false) :
    forms.foldlM addForm pr = .ok { pr with state :=
      { pr.state with scope := vars.foldl (fun s v => s.insert v) pr.state.scope } } := by
  induction vars generalizing forms pr with
  | nil =>
    obtain rfl := List.map_eq_nil_iff.mp h
    rfl
  | cons v vars ih =>
    obtain ⟨form, forms, rfl, hform, hforms⟩ := List.map_eq_cons_iff.mp h
    obtain ⟨hv, hnames⟩ := List.pairwise_cons.mp hnames
    rw [List.foldlM_cons, addForm_declaration hform (hnew v List.mem_cons_self)]
    refine ih hforms hnames fun w hw => ?_
    rw [SortedBy.hasKey, SortedBy.find?_insert, if_neg (hv w hw)]
    exact hnew w (List.mem_cons_of_mem v hw)

theorem find?_declared {vars : List Variable} (hnames : vars.Pairwise fun v w => v.name ≠ w.name)
    {v : Variable} (hv : v ∈ vars) : (SortedBy.ofList vars : Scope).find? v.name = some v :=
  SortedBy.mem_iff_find?.mp ((SortedBy.mem_ofList_of_pairwise hnames).mpr hv)

theorem ofForms_printed {vars : List Variable} {c : Comparison} {t u : Term} {forms : List SExpr}
    (h : forms.map SExpr.bare =
      (vars.map Variable.declaration ++ [c.goalForm t u]).map SExpr.bare)
    (hnames : vars.Pairwise fun v w => v.name ≠ w.name)
    (ht : ∀ v ∈ t.occurrences, v ∈ vars) (hu : ∀ v ∈ u.occurrences, v ∈ vars) :
    ofForms forms = .ok ⟨⟨SortedBy.ofList vars, [], .compare c t u⟩, true⟩ := by
  rw [List.map_append] at h
  obtain ⟨declarations, goals, rfl, hdeclarations, hgoals⟩ := List.map_eq_append_iff.mp h
  obtain ⟨goal, rfl, hgoal⟩ := List.map_eq_singleton_iff.mp hgoals
  rw [ofForms, List.foldlM_append, foldlM_declarations hdeclarations hnames fun _ _ => rfl]
  change (addForm ⟨⟨SortedBy.ofList vars, [], .truth false⟩, false⟩ goal >>= pure) = _
  rw [bind_pure]
  exact addForm_goal hgoal rfl (fun v hv => find?_declared hnames (ht v hv))
    fun v hv => find?_declared hnames (hu v hv)

end Problem

/-- The text of a problem that declares the variables and has a comparison as its goal. -/
def problemText (sep : String) (vars : List Variable) (c : Comparison) (t u : Term) : String :=
  sep.intercalate (vars.map Variable.declarationText ++ [c.goalText t u])

namespace ProofState

theorem ofText_eq (text : String) : ofText text = do
    let forms ← SExpr.ofText text
    let problem ← Problem.ofForms forms
    return problem.state := by
  rw [ofText, SExpr.ofText, bind_assoc]

/-- A text that declares variables and gives a comparison of two terms over them as the goal is read,
and its goal is that comparison. -/
theorem ofText_problemText {vars : List Variable} (hnames : (vars.map (·.name)).Nodup)
    (hsymbols : ∀ v ∈ vars, IsSymbol v.name) (c : Comparison) {t u : Term}
    (ht : ∀ v ∈ t.occurrences, v ∈ vars) (hu : ∀ v ∈ u.occurrences, v ∈ vars) {sep : String}
    (hsep : ∀ c ∈ sep.toList, isBlank c = true) :
    ofText (problemText sep vars c t u) = .ok ⟨SortedBy.ofList vars, [], .compare c t u⟩ := by
  have htext : problemText sep vars c t u =
      sep.intercalate ((vars.map Variable.declaration ++ [c.goalForm t u]).map SExpr.text) := by
    simp [problemText, Function.comp_def, Variable.text_declaration, Comparison.text_goalForm]
  have hscannable : ∀ e ∈ vars.map Variable.declaration ++ [c.goalForm t u],
      ∀ name ∈ e.symbols, IsSymbol name := by
    refine List.forall_mem_append.mpr ⟨List.forall_mem_map.mpr fun v hv => ?_,
      List.forall_mem_singleton.mpr ?_⟩
    · exact Variable.isSymbol_declaration (hsymbols v hv)
    · exact c.isSymbol_goalForm (fun v hv => hsymbols v (ht v hv))
        fun v hv => hsymbols v (hu v hv)
  have hlists : ∀ e ∈ vars.map Variable.declaration ++ [c.goalForm t u],
      ∃ p items, e = .list p items :=
    List.forall_mem_append.mpr ⟨List.forall_mem_map.mpr fun v _ => ⟨_, _, rfl⟩,
      List.forall_mem_singleton.mpr ⟨_, _, rfl⟩⟩
  obtain ⟨forms, hforms, hbare⟩ :=
    SExpr.exists_ofText_separated hsep hscannable fun _ => hlists
  have hproblem := Problem.ofForms_printed hbare (List.pairwise_map.mp hnames) ht hu
  rw [ofText_eq, htext]
  exact bind_eq_ok_iff.mpr ⟨forms, hforms, bind_eq_ok_iff.mpr ⟨_, hproblem, rfl⟩⟩

def dash : Variable := ⟨"-", .real, .unknown⟩

def xDashOne : Variable := ⟨"x-1", .integer, .positive⟩

theorem ofText_dashes :
    ofText "(var - real)\n(var x-1 integer positive)\n(goal (<= (/ (- -) -1/2) (* (+) x-1 -3)))" =
      .ok ⟨SortedBy.ofList [dash, xDashOne], [],
        .compare .le (.div (.neg (.var dash)) (.const (-1 / 2)))
          (.mul [.add [], .var xDashOne, .const (-3)])⟩ := by
  have htext : problemText "\n" [dash, xDashOne] .le
      (.div (.neg (.var dash)) (.const (-1 / 2))) (.mul [.add [], .var xDashOne, .const (-3)]) =
      "(var - real)\n(var x-1 integer positive)\n(goal (<= (/ (- -) -1/2) (* (+) x-1 -3)))" := by
    decide +kernel
  rw [← htext]
  exact ofText_problemText (by decide) (by decide +kernel) .le (by decide) (by decide)
    (List.all_eq_true.mp (by decide))

end ProofState
end LinearArith
