import LinearArith.Proofs.Counterexample
import Mathlib.Logic.ExistsUnique

/-! Calls of the tactic one after another on one trace. A call returns what the verdict says and appends
to the trace, or it returns the failure of the oracle and appends nothing. Whether it reports at length
makes no difference to the questions it asks and to what it returns. -/

namespace LinearArith

/-! ### The questions that are asked -/

namespace Oracle

/-- The oracle with the `k`-th answer replaced by a failure, if it is about the scenario. -/
def failingAt (k : Nat) (s : Scenario) (e : Error) (oracle : Oracle) : Oracle :=
  fun j q => if j = k ∧ q = s then .error e else oracle j q

theorem failingAt_self (k : Nat) (s : Scenario) (e : Error) (oracle : Oracle) :
    oracle.failingAt k s e k s = .error e := if_pos ⟨rfl, rfl⟩

theorem failingAt_of_ne {k j : Nat} (h : j ≠ k) (s q : Scenario) (e : Error) (oracle : Oracle) :
    oracle.failingAt k s e j q = oracle j q := if_neg fun he => h he.1

theorem failingAt_eq_self {k : Nat} {s : Scenario} {e : Error} {oracle : Oracle}
    (h : oracle k s = .error e) : oracle.failingAt k s e = oracle := by
  funext j q
  by_cases he : j = k ∧ q = s
  · obtain ⟨rfl, rfl⟩ := he
    rw [failingAt_self, h]
  · exact if_neg he

/-- The queries are answered alike, the first of them as the `k`-th. -/
def AgreesOn (k : Nat) (queries : List Scenario) (oracle oracle' : Oracle) : Prop :=
  ∀ (j : Nat) (q : Scenario), queries[j]? = some q → oracle' (k + j) q = oracle (k + j) q

/-- What `f` makes of the oracle depends on the answers to these queries, on each of them and on no
others: a failure at one of them is all that comes out. -/
structure Asked {α : Type} (f : Oracle → α) (failure : Error → α) (oracle : Oracle)
    (queries : List Scenario) : Prop where
  enough : ∀ oracle', oracle.AgreesOn 0 queries oracle' → f oracle' = f oracle
  each : ∀ (k : Nat) (q : Scenario) (e : Error), queries[k]? = some q →
    f (oracle.failingAt k q e) = failure e

theorem Asked.unique {α : Type} {f : Oracle → α} {failure : Error → α} {oracle : Oracle}
    {queries queries' : List Scenario} (hinj : Function.Injective failure)
    (h : oracle.Asked f failure queries) (h' : oracle.Asked f failure queries') :
    queries = queries' := by
  have sub : ∀ {qs qs' : List Scenario}, oracle.Asked f failure qs → oracle.Asked f failure qs' →
      ∀ (k : Nat) (q : Scenario), qs[k]? = some q → qs'[k]? = some q := by
    intro qs qs' h h' k q hq
    by_contra hnot
    -- what is not asked can fail in two ways without a difference
    have hsame : ∀ e, failure e = f oracle := by
      intro e
      rw [← h.each k q e hq]
      apply h'.enough
      intro j p hp
      rw [Nat.zero_add]
      apply if_neg
      rintro ⟨rfl, rfl⟩
      exact hnot hp
    have htwo : Error.unexpectedEof = .duplicateGoal := hinj ((hsame _).trans (hsame _).symm)
    cases htwo
  apply List.ext_getElem?
  intro k
  cases hq : queries[k]? with
  | some q => rw [sub h h' k q hq]
  | none =>
    cases hq' : queries'[k]? with
    | none => rfl
    | some q => rw [← hq, sub h' h k q hq']

end Oracle

namespace Search

theorem through_error {oracle : Oracle} {k : Nat} {s : IndexedScenario} {e : Error}
    (h : oracle k s.scenario = .error e) (ss : List IndexedScenario) :
    through oracle k (s :: ss) = ⟨.error e, [s.scenario]⟩ := by simp only [through, h]

theorem through_feasible {oracle : Oracle} {k : Nat} {s : IndexedScenario} {w : Witness}
    (h : oracle k s.scenario = .ok (.feasible w)) (ss : List IndexedScenario) :
    through oracle k (s :: ss) =
      ⟨.ok (.refuted s.index s.scenario w (w.satisfies s.scenario)), [s.scenario]⟩ := by
  simp only [through, h]

theorem through_infeasible {oracle : Oracle} {k : Nat} {s : IndexedScenario} {m : Multipliers}
    (h : oracle k s.scenario = .ok (.infeasible m)) (ss : List IndexedScenario) :
    through oracle k (s :: ss) =
      ⟨(through oracle (k + 1) ss).result.map (·.withCase ⟨s.index, s.scenario, m⟩),
        s.scenario :: (through oracle (k + 1) ss).queries⟩ := by
  simp only [through, h]

theorem through_congr {oracle oracle' : Oracle} {k : Nat} {l : List IndexedScenario}
    (h : oracle.AgreesOn k (through oracle k l).queries oracle') :
    through oracle' k l = through oracle k l := by
  induction l generalizing k with
  | nil => rfl
  | cons s ss ih =>
    rcases ho : oracle k s.scenario with e | (w | m)
    · rw [through_error ho] at h ⊢
      exact through_error ((h 0 s.scenario rfl).trans ho) ss
    · rw [through_feasible ho] at h ⊢
      exact through_feasible ((h 0 s.scenario rfl).trans ho) ss
    · rw [through_infeasible ho] at h ⊢
      have hrest : through oracle' (k + 1) ss = through oracle (k + 1) ss := by
        apply ih
        intro j q hq
        have hj := h (j + 1) q hq
        rwa [Nat.add_comm j, ← Nat.add_assoc] at hj
      have hfirst : oracle' k s.scenario = .ok (.infeasible m) := (h 0 s.scenario rfl).trans ho
      rw [through_infeasible hfirst, hrest]

theorem through_failingAt {oracle : Oracle} {k j : Nat} {l : List IndexedScenario} {q : Scenario}
    (e : Error) (h : (through oracle k l).queries[j]? = some q) :
    (through (oracle.failingAt (k + j) q e) k l).result = .error e := by
  induction l generalizing k j with
  | nil => cases h
  | cons s ss ih =>
    cases j with
    | zero =>
      have hq : q = s.scenario := by
        rcases ho : oracle k s.scenario with err | (w | m)
        · rw [through_error ho] at h
          exact (Option.some.inj h).symm
        · rw [through_feasible ho] at h
          exact (Option.some.inj h).symm
        · rw [through_infeasible ho] at h
          exact (Option.some.inj h).symm
      subst hq
      rw [Nat.add_zero, through_error (oracle.failingAt_self k s.scenario e)]
    | succ j =>
      rcases ho : oracle k s.scenario with err | (w | m)
      · rw [through_error ho] at h
        cases h
      · rw [through_feasible ho] at h
        cases h
      · rw [through_infeasible ho] at h
        have hfirst : oracle.failingAt (k + (j + 1)) q e k s.scenario = .ok (.infeasible m) := by
          rw [Oracle.failingAt_of_ne (by omega), ho]
        have hplace : k + (j + 1) = k + 1 + j := by omega
        rw [through_infeasible hfirst, hplace, ih h]
        rfl

end Search

/-! ### One call -/

section Activate
variable {config : Config} {oracle : Oracle} {s : ProofState} {t : Trace}

theorem activate_of_error {e : Error} (h : s.decide oracle = .error e) :
    activate config oracle s t = (.error e, t) := by rw [activate, h]

theorem activate_of_proved {cases : List ProvedCase} (h : s.decide oracle = .ok (.proved cases)) :
    activate config oracle s t = (.ok [], t ++ (Verdict.proved cases).report config.verbose) := by
  rw [activate, h]

theorem activate_of_refuted {index : Nat} {scenario : Scenario} {w : Witness} {verified : Bool}
    (h : s.decide oracle = .ok (.refuted index scenario w verified)) :
    activate config oracle s t =
      (.ok [s], t ++ (Verdict.refuted index scenario w verified).report config.verbose) := by
  rw [activate, h]

/-- What is returned depends neither on the configuration nor on the trace. -/
theorem fst_activate (config config' : Config) (oracle : Oracle) (s : ProofState) (t t' : Trace) :
    (activate config oracle s t).1 = (activate config' oracle s t').1 := by
  rcases h : s.decide oracle with e | (_ | cases)
  · rw [activate_of_error h, activate_of_error h]
  · rw [activate_of_refuted h, activate_of_refuted h]
  · rw [activate_of_proved h, activate_of_proved h]

theorem asked_activate (config : Config) (oracle : Oracle) (s : ProofState) (t : Trace) :
    oracle.Asked (fun oracle => activate config oracle s t) (fun e => (.error e, t))
      (s.search oracle).queries := by
  have hsearch : ∀ oracle, s.search oracle = Search.through oracle 0 s.enumeration.toList :=
    fun oracle => Search.run_eq_through oracle 0 s.enumeration
  rw [hsearch]
  constructor
  · intro oracle' h
    have hsame : s.decide oracle' = s.decide oracle := by
      rw [ProofState.decide, ProofState.decide, hsearch, hsearch, Search.through_congr h]
    simp only [activate, hsame]
  · intro k q e hq
    apply activate_of_error
    rw [ProofState.decide, hsearch, ← Nat.zero_add k, Search.through_failingAt e hq]

end Activate

namespace Verdict

theorem report_ne_nil (verbose : Bool) (v : Verdict) : v.report verbose ≠ [] := by
  cases v with
  | refuted index scenario w verified => cases verbose <;> simp [report]
  | proved cases =>
    cases verbose with
    | false => simp [report]
    | true =>
      cases cases with
      | nil => simp [report]
      | cons c cases => simp [report, ProvedCase.events]

theorem report_of_counterexample {verbose : Bool} {index : Nat} {scenario : Scenario} {w : Witness}
    {verified : Bool} (h : .counterexample ∈ (refuted index scenario w verified).report verbose) :
    verified = true ∧ (refuted index scenario w verified).report verbose =
      [.checking index scenario.toList, .feasibleWith w, .counterexample] := by
  cases verbose with
  | false => simp [report] at h
  | true =>
    cases verified with
    | false => simp [report] at h
    | true => exact ⟨rfl, rfl⟩

end Verdict

structure Activation where
  config : Config
  oracle : Oracle
  state : ProofState

namespace Activation

def run (a : Activation) (t : Trace) : Except Error (List ProofState) × Trace :=
  activate a.config a.oracle a.state t

def queries (a : Activation) : List Scenario := (a.state.search a.oracle).queries

/-- The oracle fails at no query. -/
def Answered (a : Activation) : Prop :=
  ∀ (k : Nat) (q : Scenario), a.queries[k]? = some q → ∃ c, a.oracle k q = .ok c

/-- What a call returns and appends to the trace. -/
inductive Outcome (a : Activation) : Except Error (List ProofState) → Trace → Prop
  | failed {before : List Scenario} {q : Scenario} {e : Error}
      (hqueries : a.queries = before ++ [q]) (hfails : a.oracle before.length q = .error e) :
      Outcome a (.error e) []
  | closed {cases : List ProvedCase} {events : Trace} (hanswered : a.Answered)
      (hverdict : a.state.decide a.oracle = .ok (.proved cases)) (hevents : events ≠ [])
      (hquiet : a.config.verbose = false → events = [.solved])
      (hcounterexample : .counterexample ∉ events) : Outcome a (.ok []) events
  | unchanged {index : Nat} {scenario : Scenario} {w : Witness} {verified : Bool} {events : Trace}
      (hanswered : a.Answered)
      (hverdict : a.state.decide a.oracle = .ok (.refuted index scenario w verified))
      (hevents : events ≠ []) (hquiet : a.config.verbose = false → events = [.unproved])
      (hcounterexample : .counterexample ∈ events →
        events = [.checking index scenario.toList, .feasibleWith w, .counterexample] ∧
          ∀ c ∈ scenario.toList, w.meets c = true) : Outcome a (.ok [a.state]) events

theorem answered_of_decide {a : Activation} {v : Verdict} (h : a.state.decide a.oracle = .ok v) :
    a.Answered := by
  intro k q hq
  cases ho : a.oracle k q with
  | ok c => exact ⟨c, rfl⟩
  | error e =>
    have hfail := (asked_activate {} a.oracle a.state []).each k q e hq
    rw [Oracle.failingAt_eq_self ho, activate, h] at hfail
    cases hfail

/-- A search that ends with a failure has met it at its last query; else it checks its witness. -/
theorem decide_cases (a : Activation) :
    (∃ before q e, a.queries = before ++ [q] ∧ a.oracle before.length q = .error e ∧
        a.state.decide a.oracle = .error e) ∨
      (∃ cases, a.state.decide a.oracle = .ok (.proved cases)) ∨
      ∃ index scenario w,
        a.state.decide a.oracle = .ok (.refuted index scenario w (w.satisfies scenario)) := by
  have hsearch : a.state.search a.oracle =
      Search.through a.oracle 0 a.state.enumeration.toList := Search.run_eq_through ..
  rw [queries, ProofState.decide, hsearch]
  rcases Search.through_cases a.oracle 0 a.state.enumeration.toList with
    ⟨cases, -, -, hr⟩ | ⟨before, x, after, -, -, -, hq, ⟨e, he, hr⟩ | ⟨w, -, hr⟩⟩
  · exact Or.inr (Or.inl ⟨cases, hr⟩)
  · refine Or.inl ⟨before.map (·.scenario), x.scenario, e, ?_, ?_, hr⟩
    · rw [hq, List.map_append, List.map_singleton]
    · rwa [List.length_map, ← Nat.zero_add before.length]
  · exact Or.inr (Or.inr ⟨x.index, x.scenario, w, hr⟩)

theorem exists_outcome (a : Activation) (t : Trace) :
    ∃ r events, a.run t = (r, t ++ events) ∧ a.Outcome r events := by
  rcases a.decide_cases with ⟨before, q, e, hq, he, hd⟩ | ⟨cases, hd⟩ | ⟨index, scenario, w, hd⟩
  · refine ⟨.error e, [], ?_, .failed hq he⟩
    rw [run, activate_of_error hd, List.append_nil]
  · refine ⟨.ok [], _, activate_of_proved hd, .closed (answered_of_decide hd) hd ?_ ?_ ?_⟩
    · exact Verdict.report_ne_nil a.config.verbose _
    · exact fun hquiet => by rw [hquiet]; rfl
    · exact Verdict.counterexample_not_mem_report a.config.verbose cases
  · refine ⟨.ok [a.state], _, activate_of_refuted hd, .unchanged (answered_of_decide hd) hd ?_ ?_ ?_⟩
    · exact Verdict.report_ne_nil a.config.verbose _
    · exact fun hquiet => by rw [hquiet]; rfl
    · intro hc
      obtain ⟨hverified, hevents⟩ := Verdict.report_of_counterexample hc
      exact ⟨hevents, List.all_eq_true.mp hverified⟩

def runAll : List Activation → Trace → List (Except Error (List ProofState)) × Trace
  | [], t => ([], t)
  | a :: as, t =>
    let one := a.run t
    let others := runAll as one.2
    (one.1 :: others.1, others.2)

theorem exists_outcomes (as : List Activation) (t : Trace) :
    ∃ outcomes : List (Except Error (List ProofState) × Trace),
      runAll as t = (outcomes.map (·.1), t ++ outcomes.flatMap (·.2)) ∧
        List.Forall₂ (fun a o => a.Outcome o.1 o.2) as outcomes := by
  induction as generalizing t with
  | nil => exact ⟨[], by rw [runAll]; simp, .nil⟩
  | cons a as ih =>
    obtain ⟨r, events, hrun, hone⟩ := a.exists_outcome t
    obtain ⟨outcomes, hruns, hall⟩ := ih (t ++ events)
    refine ⟨(r, events) :: outcomes, ?_, .cons hone hall⟩
    rw [runAll, hrun, hruns, List.map_cons, List.flatMap_cons, List.append_assoc]

/-- Calls that share a trace append to it what they have to report, one after the other. A call whose
oracle fails returns the failure and appends nothing. Every other call appends something: it returns no
state if the goal is proved and its own state otherwise, in a quiet configuration it reports in one
event, and it speaks of a counterexample only after a witness that meets the constraints shown before.
A quiet and a verbose call on the same state with the same oracle return the same and ask the same. -/
theorem runAll_appends :
    (∀ (as : List Activation) (t : Trace),
      ∃ outcomes : List (Except Error (List ProofState) × Trace),
        runAll as t = (outcomes.map (·.1), t ++ outcomes.flatMap (·.2)) ∧
          List.Forall₂ (fun a o => a.Outcome o.1 o.2) as outcomes) ∧
      ∀ (oracle : Oracle) (s : ProofState) (t t' : Trace),
        (run ⟨⟨true⟩, oracle, s⟩ t).1 = (run ⟨⟨false⟩, oracle, s⟩ t').1 ∧
          ∃! queries, ∀ verbose, oracle.Asked (fun oracle => run ⟨⟨verbose⟩, oracle, s⟩ t)
            (fun e => (.error e, t)) queries := by
  refine ⟨exists_outcomes, fun oracle s t t' => ⟨fst_activate _ _ oracle s t t', ?_⟩⟩
  refine ⟨(s.search oracle).queries, fun verbose => asked_activate ⟨verbose⟩ oracle s t, ?_⟩
  intro queries hqueries
  have hinj : Function.Injective
      fun e : Error => ((.error e, t) : Except Error (List ProofState) × Trace) :=
    fun e e' he => Except.error.inj (congrArg Prod.fst he)
  exact (hqueries true).unique hinj (asked_activate ⟨true⟩ oracle s t)

-- a failure, then a witness that gives no value to the unknown
example :
    runAll [⟨⟨true⟩, fun _ _ => .error (.oracleFailure "no answer"), .ofGoal (.truth false)⟩,
        ⟨⟨true⟩, fun _ _ => .ok (.feasible .empty),
          .ofGoal (.compare .lt (.var ⟨"x", .real, .unknown⟩) (.const 0))⟩] [.solved] =
      ([.error (.oracleFailure "no answer"),
          .ok [.ofGoal (.compare .lt (.var ⟨"x", .real, .unknown⟩) (.const 0))]],
        [.solved, .checking 0 [.single "x" 1 .ge 0], .unproved]) := by decide +kernel

end Activation
end LinearArith
