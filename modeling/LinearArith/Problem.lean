import LinearArith.ProofState
import LinearArith.SExpr
import LinearArith.Scanner

/-! The problem language: `(var …)`, `(hyp …)` and `(goal …)` forms read one after another into a
proof state. A variable is declared before it is used; the goal is `false` unless one is given. -/

namespace LinearArith

inductive FormFault where
  | declaration
  | unknownDomain (name : String)
  | hypothesisName
  | arity (head : String) (form : SExpr)
  | unknownForm (form : SExpr)
  | proposition (e : SExpr)
  | comparisonArity (head : String)
  | negationArity
  | term (e : SExpr)
  | operatorArity (head : String)
  | operator (head : String)

namespace FormFault

def message : FormFault → String
  | declaration => "Expected `(var NAME real|integer|vector [positive|nonnegative])`"
  | unknownDomain name => "Unknown sort `" ++ name ++ "`"
  | hypothesisName => "Hypothesis name must be a symbol"
  | arity head form => "Malformed `" ++ head ++ "` form: " ++ form.text
  | unknownForm form => "Expected `(var ...)`, `(hyp ...)` or `(goal ...)`, found " ++ form.text
  | proposition e => "Expected a proposition, found " ++ e.text
  | comparisonArity head => "`" ++ head ++ "` takes exactly two arguments"
  | negationArity => "`not` takes exactly one argument"
  | term e => "Expected a term, found " ++ e.text
  | operatorArity head => "Wrong number of arguments to `" ++ head ++ "`"
  | operator head => "Unknown operator `" ++ head ++ "`"

def toError (f : FormFault) (e : SExpr) : Error := .syntaxError e.position f.message

end FormFault

/-- The term of an operator and its arguments; `whole` is the expression they come from. -/
def applyOperator (whole : SExpr) (head : String) (args : List Term) : Except Error Term :=
  match head, args with
  | "+", ts => .ok (.add ts)
  | "*", ts => .ok (.mul ts)
  | "-", [t] => .ok (.neg t)
  | "-", t :: ts => .ok (.add (t :: ts.map .neg))
  | "/", [t, u] => .ok (.div t u)
  | "-", [] => .error (FormFault.toError (.operatorArity head) whole)
  | "/", _ => .error (FormFault.toError (.operatorArity head) whole)
  | _, _ => .error (FormFault.toError (.operator head) whole)

mutual

/-- Reads a term. The faults of the arguments come before those of the operator. -/
def SExpr.toTerm (scope : Scope) : SExpr → Except Error Term
  | .number _ q => .ok (.const q)
  | .symbol _ name =>
    match scope.find? name with
    | some v => .ok (.var v)
    | none => .error (.unknownVariable name)
  | .list p (.symbol p' head :: args) => do
    let ts ← SExpr.toTerms scope args
    applyOperator (.list p (.symbol p' head :: args)) head ts
  | .list p items => .error (FormFault.toError (.term (.list p items)) (.list p items))

def SExpr.toTerms (scope : Scope) : List SExpr → Except Error (List Term)
  | [] => .ok []
  | e :: es => do
    let t ← e.toTerm scope
    let ts ← SExpr.toTerms scope es
    return t :: ts

end

/-- Reads a proposition. What is neither a truth value, a comparison nor a negation is kept as
text. -/
def SExpr.toProposition (scope : Scope) : SExpr → Except Error Proposition
  | .symbol _ "true" => .ok (.truth true)
  | .symbol _ "false" => .ok (.truth false)
  | .symbol _ name => .ok (.unread name)
  | .list _ [.symbol _ "not", e] => do
    let q ← e.toProposition scope
    return q.negate
  | .list p (.symbol p' head :: args) =>
    let whole := SExpr.list p (.symbol p' head :: args)
    match Comparison.ofText? head, args with
    | some c, [l, r] => do
      let t ← l.toTerm scope
      let u ← r.toTerm scope
      return .compare c t u
    | some _, _ => .error (FormFault.toError (.comparisonArity head) whole)
    | none, _ =>
      if head = "not" then .error (FormFault.toError .negationArity whole)
      else .ok (.unread whole.text)
  | e => .error (FormFault.toError (.proposition e) e)

def Domain.ofText? : String → Option Domain
  | "real" => some .real
  | "integer" => some .integer
  | "vector" => some .vector
  | _ => none

/-- A proof state in the making. -/
structure Problem where
  state : ProofState
  hasGoal : Bool

namespace Problem

def start : Problem := ⟨.ofGoal (.truth false), false⟩

/-- The name, domain and sign in the arguments of a declaration; the domain is not yet looked at. -/
def declarationParts? (args : List SExpr) : Option (String × SExpr × String × Sign) :=
  match args with
  | [.symbol _ name, .symbol p domain] => some (name, .symbol p domain, domain, .unknown)
  | [.symbol _ name, .symbol p domain, .symbol _ "positive"] =>
    some (name, .symbol p domain, domain, .positive)
  | [.symbol _ name, .symbol p domain, .symbol _ "nonnegative"] =>
    some (name, .symbol p domain, domain, .nonnegative)
  | _ => none

def declare (form : SExpr) (args : List SExpr) (pr : Problem) : Except Error Problem :=
  match declarationParts? args with
  | none => .error (FormFault.toError .declaration form)
  | some (name, place, domain, sign) =>
    match Domain.ofText? domain with
    | none => .error (FormFault.toError (.unknownDomain domain) place)
    | some domain => do
      let state ← pr.state.declare ⟨name, domain, sign⟩
      return { pr with state }

def assume (name : String) (claim : SExpr) (pr : Problem) : Except Error Problem := do
  let q ← claim.toProposition pr.state.scope
  return { pr with state := pr.state.assume name q }

def setGoal (goal : SExpr) (pr : Problem) : Except Error Problem := do
  if pr.hasGoal then throw .duplicateGoal
  let q ← goal.toProposition pr.state.scope
  return ⟨pr.state.setGoal q, true⟩

def addForm (pr : Problem) (form : SExpr) : Except Error Problem :=
  match form.application? with
  | some ("var", args) => pr.declare form args
  | some ("hyp", [claim]) => pr.assume "" claim
  | some ("hyp", [.symbol _ name, claim]) => pr.assume name claim
  | some ("hyp", [name, _]) => .error (FormFault.toError .hypothesisName name)
  | some ("goal", [goal]) => pr.setGoal goal
  | some ("hyp", _) => .error (FormFault.toError (.arity "hyp" form) form)
  | some ("goal", _) => .error (FormFault.toError (.arity "goal" form) form)
  | _ => .error (FormFault.toError (.unknownForm form) form)

def ofForms (forms : List SExpr) : Except Error Problem := forms.foldlM addForm start

end Problem

/-- Reads a problem text; scanning faults come before those of the trees, and those before faults of
the forms. -/
def ProofState.ofText (text : String) : Except Error ProofState := do
  let tokens ← (Scanner.ofText text).scan.1
  let forms ← (SExpr.readAll tokens).1
  let problem ← Problem.ofForms forms
  return problem.state

end LinearArith
