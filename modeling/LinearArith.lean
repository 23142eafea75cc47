import LinearArith.Certificate
import LinearArith.CommandLine
import LinearArith.Config
import LinearArith.Constraint
import LinearArith.Decision
import LinearArith.Elimination
import LinearArith.Enumeration
import LinearArith.Error
import LinearArith.LinComb
import LinearArith.LinComb.Laws
import LinearArith.Linear
import LinearArith.LinearForm
import LinearArith.LinearForm.Laws
import LinearArith.Numeral
import LinearArith.Odometer
import LinearArith.Options
import LinearArith.Problem
import LinearArith.ProofState
import LinearArith.Proposition
import LinearArith.Rational
import LinearArith.Registry
import LinearArith.SExpr
import LinearArith.Scanner
import LinearArith.Scenario
import LinearArith.SortedBy
import LinearArith.SortedBy.Lookup
import LinearArith.Tactic
import LinearArith.Term
import LinearArith.Text.Alphabetic
import LinearArith.Text.Lowercase
import LinearArith.Token
import LinearArith.Trace
import LinearArith.Variable
import LinearArith.Main
import LinearArith.Proofs.Interpretation
import LinearArith.Proofs.Linearization
import LinearArith.Proofs.OptionTruth
import LinearArith.Proofs.Rows
import LinearArith.Proofs.Interval
import LinearArith.Proofs.Projection
import LinearArith.Proofs.Provenance
import LinearArith.Proofs.BackSubstitution
import LinearArith.Proofs.CaseSplit
import LinearArith.Proofs.Search
import LinearArith.Proofs.Soundness
import LinearArith.Proofs.Product
import LinearArith.Proofs.LazyEnumeration
import LinearArith.Proofs.CombinationTruth
import LinearArith.Proofs.ShortCircuit
import LinearArith.Proofs.Counterexample
import LinearArith.Proofs.Derivation
import LinearArith.Proofs.Weakening
import LinearArith.SortedBy.Image
import LinearArith.LinComb.Relabel
import LinearArith.Proofs.Renaming
import LinearArith.Proofs.NameIndependence
import LinearArith.Proofs.Complement
import LinearArith.Proofs.LinearTerms
import LinearArith.Proofs.CanonicalForms
import LinearArith.Proofs.DirectReading
import LinearArith.Proofs.ProblemReading
import LinearArith.Proofs.Activations
import LinearArith.Proofs.PrintedTrees
import LinearArith.Proofs.VectorComparisons
import LinearArith.Proofs.PrintedTerms
import LinearArith.Proofs.Numerals
import LinearArith.Proofs.Pieces
import LinearArith.Proofs.ResumedScans
import LinearArith.Proofs.TokenLayout
import LinearArith.Proofs.BalancedTokens
import LinearArith.Proofs.Sessions
import LinearArith.Proofs.RegistryLookup
import LinearArith.Proofs.CanonicalScenarios
import LinearArith.Proofs.UsedNames
import LinearArith.Proofs.Scoping
import LinearArith.Proofs.EliminationStates
import LinearArith.Proofs.ExactProjection
import LinearArith.Proofs.CheckedElimination
import LinearArith.Proofs.RowOrigins
