import StructuralTypes.CommandLine.Arguments
import StructuralTypes.CommandLine.Run
import StructuralTypes.Decimal.Layout
import StructuralTypes.Decimal.Nearest
import StructuralTypes.Decimal.Power
import StructuralTypes.Decimal.Shortest
import StructuralTypes.File.Basic
import StructuralTypes.File.Folder
import StructuralTypes.File.Path
import StructuralTypes.Json.Basic
import StructuralTypes.Json.Display
import StructuralTypes.Json.Parser
import StructuralTypes.Json.Printer
import StructuralTypes.Main
import StructuralTypes.Report.Basic
import StructuralTypes.Report.Callout
import StructuralTypes.Report.Coordinate
import StructuralTypes.Scope
import StructuralTypes.Span
import StructuralTypes.Term.Basic
import StructuralTypes.Term.Subterm
import StructuralTypes.Term.Summary
import StructuralTypes.Text.Blank
import StructuralTypes.Text.Digit
import StructuralTypes.Text.Lines
import StructuralTypes.Text.Printable
import StructuralTypes.Text.Quoted
import StructuralTypes.Tree.Access
import StructuralTypes.Tree.Load
import StructuralTypes.Tree.Malformed
import StructuralTypes.Tree.ReadTerm
import StructuralTypes.Tree.ReadType
import StructuralTypes.Tree.Write
import StructuralTypes.Ty.Assumption
import StructuralTypes.Ty.Basic
import StructuralTypes.Ty.Comparison
import StructuralTypes.Ty.Defect
import StructuralTypes.Ty.Equality
import StructuralTypes.Ty.Head
import StructuralTypes.Ty.Render
import StructuralTypes.Ty.Shape
import StructuralTypes.Ty.Subtyping
import StructuralTypes.Ty.Unfolding
import StructuralTypes.Ty.WellFormed
import StructuralTypes.Typing.Check
import StructuralTypes.Typing.Fault
import StructuralTypes.Proofs.Reachable
import StructuralTypes.Proofs.Meaning
import StructuralTypes.Proofs.Comparison
import StructuralTypes.Proofs.Engines
import StructuralTypes.Proofs.Congruence
import StructuralTypes.Proofs.Termination
import StructuralTypes.Proofs.Variants
import StructuralTypes.Proofs.Coherence
import StructuralTypes.Proofs.Completeness
import StructuralTypes.Proofs.Soundness
import StructuralTypes.Proofs.Agreement
import StructuralTypes.Proofs.Head
import StructuralTypes.Proofs.TwoRuns
import StructuralTypes.Proofs.Indistinct
import StructuralTypes.Proofs.Reading
import StructuralTypes.Proofs.Safety
import StructuralTypes.Proofs.CallRules
import StructuralTypes.Proofs.Invariance
import StructuralTypes.Proofs.Order
import StructuralTypes.Proofs.HeadSearch
import StructuralTypes.Proofs.Format
import StructuralTypes.Proofs.Reader
import StructuralTypes.Proofs.Refusal
import StructuralTypes.Proofs.Showable
import StructuralTypes.Proofs.Verdict
import StructuralTypes.Proofs.Renaming
import StructuralTypes.Proofs.Blame
import StructuralTypes.Proofs.Scoping
import StructuralTypes.Proofs.Tags
import StructuralTypes.Proofs.Finiteness
import StructuralTypes.Proofs.Substitution
import StructuralTypes.Proofs.Assumptions
import StructuralTypes.Proofs.Rendering
