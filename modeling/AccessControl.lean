import AccessControl.CommandLine.Directory
import AccessControl.Filter.Query
import AccessControl.Main
import AccessControl.Proofs.Fallible
import AccessControl.Proofs.Residue
import AccessControl.Proofs.Condition
import AccessControl.Proofs.TwoStage
import AccessControl.Proofs.Disjunction
import AccessControl.Proofs.Keyed
import AccessControl.Proofs.Record
import AccessControl.Proofs.Lift
import AccessControl.Proofs.LiftedData
import AccessControl.Proofs.LinkedRecords
import AccessControl.Proofs.Path
import AccessControl.Proofs.RecordPath
import AccessControl.Proofs.Marks
import AccessControl.Proofs.Redaction
import AccessControl.Proofs.Projection
import AccessControl.Proofs.Cascade
import AccessControl.Proofs.LinkVerdict
import AccessControl.Proofs.Mismatch
import AccessControl.Proofs.Visited
import AccessControl.Proofs.RuleShape
import AccessControl.Proofs.Comparison
import AccessControl.Proofs.Concealment
import AccessControl.Proofs.Fallback
import AccessControl.Proofs.RequestFaults
import AccessControl.Proofs.Frame
import AccessControl.Proofs.References
import AccessControl.Proofs.LiteralRules
import AccessControl.Proofs.Rulebook
import AccessControl.Proofs.Policy
import AccessControl.Proofs.NegatedNames
import AccessControl.Proofs.Groups
import AccessControl.Proofs.KnownPart
import AccessControl.Proofs.Overwriting
import AccessControl.Proofs.Reordering
import AccessControl.Proofs.Emission
import AccessControl.Proofs.Conjunction
import AccessControl.Proofs.FilterJson
import AccessControl.Proofs.Spelling
import AccessControl.Proofs.QueryText
import AccessControl.Proofs.QueryMeaning
import AccessControl.Proofs.Update
import AccessControl.Proofs.Idempotence
import AccessControl.Proofs.Removal
import AccessControl.Proofs.Rendering
import AccessControl.Proofs.Sameness
