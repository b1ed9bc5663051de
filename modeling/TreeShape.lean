import TreeShape.Ancestry
import TreeShape.Children
import TreeShape.Code.Package
import TreeShape.Command
import TreeShape.Command.Options
import TreeShape.Files.Disk
import TreeShape.Json.Reader
import TreeShape.Json.Token
import TreeShape.Main
import TreeShape.Node
import TreeShape.Schema.Document
import TreeShape.Schema.Source
import TreeShape.Schema.Warning
import TreeShape.Shapes.Basic
import TreeShape.Shapes.Construct
import TreeShape.Shapes.Parse
import TreeShape.Shapes.Serialize
import TreeShape.Text.Alphanumeric
import TreeShape.Text.Split
import TreeShape.Text.Terminal
import TreeShape.Text.Words
import TreeShape.Proofs.Acyclic
import TreeShape.Proofs.Ancestors
import TreeShape.Proofs.Check
import TreeShape.Proofs.Compiled
import TreeShape.Proofs.Dispatch
import TreeShape.Proofs.Intake
import TreeShape.Proofs.Layout
import TreeShape.Proofs.Reading
import TreeShape.Proofs.Writing
import TreeShape.Proofs.Capability
import TreeShape.Proofs.RoundTrip
import TreeShape.Proofs.Determinism
import TreeShape.Proofs.Overlaps
import TreeShape.Proofs.Language
import TreeShape.Proofs.Recovery
import TreeShape.Proofs.Circles
import TreeShape.Proofs.WellFormed
import TreeShape.Proofs.Similar
import TreeShape.Proofs.Extension
import TreeShape.Proofs.Compiling
import TreeShape.Proofs.Rendering
import TreeShape.Proofs.Tables
import TreeShape.Proofs.Termination
import TreeShape.Proofs.Concrete
import TreeShape.Proofs.Clashes
import TreeShape.Proofs.Naming
import TreeShape.Proofs.Mentions
import TreeShape.Proofs.Calls
import TreeShape.Proofs.Emission
import TreeShape.Proofs.Hierarchy
import TreeShape.Proofs.Failures
import TreeShape.Proofs.Typing
import TreeShape.Proofs.Warnings
import TreeShape.Proofs.Confinement
import TreeShape.Proofs.Segmentation
import TreeShape.Proofs.Distances
import TreeShape.Proofs.Captures
import TreeShape.Proofs.Diagnostics
import TreeShape.Proofs.Display
import TreeShape.Proofs.TypeNames
import TreeShape.Proofs.Scope
import TreeShape.Proofs.Documents
import TreeShape.Proofs.FieldNames
import TreeShape.Proofs.Taking
import TreeShape.Proofs.Locality
import TreeShape.Proofs.Passages
