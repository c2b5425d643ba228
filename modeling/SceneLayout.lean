import SceneLayout.Entries
import SceneLayout.Scalar
import SceneLayout.Number.Binary64
import SceneLayout.Number.Decimal
import SceneLayout.Number.Shortest
import SceneLayout.Number.Written
import SceneLayout.Number.Double
import SceneLayout.Text.CodeRange
import SceneLayout.Text.Printable
import SceneLayout.Text.Casing
import SceneLayout.Text.LowerCase
import SceneLayout.Text.Quoted
import SceneLayout.Text.DecimalDigit
import SceneLayout.Text.Blank
import SceneLayout.Text.ControlSequence
import SceneLayout.Json.Basic
import SceneLayout.Json.Token
import SceneLayout.Json.Reader
import SceneLayout.Json.Display
import SceneLayout.Geometry.Axis
import SceneLayout.Geometry.Box
import SceneLayout.Tree.Basic
import SceneLayout.Tree.Path
import SceneLayout.Tree.Raw
import SceneLayout.Tree.Check
import SceneLayout.Tree.Property
import SceneLayout.Tree.Declared
import SceneLayout.Tree.Loose
import SceneLayout.Scene.Operator
import SceneLayout.Scene.Basic
import SceneLayout.Scene.Name
import SceneLayout.Scene.Compile
import SceneLayout.Relaxation
import SceneLayout.Layout
import SceneLayout.Digraph
import SceneLayout.Dependency
import SceneLayout.Geometry.Plane
import SceneLayout.Drawing.Arrow
import SceneLayout.Drawing.Extent
import SceneLayout.Drawing.Document
import SceneLayout.Markup.Basic
import SceneLayout.Markup.Svg
import SceneLayout.Log
import SceneLayout.Rendering
import SceneLayout.Sketch
import SceneLayout.Number.Numeral
import SceneLayout.CommandLine.Arguments
import SceneLayout.CommandLine.Files
import SceneLayout.CommandLine.Run
import SceneLayout.Main
import SceneLayout.Proofs.Evaluation
import SceneLayout.Proofs.Pass
import SceneLayout.Proofs.OrderedField
import SceneLayout.Proofs.Exact
import SceneLayout.Proofs.Sensitivity
import SceneLayout.Proofs.Certificate
import SceneLayout.Proofs.Reachability
import SceneLayout.Proofs.OperatorGraph
import SceneLayout.Proofs.Placement
import SceneLayout.Proofs.Settling
import SceneLayout.Proofs.Compilation
import SceneLayout.Proofs.Competition
import SceneLayout.Proofs.Boxes
import SceneLayout.Proofs.Declared
import SceneLayout.Proofs.Acceptance
import SceneLayout.Proofs.Ranks
import SceneLayout.Proofs.Extents
import SceneLayout.Proofs.Ownership
import SceneLayout.Proofs.Containment
import SceneLayout.Proofs.Descriptors
import SceneLayout.Proofs.Doubles
import SceneLayout.Proofs.Guarded
import SceneLayout.Proofs.GuardedDrawing
import SceneLayout.Proofs.Afresh
import SceneLayout.Proofs.Influence
import SceneLayout.Proofs.Independence
import SceneLayout.Proofs.Spanning
import SceneLayout.Proofs.Page
import SceneLayout.Proofs.Translation
import SceneLayout.Proofs.MarkupReader
import SceneLayout.Proofs.DocumentReading
import SceneLayout.Proofs.CanonicalRounding
import SceneLayout.Proofs.NodeSchema
import SceneLayout.Proofs.PropertyReading
import SceneLayout.Proofs.ShownValues
import SceneLayout.Proofs.ShownTexts
import SceneLayout.Proofs.Failures
import SceneLayout.Proofs.FaithfulTrees
import SceneLayout.Proofs.ExplicitNames
import SceneLayout.Proofs.Renaming
import SceneLayout.Proofs.Relocation
import SceneLayout.Proofs.InsertedLeaves
import SceneLayout.Proofs.Insertion
import SceneLayout.Proofs.CompletePasses
import SceneLayout.Proofs.Transposition
import SceneLayout.Proofs.DrawnNodes
import SceneLayout.Proofs.Resumption
import SceneLayout.Proofs.EvenSpread
import SceneLayout.Proofs.PaintedStrokes
import SceneLayout.Proofs.ProcessingOrder
import SceneLayout.Proofs.CycleDiagnostics
import SceneLayout.Proofs.DampedApproach
import SceneLayout.Proofs.ChainedAlignments
import SceneLayout.Proofs.AxisReading
import SceneLayout.Proofs.SketchedProperties
import SceneLayout.Proofs.AxisPrecedence
import SceneLayout.Proofs.FirstRefusal
import SceneLayout.Proofs.SketchedNames
import SceneLayout.Proofs.ArrowHeads
import SceneLayout.Proofs.ArrowClearance
import SceneLayout.Proofs.OperatorFootprints
import SceneLayout.Proofs.GeneratedNames
import SceneLayout.Proofs.NearestDoubles
import SceneLayout.Proofs.RoundedPlaces
import SceneLayout.Proofs.DecimalRounding
import SceneLayout.Proofs.DecimalTexts
import SceneLayout.Proofs.MachineDoubles
import SceneLayout.Proofs.DrawnNumbers
