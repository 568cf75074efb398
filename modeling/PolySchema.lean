import PolySchema.Synthetic
import PolySchema.Document.Printer
import PolySchema.Json.Diagnostic
import PolySchema.Json.Document
import PolySchema.SourceFile
import PolySchema.Text.Offset
import PolySchema.Workspace
import PolySchema.Proofs.Document.Composition
import PolySchema.Proofs.Document.RoundTrip
import PolySchema.Proofs.Resolution
import PolySchema.Proofs.Lineage.Stop
import PolySchema.Proofs.Text.Depth
import PolySchema.Proofs.TypeExpr.NormalForm
import PolySchema.Proofs.Document.Location
import PolySchema.Proofs.Document.Trailing
import PolySchema.Proofs.Document.Reordering
import PolySchema.Proofs.Document.Names
import PolySchema.Proofs.Document.Leaves
import PolySchema.Proofs.Document.Accounting
import PolySchema.Proofs.Document.Attribution
import PolySchema.Proofs.Output.Extension
import PolySchema.Proofs.Output.Losses
import PolySchema.Proofs.Output.Blocks
import PolySchema.Proofs.Document.Layout
import PolySchema.Proofs.Json.RoundTrip
import PolySchema.Proofs.Synthetic
import PolySchema.Proofs.Document.Slices
import PolySchema.Proofs.Document.Items
import PolySchema.Proofs.Target.Nesting
import PolySchema.Proofs.Target.Optional
import PolySchema.Proofs.Text.Reclosing
import PolySchema.Proofs.TypeExpr.Brackets
import PolySchema.Proofs.Text.Splitting
import PolySchema.Proofs.Text.Matching
import PolySchema.Proofs.Target.Escaping
import PolySchema.Proofs.Document.Classification
