import CallGraph.Main
import CallGraph.Proofs.Assembly
import CallGraph.Proofs.Distance
import CallGraph.Proofs.Flow
import CallGraph.Proofs.Growth
import CallGraph.Proofs.JsonText
import CallGraph.Proofs.Reach
import CallGraph.Proofs.Search
import CallGraph.Proofs.Selection
import CallGraph.Proofs.Strip
import CallGraph.Proofs.Walk
import CallGraph.Proofs.DocumentText
import CallGraph.Proofs.Records
import CallGraph.Proofs.Arrangement
import CallGraph.Proofs.Listing
import CallGraph.Proofs.Drawing
import CallGraph.Proofs.Rendering
import CallGraph.Proofs.Stripped
import CallGraph.Proofs.Alike
import CallGraph.Proofs.Answer
import CallGraph.Proofs.Reordering
import CallGraph.Proofs.Import
import CallGraph.Proofs.Reimport
import CallGraph.Proofs.Admission
import CallGraph.Proofs.Built
import CallGraph.Proofs.Outcome
import CallGraph.Proofs.RoundTrip
import CallGraph.Proofs.Everywhere
import CallGraph.Proofs.Reversal
import CallGraph.Proofs.Tightening
import CallGraph.Proofs.Merging
import CallGraph.Proofs.Declared
import CallGraph.Proofs.Precision
import CallGraph.Proofs.Overriding
import CallGraph.Proofs.Stored
import CallGraph.Proofs.Operations
import CallGraph.Proofs.Framing
import CallGraph.Proofs.Depths
import CallGraph.Proofs.PathNames
import CallGraph.Proofs.Stages
import CallGraph.Proofs.Canonical
import CallGraph.Proofs.Normal
import CallGraph.Proofs.KeptRoots
import CallGraph.Proofs.Labels
import CallGraph.Proofs.Naming
import CallGraph.Proofs.Readback
import CallGraph.Proofs.Validation
import CallGraph.Proofs.Indistinct
import CallGraph.Proofs.Repetition
import CallGraph.Proofs.Totality
import CallGraph.Proofs.LocalPaths
import CallGraph.Proofs.Linking
import CallGraph.Proofs.Recording
import CallGraph.Proofs.Nesting
import CallGraph.Proofs.Identity
import CallGraph.Proofs.Conditions
import CallGraph.Proofs.Gating
import CallGraph.Proofs.Bindings
import CallGraph.Proofs.Anchors
import CallGraph.Proofs.Crates
import CallGraph.Proofs.Safety
