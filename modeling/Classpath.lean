import Classpath.Main
import Classpath.Shipment
import Classpath.Proofs.Resolution
import Classpath.Proofs.Snapshot.RoundTrip
import Classpath.Proofs.Ambiguity
import Classpath.Proofs.Packaging
import Classpath.Proofs.Graph.Catalog
import Classpath.Proofs.Snapshot.Refusal
import Classpath.Proofs.Packing.Contents
import Classpath.Proofs.Settings.Refusal
import Classpath.Proofs.Stability
import Classpath.Proofs.Command.Resolve
import Classpath.Proofs.Reproduction
import Classpath.Proofs.Packing.Targets
import Classpath.Proofs.FileTree.Removal
import Classpath.Proofs.Packing.AllOrNothing
import Classpath.Proofs.LocalSpelling
import Classpath.Proofs.PathSpelling
import Classpath.Proofs.Graph.Mirror
import Classpath.Proofs.Graph.Refusal
import Classpath.Proofs.Filtering
import Classpath.Proofs.Packing.Frame
import Classpath.Proofs.CreationOrder
import Classpath.Proofs.Settings.Acceptance
import Classpath.Proofs.Snapshot.Relative
import Classpath.Proofs.Packing.EachFile
import Classpath.Proofs.Settings.Layers
import Classpath.Proofs.Settings.Repeats
import Classpath.Proofs.Graph.Attempt
import Classpath.Proofs.Snapshot.Formats
import Classpath.Proofs.Expansion
import Classpath.Proofs.Warning
import Classpath.Proofs.Packing.Cleanup
