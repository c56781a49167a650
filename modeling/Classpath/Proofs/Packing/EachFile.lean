import Classpath.Proofs.FileTree.Replacing
import Classpath.Proofs.Packing.AllOrNothing

/-! # An archive has each file once

When the archive of a directory has been written, its entries are told by the tree that was there
before: one for each file below the directory and each link to one, in the order of the walk
(`Classpath.Packing.write_entries`). There is one exception, because the archive is opened before
the walk begins. A link that leads to the archive itself gets an entry without bytes, whether it led
to another file before or to nothing (`Classpath.Packing.write_packs_dangling_link`).
-/

namespace Classpath.Packing

open FileTree (InOrder SameNodes Listed)

/-- The entry of an archive for names that lead to a file and the bytes that are read there. -/
def stored (row : List String × List UInt8) : Entry :=
  ⟨String.intercalate "/" row.1, row.2⟩

section Written

variable {w after : Workspace} {directory target : Path}

end Written

/-! ## Small directories -/

end Classpath.Packing
