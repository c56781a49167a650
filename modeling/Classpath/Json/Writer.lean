import Classpath.Value.Printer

/-! # Writing JSON

A value is written either on one line or indented by two spaces a level. Characters outside ASCII
are written as escapes of their units. Whatever is no JSON value is written as a text, and so is a
key that is no text.
-/

namespace Classpath.Json

/-- An escape of one unit. -/
def unitEscape (unit : Nat) : List Char :=
  '\\' :: 'u' :: (Text.paddedHex 4 unit).toList

/-- The form of one character inside a text. -/
def escape (c : Char) : List Char :=
  let n := c.toNat
  if c = '"' || c = '\\' then ['\\', c]
  else if c = '\n' then ['\\', 'n']
  else if c = '\r' then ['\\', 'r']
  else if c = '\t' then ['\\', 't']
  else if n = 0x08 then ['\\', 'b']
  else if n = 0x0C then ['\\', 'f']
  else if 0x20 ≤ n && n < 0x7F then [c]
  else if let some half := Text.surrogate? c then unitEscape half
  else if n < 0x10000 then unitEscape n
  else unitEscape (0xD800 + (n - 0x10000) / 0x400) ++ unitEscape (0xDC00 + (n - 0x10000) % 0x400)

/-- A text between quotes. -/
def text (s : String) : String :=
  String.ofList ('"' :: s.toList.flatMap escape ++ ['"'])

/-- The form of a value that holds no others. -/
def scalar : Value → String
  | .null => "null"
  | .bool b => if b then "true" else "false"
  | .int n => Text.ofInt n
  | .float .nan => "NaN"
  | .float (.infinite negative) => if negative then "-Infinity" else "Infinity"
  | .float x => x.text
  | v => text v.shown

/-- The text of a key. -/
def keyText : Value → String
  | .text s => s
  | .null => scalar .null
  | .bool b => scalar (.bool b)
  | .float x => scalar (.float x)
  | v => v.shown

/-- How the parts of a collection are set apart. -/
structure Layout where
  /-- Whether each part stands on a line of its own. -/
  indented : Bool

namespace Layout

/-- What stands before a part of a collection at a depth. -/
def gap (layout : Layout) (depth : Nat) : String :=
  if layout.indented then "\n" ++ String.ofList (List.replicate (2 * depth) ' ') else ""

/-- Parts between brackets. -/
def enclose (layout : Layout) (depth : Nat) (left right : String) (parts : List String) : String :=
  if parts.isEmpty then left ++ right
  else
    let comma := if layout.indented then "," else ", "
    left ++ layout.gap (depth + 1) ++ String.intercalate (comma ++ layout.gap (depth + 1)) parts ++
      layout.gap depth ++ right

mutual

/-- The form of a value at a depth. -/
def write (layout : Layout) (depth : Nat) : Value → String
  | .list items => layout.enclose depth "[" "]" (layout.writeItems (depth + 1) items)
  | .tuple items => layout.enclose depth "[" "]" (layout.writeItems (depth + 1) items)
  | .set items => layout.enclose depth "[" "]" (layout.writeItems (depth + 1) items)
  | .table entries => layout.enclose depth "\x7b" "\x7d" (layout.writeEntries (depth + 1) entries)
  | v => scalar v

/-- The forms of the items of a list. -/
def writeItems (layout : Layout) (depth : Nat) : List Value → List String
  | [] => []
  | v :: rest => layout.write depth v :: layout.writeItems depth rest

/-- The forms of the entries of a table. -/
def writeEntries (layout : Layout) (depth : Nat) : List (Value × Value) → List String
  | [] => []
  | (key, v) :: rest =>
    (text (keyText key) ++ ": " ++ layout.write depth v) :: layout.writeEntries depth rest

end

end Layout

/-- A value on one line. -/
def compact (v : Value) : String :=
  Layout.write ⟨false⟩ 0 v

/-- A value with each part on a line of its own. -/
def indented (v : Value) : String :=
  Layout.write ⟨true⟩ 0 v

end Classpath.Json
