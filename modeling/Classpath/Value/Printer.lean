import Classpath.Text.Quoted
import Classpath.Value

/-! # Values in messages and names

A message shows a value in its written form, with texts between quotes. A name that is built from a
value takes a text as it is and any other value in its written form.
-/

namespace Classpath.Value

/-- The form of one byte between quotes. -/
def writtenByte (mark : Char) (byte : UInt8) : List Char :=
  let c := Char.ofNat byte.toNat
  if byte.toNat < 0x7F && 0x20 ≤ byte.toNat || c = '\n' || c = '\r' || c = '\t' then
    Text.quoteChar mark c
  else '\\' :: 'x' :: (Text.paddedHex 2 byte.toNat).toList

/-- Bytes between quotes. -/
def writtenBytes (data : List UInt8) : String :=
  let mark := Text.quoteMark (data.map fun byte => Char.ofNat byte.toNat)
  String.ofList ('b' :: mark :: data.flatMap (writtenByte mark) ++ [mark])

mutual

/-- The written form of a value. -/
def written : Value → String
  | .null => "None"
  | .bool b => if b then "True" else "False"
  | .int n => Text.ofInt n
  | .float x => x.text
  | .text s => Text.quoted s
  | .bytes data => writtenBytes data
  | .moment m => m.written
  | .list items => "[" ++ String.intercalate ", " (writtenItems items) ++ "]"
  | .tuple items =>
    "(" ++ String.intercalate ", " (writtenItems items) ++ (if items.length = 1 then ",)" else ")")
  | .set items =>
    if items.isEmpty then "set()"
    else "\x7b" ++ String.intercalate ", " (writtenItems items) ++ "\x7d"
  | .table entries => "\x7b" ++ String.intercalate ", " (writtenEntries entries) ++ "\x7d"

/-- The written forms of some values. -/
def writtenItems : List Value → List String
  | [] => []
  | x :: xs => written x :: writtenItems xs

/-- The written forms of some entries. -/
def writtenEntries : List (Value × Value) → List String
  | [] => []
  | (key, value) :: rest => (written key ++ ": " ++ written value) :: writtenEntries rest

end

mutual

/-- Whether a whole number inside a value has too many digits to be written. -/
def isUnprintable : Value → Bool
  | .int n => Text.isTooLong n
  | .list items => isAnyUnprintable items
  | .tuple items => isAnyUnprintable items
  | .set items => isAnyUnprintable items
  | .table entries => isAnyEntryUnprintable entries
  | _ => false

/-- Whether one of some values has too long a number. -/
def isAnyUnprintable : List Value → Bool
  | [] => false
  | x :: xs => isUnprintable x || isAnyUnprintable xs

/-- Whether a key or value of some entries has too long a number. -/
def isAnyEntryUnprintable : List (Value × Value) → Bool
  | [] => false
  | (key, value) :: rest =>
    isUnprintable key || isUnprintable value || isAnyEntryUnprintable rest

end

/-- The form of a value inside a name. -/
def shown : Value → String
  | .text s => s
  | .moment m => m.text
  | v => written v

end Classpath.Value
