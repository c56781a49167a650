import Classpath.Moment
import Classpath.Number.Binary64
import Classpath.Text.Utf8

/-! # Values of documents and tables

Settings tables, snapshot documents and the answers of a scripted source hold values whose kind is
known only when they are read. A table keeps its entries in order and may have keys of any kind.
Two values are the same when a look-up would not tell them apart: numbers are compared as numbers,
whatever their kind.
-/

namespace Classpath

/-- A value of a document. -/
inductive Value where
  | null
  | bool (b : Bool)
  | int (n : Int)
  | float (x : Binary64)
  | text (s : String)
  | bytes (data : List UInt8)
  | moment (m : Moment)
  | list (items : List Value)
  | tuple (items : List Value)
  | set (items : List Value)
  | table (entries : List (Value × Value))
deriving Inhabited, Repr

namespace Value

/-- The word that messages use for the kind of a value. -/
def kind : Value → String
  | .null => "NoneType"
  | .bool _ => "bool"
  | .int _ => "int"
  | .float _ => "float"
  | .text _ => "str"
  | .bytes _ => "bytes"
  | .moment (.date _) => "datetime.date"
  | .moment (.time _) => "datetime.time"
  | .moment (.dateTime ..) => "datetime.datetime"
  | .list _ => "list"
  | .tuple _ => "tuple"
  | .set _ => "set"
  | .table _ => "dict"

/-- The word for the kind of a value without the family it belongs to. -/
def plainKind : Value → String
  | .moment (.date _) => "date"
  | .moment (.time _) => "time"
  | .moment (.dateTime ..) => "datetime"
  | v => v.kind

/-- The whole number that a value counts as: a truth value counts as zero or one. -/
def asInt? : Value → Option Int
  | .int n => some n
  | .bool b => some (if b then 1 else 0)
  | .float x => x.toInt?
  | _ => none

/-- The text of a text value. -/
def asText? : Value → Option String
  | .text s => some s
  | _ => none

/-- Whether a value is a number or counts as one. -/
def isNumber : Value → Bool
  | .bool _ | .int _ | .float _ => true
  | _ => false

/-- A value that a condition rejects: nothing, zero, or an empty text or collection. -/
def isEmptyLike : Value → Bool
  | .null => true
  | .bool b => !b
  | .int n => n == 0
  | .float x => !x.nonzero
  | .text s => s.isEmpty
  | .bytes data => data.isEmpty
  | .moment _ => false
  | .list items => items.isEmpty
  | .tuple items => items.isEmpty
  | .set items => items.isEmpty
  | .table entries => entries.isEmpty

/-! ## Sameness -/

/-- Sameness of values that hold no others. -/
def sameScalar : Value → Value → Bool
  | .null, .null => true
  | .text s, .text s' => s == s'
  | .bytes d, .bytes d' => d == d'
  | .moment m, .moment m' => m.same m'
  | .float x, .float y => x.same y
  | a, b =>
    match a.asInt?, b.asInt? with
    | some m, some n => m == n
    | _, _ => false

mutual

/-- Two values that no look-up tells apart. -/
def same : Value → Value → Bool
  | .list xs, .list ys => sameItems xs ys
  | .tuple xs, .tuple ys => sameItems xs ys
  | .set xs, .set ys => xs.length == ys.length && sameMembers xs ys
  | .table xs, .table ys => xs.length == ys.length && sameEntries xs ys
  | a, b => sameScalar a b

/-- Lists with the same members at the same places. -/
def sameItems : List Value → List Value → Bool
  | [], [] => true
  | x :: xs, y :: ys => same x y && sameItems xs ys
  | _, _ => false

/-- Every member of the first list is in the second. -/
def sameMembers : List Value → List Value → Bool
  | [], _ => true
  | x :: xs, ys => ys.any (same x) && sameMembers xs ys

/-- Every entry of the first list is in the second. -/
def sameEntries : List (Value × Value) → List (Value × Value) → Bool
  | [], _ => true
  | (key, value) :: rest, ys =>
    ys.any (fun other => same key other.1 && same value other.2) && sameEntries rest ys

end

instance : BEq Value := ⟨same⟩

/-! ## Keys -/

mutual

/-- The kind that keeps a value from being a key, if one does: only unchanging values are keys. -/
def unhashable? : Value → Option String
  | .list _ => some "list"
  | .set _ => some "set"
  | .table _ => some "dict"
  | .tuple items => unhashableItem? items
  | _ => none

/-- The first kind among some values that keeps one from being a key. -/
def unhashableItem? : List Value → Option String
  | [] => none
  | x :: xs => (unhashable? x).or (unhashableItem? xs)

end

/-- The value under a key of a table; the last entry wins. -/
def find? (entries : List (Value × Value)) (key : Value) : Option Value :=
  (entries.findRev? fun entry => same entry.1 key).map (·.2)

/-- The value under a name in a table of entries. -/
def field? (entries : List (Value × Value)) (name : String) : Option Value :=
  find? entries (.text name)

/-- Put a value under a key: a key that is there keeps its place. -/
def put (entries : List (Value × Value)) (key value : Value) : List (Value × Value) :=
  if entries.any (fun entry => same entry.1 key) then
    entries.map fun entry => if same entry.1 key then (entry.1, value) else entry
  else entries ++ [(key, value)]

/-- The table of a sequence of entries in which a later entry replaces an earlier one. -/
def tableOf (entries : List (Value × Value)) : List (Value × Value) :=
  entries.foldl (fun table entry => put table entry.1 entry.2) []

/-- The members that a walk over a value meets: the characters of a text and the keys of a table. -/
def members? : Value → Option (List Value)
  | .text s => some (s.toList.map fun c => .text (String.singleton c))
  | .bytes data => some (data.map fun byte => .int byte.toNat)
  | .list items => some items
  | .tuple items => some items
  | .set items => some items
  | .table entries => some (entries.map (·.1))
  | _ => none

end Value

end Classpath
