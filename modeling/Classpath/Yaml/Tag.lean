import Classpath.Moment
import Classpath.Yaml.Token

/-! # Tags of YAML nodes

The tag of a node says which kind of value it stands for. A plain scalar without a tag gets one from
its form: words for nothing and for truth values, numbers, dates, and otherwise text. The marks of
tags, anchors and aliases alone stand for nothing that has a value. A line end may follow a form.
-/

namespace Classpath.Yaml

/-- The kind of value that a node stands for. -/
inductive Tag where
  | null
  | bool
  | int
  | float
  | timestamp
  | binary
  | text
  | list
  | table
  | set
  | orderedPairs
  | pairs
  /-- The key under which other tables are merged into one. -/
  | merge
  /-- The key of the value that stands for a table. -/
  | default
  | unknown
deriving DecidableEq, Repr

namespace Tag

/-- What the tags of the common kinds begin with. -/
def common : String := "tag:yaml.org,2002:"

/-- The tag of a full name. -/
def ofName (name : String) : Tag :=
  let table : List (String × Tag) :=
    [("null", .null), ("bool", .bool), ("int", .int), ("float", .float),
      ("timestamp", .timestamp), ("binary", .binary), ("str", .text), ("seq", .list),
      ("map", .table), ("set", .set), ("omap", .orderedPairs), ("pairs", .pairs),
      ("merge", .merge), ("value", .default)]
  ((table.find? fun entry => common ++ entry.1 = name).map (·.2)).getD .unknown

/-! ## Forms of plain scalars -/

/-- A digit or an underscore. -/
def isGroupedDigit (c : Char) : Bool :=
  Text.isDigit c || c = '_'

/-- A digit and further digits and underscores. -/
def isGrouped (cs : List Char) : Bool :=
  (cs.head?.map Text.isDigit).getD false && cs.all isGroupedDigit

/-- One or two digits below sixty. -/
def isSixtieth (cs : List Char) : Bool :=
  match cs with
  | [a] => Text.isDigit a
  | [a, b] => Text.isDigit b && '0' ≤ a && a ≤ '5'
  | _ => false

/-- Drop a sign. -/
def unsigned (cs : List Char) : List Char :=
  (Text.takeSign cs).2

/-- A whole number: in base two, eight, ten, sixteen or sixty. -/
def isInt (cs : List Char) : Bool :=
  match unsigned cs with
  | ['0'] => true
  | '0' :: 'b' :: rest => !rest.isEmpty && rest.all fun c => c = '0' || c = '1' || c = '_'
  | '0' :: 'x' :: rest => !rest.isEmpty && rest.all fun c => Text.isHexDigit c || c = '_'
  | '0' :: rest => rest.all fun c => ('0' ≤ c && c ≤ '7') || c = '_'
  | cs =>
    match cs.splitOn ':' with
    | first :: sixtieths => isGrouped first && sixtieths.all isSixtieth
    | [] => false

/-- Nothing, or the letter e with a sign and digits. -/
def isExponent (cs : List Char) : Bool :=
  match cs with
  | [] => true
  | e :: sign :: digits =>
    (e = 'e' || e = 'E') && (sign = '-' || sign = '+') && !digits.isEmpty && digits.all Text.isDigit
  | _ => false

/-- A number with a point, also in base sixty, or a word for infinity or for no number. -/
def isFloat (cs : List Char) : Bool :=
  let number := unsigned cs
  let signless := number.length = cs.length
  let whole := number.takeWhile (· ≠ '.')
  match number.drop whole.length with
  | [] => false
  | _ :: fraction =>
    let word := String.ofList fraction
    let digits := fraction.takeWhile isGroupedDigit
    let after := fraction.drop digits.length
    if whole.isEmpty then
      ["inf", "Inf", "INF"].contains word || (signless && ["nan", "NaN", "NAN"].contains word) ||
        (signless && isGrouped digits && isExponent after)
    else
      match whole.splitOn ':' with
      | [first] => isGrouped first && isExponent after
      | first :: sixtieths => isGrouped first && sixtieths.all isSixtieth && after.isEmpty
      | [] => false

/-- The fields of a timestamp as they are written. -/
structure Stamp where
  year : List Char
  month : List Char
  day : List Char
  /-- Hour, minute, second and fraction. -/
  clock : Option (List Char × List Char × List Char × List Char)
  /-- Sign, hours and minutes east of universal time; universal time itself has no hours. -/
  zone : Option (Char × List Char × List Char)

/-- Cut off a mark. -/
def cutMark (mark : Char) : List Char → Option (List Char)
  | c :: rest => if c = mark then some rest else none
  | [] => none

/-- Cut off digits, at least and at most so many. -/
def cutDigits (least most : Nat) (cs : List Char) : Option (List Char × List Char) :=
  let digits := (cs.takeWhile Text.isDigit).take most
  if digits.length < least then none else some (digits, cs.drop digits.length)

/-- Blanks between the parts of a timestamp. -/
def dropGap (cs : List Char) : List Char :=
  cs.dropWhile fun c => c = ' ' || c = '\t'

/-- The offset at the end of a timestamp. -/
def zone? (cs : List Char) : Option (Option (Char × List Char × List Char)) :=
  if cs.isEmpty then some none
  else
    match dropGap cs with
    | ['Z'] => some (some ('+', [], []))
    | sign :: rest => do
      if sign ≠ '+' && sign ≠ '-' then none
      else
        let (hours, rest) ← cutDigits 1 2 rest
        if rest.isEmpty then some (some (sign, hours, []))
        else
          let (minutes, rest) ← cutDigits 2 2 (← cutMark ':' rest)
          if rest.isEmpty then some (some (sign, hours, minutes)) else none
    | [] => none

/-- Cut a timestamp into its fields. -/
def stamp? (cs : List Char) : Option Stamp := do
  let (year, cs) ← cutDigits 4 4 cs
  let (month, cs) ← cutDigits 1 2 (← cutMark '-' cs)
  let (day, cs) ← cutDigits 1 2 (← cutMark '-' cs)
  match cs with
  | [] => return ⟨year, month, day, none, none⟩
  | c :: rest =>
    let cs ←
      if c = 'T' || c = 't' then some rest
      else if c = ' ' || c = '\t' then some (dropGap rest)
      else none
    let (hour, cs) ← cutDigits 1 2 cs
    let (minute, cs) ← cutDigits 2 2 (← cutMark ':' cs)
    let (second, cs) ← cutDigits 2 2 (← cutMark ':' cs)
    let (fraction, cs) :=
      match cs with
      | '.' :: rest => rest.span Text.isDigit
      | cs => ([], cs)
    return ⟨year, month, day, some (hour, minute, second, fraction), ← zone? cs⟩

/-- A timestamp. A date alone has two digits for month and day. -/
def isTimestamp (cs : List Char) : Bool :=
  match stamp? cs with
  | some stamp => stamp.clock.isSome || (stamp.month.length = 2 && stamp.day.length = 2)
  | none => false

/-- The words for truth values, with their meaning. -/
def truthWords : List (String × Bool) :=
  [("yes", true), ("no", false), ("true", true), ("false", false), ("on", true), ("off", false)]

/-- A word in small letters, with a capital, or in capitals. -/
def isTruth (s : String) : Bool :=
  truthWords.any fun (word, _) => s = word || s = word.capitalize || s = word.toUpper

/-- A text without the line end that may follow its form. A line end alone has no form. -/
def withoutLineEnd (cs : List Char) : List Char :=
  if cs.getLast? = some '\n' && 1 < cs.length then cs.dropLast else cs

/-- The tag that the form of a scalar gives. -/
def ofForm (s : String) : Tag :=
  let cs := withoutLineEnd s.toList
  let s := String.ofList cs
  if isTruth s then .bool
  else if isFloat cs then .float
  else if isInt cs then .int
  else if s = "<<" then .merge
  else if ["", "~", "null", "Null", "NULL"].contains s then .null
  else if isTimestamp cs then .timestamp
  else if s = "=" then .default
  else if ["!", "&", "*"].contains s then .unknown
  else .text

end Tag

end Classpath.Yaml
