import Classpath.Number.Decimal
import Classpath.Text.LowerCase
import Classpath.Yaml.Tag

/-! # The meaning of YAML scalars

The text of a scalar is read as its tag says: as a whole number in one of five bases, as a floating
point number, a truth value, a point in time or bytes. A tag may stand before any text, so each
reader has its own fault for a text that does not fit.
-/

namespace Classpath.Yaml

/-! ## Numbers -/

/-- A numeral of a base. -/
def readBase (base : Nat) (cs : List Char) : Reading Int :=
  match Text.readWhole base cs with
  | .ok n => .ok n
  | .error .malformed => .error (.notNumeral base (String.ofList cs))
  | .error (.tooLong digits) => .error (.longNumeral digits)

/-- A number in base sixty from its digits. -/
def sixties (digits : List Int) : Int :=
  digits.foldl (fun value digit => value * 60 + digit) 0

/-- A whole number. -/
def readInt (s : String) : Reading Int := do
  let cs := s.toList.filter (· ≠ '_')
  if cs.isEmpty then .error .emptyText
  else
    let (negative, digits) := Text.takeSign cs
    let sign : Int := if negative then -1 else 1
    match digits with
    | [] => .error .emptyText
    | ['0'] => return 0
    | '0' :: 'b' :: rest => return sign * (← readBase 2 rest)
    | '0' :: 'x' :: rest => return sign * (← readBase 16 rest)
    | '0' :: _ => return sign * (← readBase 8 digits)
    | _ =>
      if digits.contains ':' then
        return sign * sixties (← (digits.splitOn ':').mapM (readBase 10))
      else return sign * (← readBase 10 digits)

/-- A number in decimal notation. -/
def readDecimal (cs : List Char) : Reading Binary64 :=
  match Binary64.read? cs with
  | some x => .ok x
  | none => .error (.notDecimal (String.ofList cs))

/-- The sum of parts that count sixty times each other, from the last one on; `unit` is what the
next part counts. A unit beyond all floating point numbers is refused. -/
def sixtyParts (unit : Nat) (sum : Binary64) : List Binary64 → Reading Binary64
  | [] => .ok sum
  | part :: rest =>
    match Binary64.ofInt unit with
    | .finite .. => sixtyParts (unit * 60) (sum.plus (part.scale unit)) rest
    | _ => .error .tooGreat

/-- The characters of a floating point number that count: no underscores, and small letters. -/
def floatForm (s : String) : List Char :=
  Text.lower (s.toList.filter (· ≠ '_'))

/-- Whether a text is the word for no number. All such words stand for one and the same value. -/
def isNanWord (s : String) : Bool :=
  (Text.takeSign (floatForm s)).2 = ".nan".toList

/-- A floating point number. -/
def readFloat (s : String) : Reading Binary64 := do
  let cs := floatForm s
  if cs.isEmpty then .error .emptyText
  else
    let (negative, number) := Text.takeSign cs
    let signed (x : Binary64) : Binary64 := if negative then x.negate else x
    if number = ".inf".toList then return .infinite negative
    else if number = ".nan".toList then return .nan
    else if number.contains ':' then
      let parts ← (number.splitOn ':').mapM readDecimal
      return signed (← sixtyParts 1 (.ofInt 0) parts.reverse)
    else return signed (← readDecimal number)

/-! ## Points in time -/

/-- A number of a timestamp. -/
def field (digits : List Char) : Nat :=
  (Text.readNat? 10 digits).getD 0

/-- The complaint about a date that does not exist. -/
def dateComplaint? (d : Date) : Option String :=
  if d.valid then none
  else if d.year = 0 then some "year 0 is out of range"
  else if d.month = 0 || 12 < d.month then some "month must be in 1..12"
  else some "day is out of range for month"

/-- The complaint about a time that does not exist. -/
def clockComplaint? (c : Clock) : Option String :=
  if 23 < c.hour then some "hour must be in 0..23"
  else if 59 < c.minute then some "minute must be in 0..59"
  else if 59 < c.second then some "second must be in 0..59"
  else none

/-- The complaint about an offset of a day or more. -/
def offsetComplaint? (offset : Option Int) : Option String :=
  match offset with
  | none => none
  | some seconds =>
    if seconds.natAbs < 86400 then none
    else
      some ("offset must be a timedelta strictly between -timedelta(hours=24) and " ++
        "timedelta(hours=24), not " ++ Moment.durationWritten seconds ++ ".")

/-- A date, or a date with a time. Six digits of a fraction count. -/
def readTimestamp (s : String) : Reading Moment := do
  match Tag.stamp? (Tag.withoutLineEnd s.toList) with
  | none => .error (.noAttribute "NoneType" "groupdict")
  | some stamp =>
    let day : Date := ⟨field stamp.year, field stamp.month, field stamp.day⟩
    let complain (complaint : Option String) : Reading Unit :=
      match complaint with
      | some words => .error (.calendar words)
      | none => .ok ()
    match stamp.clock with
    | none =>
      complain (dateComplaint? day)
      return .date day
    | some (hour, minute, second, fraction) =>
      let micros := (fraction ++ List.replicate 6 '0').take 6
      let clock : Clock := ⟨field hour, field minute, field second, field micros⟩
      let offset := stamp.zone.map fun (sign, hours, minutes) =>
        Text.signed (sign = '-') (field hours * 3600 + field minutes * 60)
      complain ((offsetComplaint? offset).or ((dateComplaint? day).or (clockComplaint? clock)))
      return .dateTime day clock offset

/-! ## Bytes and truth values -/

/-- The six bits of a character of the base 64 alphabet. -/
def sixBits? (c : Char) : Option Nat :=
  let n := c.toNat
  if 'A' ≤ c && c ≤ 'Z' then some (n - 65)
  else if 'a' ≤ c && c ≤ 'z' then some (n - 71)
  else if Text.isDigit c then some (n + 4)
  else if c = '+' then some 62
  else if c = '/' then some 63
  else none

/-- The bytes of at most four groups of six bits; bits beyond the last whole byte are dropped. -/
def groupBytes : List Nat → List UInt8
  | [a, b] => [UInt8.ofNat (a * 4 + b / 16)]
  | [a, b, c] => [UInt8.ofNat (a * 4 + b / 16), UInt8.ofNat (b * 16 + c / 4)]
  | [a, b, c, d] =>
    [UInt8.ofNat (a * 4 + b / 16), UInt8.ofNat (b * 16 + c / 4), UInt8.ofNat (c * 64 + d)]
  | _ => []

/-- The bytes of characters in groups of four. `held` are the six bits of the group so far and
`marks` the equals signs since its last character; a group that they fill up ends the text. Other
characters outside the alphabet are passed over. -/
def readGroups (held : List Nat) (marks : Nat) : List Char → Option (List UInt8)
  | [] => if held.isEmpty then some [] else none
  | c :: rest =>
    if c = '=' then
      if held.length < 2 then readGroups held marks rest
      else if 4 ≤ held.length + marks + 1 then some (groupBytes held)
      else readGroups held (marks + 1) rest
    else
      match sixBits? c with
      | none => readGroups held marks rest
      | some bits =>
        let held := held ++ [bits]
        if held.length < 4 then readGroups held 0 rest
        else (readGroups [] 0 rest).map (groupBytes held ++ ·)

/-- Bytes in base 64. The last group is filled up with equals signs. -/
def readBinary (s : String) : Reading (List UInt8) := do
  expect (s.toList.all fun c => c.toNat < 0x80)
  match readGroups [] 0 s.toList with
  | some bytes => return bytes
  | none => malformed

/-- A truth value. -/
def readTruth (s : String) : Reading Bool :=
  let word := String.ofList (Text.lower s.toList)
  match Tag.truthWords.lookup word with
  | some b => .ok b
  | none => .error (.missingKey (.text word))

/-- The meaning of a text under the tag of a scalar. -/
def meaning (tag : Tag) (s : String) : Reading Value :=
  match tag with
  | .null => .ok .null
  | .bool => (readTruth s).map .bool
  | .int => (readInt s).map .int
  | .float => (readFloat s).map .float
  | .timestamp => (readTimestamp s).map .moment
  | .binary => (readBinary s).map .bytes
  | .text => .ok (.text s)
  | _ => malformed

end Classpath.Yaml
