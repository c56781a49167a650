import Classpath.Text.Blank

/-! # Decimal numerals

Writing a number in decimal, and the generous reading that a setting uses: blanks around the
numeral, a sign, decimal digits of any script and single underscores between digits. A numeral in
base ten that is very long is refused.
The main statement says that a digit of the reading is less than ten.
-/

namespace Classpath.Text

/-- The zeros of the decimal digit rows, ascending; a row is ten code points long. -/
def digitRows : List Nat :=
  [0x30, 0x660, 0x6F0, 0x7C0, 0x966, 0x9E6, 0xA66, 0xAE6, 0xB66, 0xBE6, 0xC66, 0xCE6, 0xD66, 0xDE6,
  0xE50, 0xED0, 0xF20, 0x1040, 0x1090, 0x17E0, 0x1810, 0x1946, 0x19D0, 0x1A80, 0x1A90, 0x1B50,
  0x1BB0, 0x1C40, 0x1C50, 0xA620, 0xA8D0, 0xA900, 0xA9D0, 0xA9F0, 0xAA50, 0xABF0, 0xFF10, 0x104A0,
  0x10D30, 0x11066, 0x110F0, 0x11136, 0x111D0, 0x112F0, 0x11450, 0x114D0, 0x11650, 0x116C0, 0x11730,
  0x118E0, 0x11950, 0x11C50, 0x11D50, 0x11DA0, 0x16A60, 0x16AC0, 0x16B50, 0x1D7CE, 0x1D7D8, 0x1D7E2,
  0x1D7EC, 0x1D7F6, 0x1E140, 0x1E2F0, 0x1E950, 0x1FBF0]

/-- The value of a decimal digit of any script. -/
def digit? (c : Char) : Option Nat :=
  (digitRows.find? fun row => row ≤ c.toNat && c.toNat < row + 10).map (c.toNat - ·)

theorem digit?_lt {c : Char} {d : Nat} (found : digit? c = some d) : d < 10 := by
  obtain ⟨row, first, rfl⟩ := Option.map_eq_some_iff.mp found
  have inside := List.find?_some first
  simp only [Bool.and_eq_true, decide_eq_true_eq] at inside
  omega

/-- The value of a digit in a base up to sixteen. -/
def digitIn? (base : Nat) (c : Char) : Option Nat :=
  let n := c.toNat
  let value :=
    if 0x30 ≤ n && n ≤ 0x39 then some (n - 0x30)
    else if 0x61 ≤ n && n ≤ 0x66 then some (n - 0x57)
    else if 0x41 ≤ n && n ≤ 0x46 then some (n - 0x37)
    else none
  value.filter (· < base)

/-- One of the ten ASCII digits. -/
def isDigit (c : Char) : Bool :=
  (digitIn? 10 c).isSome

/-- One of the sixteen hexadecimal digits, in either case. -/
def isHexDigit (c : Char) : Bool :=
  (digitIn? 16 c).isSome

/-- The number that digits stand for in a base, the most significant first. -/
def ofDigits (base : Nat) (digits : List Nat) : Nat :=
  digits.foldl (fun value digit => value * base + digit) 0

/-- Read ASCII digits of a base; any other character, or no digit at all, is refused. -/
def readNat? (base : Nat) (cs : List Char) : Option Nat :=
  if cs.isEmpty then none else (cs.mapM (digitIn? base)).map (ofDigits base)

/-- Apply a sign. -/
def signed (negative : Bool) (magnitude : Nat) : Int :=
  if negative then -(magnitude : Int) else magnitude

/-- Split a leading sign off: whether it is a minus, and the rest. -/
def takeSign : List Char → Bool × List Char
  | '-' :: rest => (true, rest)
  | '+' :: rest => (false, rest)
  | cs => (false, cs)

/-- A decimal digit of any script as an ASCII digit; other characters stay. -/
def asciiDigit (c : Char) : Char :=
  ((digit? c).map fun d => Char.ofNat (0x30 + d)).getD c

/-! ## The generous reading -/

/-- Why a text is no whole number. -/
inductive NumeralFault where
  | malformed
  /-- More digits than are converted. -/
  | tooLong (digits : Nat)
deriving DecidableEq, Repr

/-- The most digits that are converted from or to a base that is no power of two. -/
def digitLimit : Nat := 4300

/-- The digits of a base at the front, with single underscores between them, and what follows. An
underscore at either end of the digits is refused; `opened` says that a digit has to follow. -/
def readGrouped? (base : Nat) (opened : Bool) : List Char → Option (List Nat × List Char)
  | [] => if opened then none else some ([], [])
  | c :: rest =>
    if c = '_' then if opened then none else readGrouped? base true rest
    else
      match digitIn? base c with
      | some d => (readGrouped? base false rest).map fun (ds, after) => (d :: ds, after)
      | none => if opened then none else some ([], c :: rest)

/-- Drop the mark of a base other than ten, and an underscore after it. -/
def dropBaseMark (base : Nat) (cs : List Char) : List Char :=
  let mark := if base = 2 then 'b' else if base = 8 then 'o' else 'x'
  match cs with
  | '0' :: c :: rest =>
    if base ≠ 10 && c.toLower = mark then
      match rest with
      | '_' :: rest => rest
      | rest => rest
    else cs
  | cs => cs

/-- Read a whole number of base two, eight, ten or sixteen: blanks around it, a sign, a mark of the
base and grouped decimal digits of any script. -/
def readWhole (base : Nat) (cs : List Char) : Except NumeralFault Int :=
  let (negative, digits) := takeSign (trimEnds isSpace cs)
  match readGrouped? base true (dropBaseMark base (digits.map asciiDigit)) with
  | none => .error .malformed
  | some (ds, after) =>
    if base = 10 && digitLimit < ds.length then .error (.tooLong ds.length)
    else if !after.isEmpty then .error .malformed
    else .ok (signed negative (ofDigits base ds))

/-- Whether a whole number has too many digits to be written in base ten. -/
def isTooLong (n : Int) : Bool :=
  Nat.pow 10 digitLimit ≤ n.natAbs

/-- A whole number in decimal. -/
def ofInt (n : Int) : String :=
  toString n

/-- A number in decimal, filled up with zeros on the left. -/
def padded (width n : Nat) : String :=
  let digits := Nat.toDigits 10 n
  String.ofList (List.replicate (width - digits.length) '0' ++ digits)

/-- A number in lower case hexadecimal, filled up with zeros on the left. -/
def paddedHex (width n : Nat) : String :=
  let digits := Nat.toDigits 16 n
  String.ofList (List.replicate (width - digits.length) '0' ++ digits)

end Classpath.Text
