import Classpath.Number.Binary64
import Classpath.Text.Blank

/-! # Decimal notation

A number in decimal notation has a sign, digits with at most one point among them, and an optional
exponent. It is read exactly, and rounded to a binary number only at the end.
-/

namespace Classpath

/-- The number `digits * 10 ^ power` with a sign. -/
structure Decimal where
  negative : Bool
  digits : Nat
  power : Int
deriving DecidableEq, Repr

namespace Decimal

/-- The exponent that a text gives, zero if it is empty. -/
def exponent? : List Char → Option Int
  | [] => some 0
  | c :: rest =>
    if c = 'e' || c = 'E' then
      let (negative, digits) := Text.takeSign rest
      (Text.readNat? 10 digits).map (Text.signed negative)
    else none

/-- Read a number that has no blanks around it. -/
def read? (cs : List Char) : Option Decimal := do
  let (negative, cs) := Text.takeSign cs
  let (whole, cs) := cs.span Text.isDigit
  let (fraction, cs) :=
    match cs with
    | '.' :: cs => cs.span Text.isDigit
    | cs => ([], cs)
  let digits ← Text.readNat? 10 (whole ++ fraction)
  let exponent ← exponent? cs
  return ⟨negative, digits, exponent - fraction.length⟩

/-- The nearest binary number. -/
def toBinary64 (d : Decimal) : Binary64 :=
  .ofDecimal d.negative d.digits d.power

end Decimal

namespace Binary64

/-- The number with the other sign. -/
def negate : Binary64 → Binary64
  | .nan => .nan
  | .infinite negative => .infinite !negative
  | .finite negative mantissa exponent => .finite (!negative) mantissa exponent

/-- Read a number with white space around it and decimal digits of any script, or one of the words
for infinity and for no number. -/
def read? (cs : List Char) : Option Binary64 :=
  let cs := (Text.trimEnds Text.isSpace cs).map Text.asciiDigit
  let (negative, word) := Text.takeSign (cs.map Char.toLower)
  let word := String.ofList word
  if word = "inf" || word = "infinity" then some (.infinite negative)
  else if word = "nan" then some .nan
  else (Decimal.read? cs).map Decimal.toBinary64

end Binary64

end Classpath
