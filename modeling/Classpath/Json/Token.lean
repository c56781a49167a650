import Classpath.Text.Surrogate
import Classpath.Value

/-! # Tokens of a JSON text

A JSON text is cut into marks, texts and scalar values. Between tokens stand spaces, tabs and line
ends. Besides the numbers of the format the words `NaN`, `Infinity` and `-Infinity` are numbers.
A number with a point or an exponent is a floating point number, any other a whole number. What is
no token stands for itself as the last one, so that a reader can refuse what comes before it first.
-/

namespace Classpath.Json

/-- A token: one of the marks `{}[],:`, a text, or a value that holds no others. -/
inductive Token where
  | mark (c : Char)
  | text (s : String)
  | scalar (v : Value)
  /-- A whole number of so many digits. -/
  | whole (n : Int) (digits : Nat)
  /-- Characters that are no token. -/
  | broken

namespace Token

/-- White space between tokens. -/
def isSpace (c : Char) : Bool :=
  c = ' ' || c = '\t' || c = '\n' || c = '\r'

/-- One of the marks. -/
def isMark (c : Char) : Bool :=
  c = '\x7b' || c = '\x7d' || c = '[' || c = ']' || c = ',' || c = ':'

/-- The character of a short escape. -/
def shortEscape? (c : Char) : Option Char :=
  match c with
  | '"' => some '"'
  | '\\' => some '\\'
  | '/' => some '/'
  | 'b' => some '\x08'
  | 'f' => some '\x0c'
  | 'n' => some '\n'
  | 'r' => some '\r'
  | 't' => some '\t'
  | _ => none

/-- The unit that four hexadecimal digits give. -/
def unit? (a b c d : Char) : Option Nat :=
  Text.readNat? 16 [a, b, c, d]

/-- The characters of a text up to its closing quote, and what follows. Two escapes that form a
surrogate pair are one character, and half of a pair alone is carried by its stand-in. -/
def readText : List Char → Option (List Char × List Char)
  | '"' :: rest => some ([], rest)
  | '\\' :: 'u' :: a :: b :: c :: d :: '\\' :: 'u' :: e :: f :: g :: h :: rest => do
    let first ← unit? a b c d
    let second := unit? e f g h
    match second.filter fun low =>
        0xD800 ≤ first && first < 0xDC00 && 0xDC00 ≤ low && low < 0xE000 with
    | some low =>
      let (cs, after) ← readText rest
      return (Char.ofNat (0x10000 + (first - 0xD800) * 0x400 + (low - 0xDC00)) :: cs, after)
    | none =>
      let (cs, after) ← readText ('\\' :: 'u' :: e :: f :: g :: h :: rest)
      return (Text.ofCode first :: cs, after)
  | '\\' :: 'u' :: a :: b :: c :: d :: rest => do
    let unit ← unit? a b c d
    let (cs, after) ← readText rest
    return (Text.ofCode unit :: cs, after)
  | '\\' :: c :: rest => do
    let escaped ← shortEscape? c
    let (cs, after) ← readText rest
    return (escaped :: cs, after)
  | c :: rest =>
    if c.toNat < 0x20 then none
    else do
      let (cs, after) ← readText rest
      return (c :: cs, after)
  | [] => none

/-- The digits at the front, and what follows. -/
def takeDigits (cs : List Char) : List Char × List Char :=
  cs.span Text.isDigit

/-- A point and at least one digit at the front: the digits, and what follows. -/
def takeFraction : List Char → List Char × List Char
  | '.' :: rest =>
    let (digits, after) := takeDigits rest
    if digits.isEmpty then ([], '.' :: rest) else (digits, after)
  | cs => ([], cs)

/-- An exponent at the front, if one is there, and what follows. -/
def takeExponent : List Char → Option Int × List Char
  | c :: rest =>
    if c = 'e' || c = 'E' then
      let (negative, digits) := Text.takeSign rest
      let (digits, after) := takeDigits digits
      match Text.readNat? 10 digits with
      | some n => (some (Text.signed negative n), after)
      | none => (none, c :: rest)
    else (none, c :: rest)
  | [] => (none, [])

/-- A number after its sign, and what follows. A zero in front stands alone. -/
def readNumber (negative : Bool) (cs : List Char) : Option (Token × List Char) :=
  let (front, rest) :=
    match cs with
    | '0' :: rest => (['0'], rest)
    | cs => takeDigits cs
  match Text.readNat? 10 front with
  | none => none
  | some n =>
    let (fraction, rest) := takeFraction rest
    let (exponent, rest) := takeExponent rest
    if fraction.isEmpty && exponent.isNone then
      some (.whole (Text.signed negative n) front.length, rest)
    else
      let digits := ((Text.readNat? 10 (front ++ fraction)).getD 0)
      let power := exponent.getD 0 - fraction.length
      some (.scalar (.float (.ofDecimal negative digits power)), rest)

/-- A word at the front with its value, and what follows. -/
def readWord (cs : List Char) : Option (Value × List Char) :=
  let words : List (String × Value) :=
    [("null", .null), ("true", .bool true), ("false", .bool false), ("NaN", .float .nan),
      ("Infinity", .float (.infinite false)), ("-Infinity", .float (.infinite true))]
  (words.find? fun word => word.1.toList.isPrefixOf cs).map fun word =>
    (word.2, cs.drop word.1.toList.length)

/-- The first token of a text that starts with one, and what follows. -/
def next (cs : List Char) : Option (Token × List Char) :=
  match cs with
  | [] => none
  | c :: rest =>
    if isMark c then some (.mark c, rest)
    else if c = '"' then (readText rest).map fun (s, after) => (.text (String.ofList s), after)
    else
      match readWord cs with
      | some (v, after) => some (.scalar v, after)
      | none =>
        if c = '-' then readNumber true rest else readNumber false cs

/-- The tokens of a text; every step takes at least one character. -/
def ofChars : Nat → List Char → List Token
  | 0, _ => []
  | fuel + 1, cs =>
    match cs.dropWhile isSpace with
    | [] => []
    | cs =>
      match next cs with
      | some (token, after) => token :: ofChars fuel after
      | none => [.broken]

/-- The tokens of a text. -/
def ofText (s : String) : List Token :=
  let cs := s.toList
  ofChars (cs.length + 1) cs

end Token

end Classpath.Json
