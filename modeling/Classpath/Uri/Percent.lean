import Classpath.Text.Numeral
import Classpath.Text.Surrogate
import Classpath.Text.Utf8

/-! # Percent-encoding

The form of a path inside a URI. Encoding writes each byte of the UTF-8 form as a percent sign and
two digits, except letters, digits and `_.-~/`. Decoding reads every well-formed escape; what the
escapes of one run of ASCII characters say together is read as UTF-8, with U+FFFD for what is
ill-formed. A percent sign that starts no escape stands for itself.
-/

namespace Classpath.Uri

/-- A letter of the ASCII alphabet. -/
def isLetter (c : Char) : Bool :=
  ('a' ≤ c && c ≤ 'z') || ('A' ≤ c && c ≤ 'Z')

/-- A character that a path in a URI shows as itself. -/
def isUnreserved (c : Char) : Bool :=
  isLetter c || Text.isDigit c || c = '_' || c = '.' || c = '-' || c = '~' || c = '/'

/-- A digit of an escape. -/
def hexDigit (n : Nat) : Char :=
  if n < 10 then Char.ofNat (0x30 + n) else Char.ofNat (0x37 + n)

/-- One byte in a path. -/
def encodeByte (byte : UInt8) : List Char :=
  let c := Char.ofNat byte.toNat
  if byte.toNat < 0x80 && isUnreserved c then [c]
  else ['%', hexDigit (byte.toNat / 16), hexDigit (byte.toNat % 16)]

/-- The bytes of a character of a path. Half of a surrogate pair may stand for a byte that is no
part of a character. -/
def pathBytes (c : Char) : List UInt8 :=
  ((Text.smuggledByte? c).map ([·])).getD (String.utf8EncodeChar c)

/-- Encode a text as a path. -/
def encode (cs : List Char) : List Char :=
  (cs.flatMap pathBytes).flatMap encodeByte

/-- The byte of an escape's two digits. -/
def escaped? (high low : Char) : Option UInt8 := do
  let high ← Text.digitIn? 16 high
  let low ← Text.digitIn? 16 low
  return UInt8.ofNat (high * 16 + low)

/-- The bytes of a run of ASCII characters, escapes read. -/
def unescape : List Char → List UInt8
  | '%' :: high :: low :: rest =>
    match escaped? high low with
    | some byte => byte :: unescape rest
    | none => '%'.toUInt8 :: unescape (high :: low :: rest)
  | c :: rest => c.toUInt8 :: unescape rest
  | [] => []

/-- Decode a text of which `run` holds the ASCII characters since the last other one, reversed. -/
def decodeFrom (run : List Char) : List Char → List Char
  | [] => Text.ofUtf8Lossy (unescape run.reverse)
  | c :: rest =>
    if c.toNat < 0x80 then decodeFrom (c :: run) rest
    else Text.ofUtf8Lossy (unescape run.reverse) ++ c :: decodeFrom [] rest

/-- Decode a path. -/
def decode (cs : List Char) : List Char :=
  decodeFrom [] cs

end Classpath.Uri
