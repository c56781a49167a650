/-! # Reading UTF-8

A byte sequence is cut into characters and ill-formed parts. Each ill-formed part is the longest
start of a character that the bytes at that place allow, or a single byte. The strict reading
refuses any ill-formed part and the lenient one puts U+FFFD in its place.
-/

namespace Classpath.Text

/-- The bytes of a text in UTF-8. -/
def utf8 (s : String) : List UInt8 :=
  s.toList.flatMap String.utf8EncodeChar

/-- A character of which some bytes have been read. -/
structure Utf8Start where
  /-- Bytes still to come. -/
  missing : Nat
  /-- The bits read so far. -/
  bits : Nat
  /-- The least next byte. -/
  low : Nat
  /-- The greatest next byte. -/
  high : Nat

/-- What a byte means where a character may begin. -/
inductive Utf8Head where
  | whole (c : Char)
  | opens (start : Utf8Start)
  | illFormed

/-- Read a byte where a character may begin. Bounds on the second byte rule out long forms,
surrogates and values above U+10FFFF. -/
def Utf8Head.ofByte (byte : UInt8) : Utf8Head :=
  let n := byte.toNat
  if n < 0x80 then .whole (Char.ofNat n)
  else if n < 0xC2 then .illFormed
  else if n < 0xE0 then .opens ⟨1, n % 0x20, 0x80, 0xBF⟩
  else if n < 0xF0 then
    .opens ⟨2, n % 0x10, if n == 0xE0 then 0xA0 else 0x80, if n == 0xED then 0x9F else 0xBF⟩
  else if n < 0xF5 then
    .opens ⟨3, n % 0x8, if n == 0xF0 then 0x90 else 0x80, if n == 0xF4 then 0x8F else 0xBF⟩
  else .illFormed

/-- The characters of a byte sequence, with `none` for each ill-formed part. -/
def readUtf8 : Option Utf8Start → List UInt8 → List (Option Char)
  | none, [] => []
  | some _, [] => [none]
  | none, byte :: rest =>
    match Utf8Head.ofByte byte with
    | .whole c => some c :: readUtf8 none rest
    | .opens start => readUtf8 (some start) rest
    | .illFormed => none :: readUtf8 none rest
  | some start, byte :: rest =>
    if start.low ≤ byte.toNat && byte.toNat ≤ start.high then
      let bits := start.bits * 0x40 + byte.toNat % 0x40
      if start.missing ≤ 1 then some (Char.ofNat bits) :: readUtf8 none rest
      else readUtf8 (some ⟨start.missing - 1, bits, 0x80, 0xBF⟩) rest
    else
      none ::
        match Utf8Head.ofByte byte with
        | .whole c => some c :: readUtf8 none rest
        | .opens next => readUtf8 (some next) rest
        | .illFormed => none :: readUtf8 none rest

/-- The lenient reading. -/
def ofUtf8Lossy (bytes : List UInt8) : List Char :=
  (readUtf8 none bytes).map fun c => c.getD (Char.ofNat 0xFFFD)

/-- The strict reading. -/
def ofUtf8? (bytes : List UInt8) : Option (List Char) :=
  (readUtf8 none bytes).mapM id

end Classpath.Text
