/-! # Halves of surrogate pairs

An escape of a document may name one half of a surrogate pair alone, which is no character. A text
carries such a half by a stand-in, the character of the last private plane that lies `0x100000`
above it. The main statement says that a stand-in tells which half it carries.
-/

namespace Classpath.Text

/-- How far a stand-in lies above the half that it carries. -/
def standInShift : Nat := 0x100000

/-- A code point that is half of a surrogate pair. -/
def isSurrogate (code : Nat) : Bool :=
  0xD800 ≤ code && code < 0xE000

/-- The character of a code point, or the stand-in for half of a pair. -/
def ofCode (code : Nat) : Char :=
  if isSurrogate code then Char.ofNat (standInShift + code) else Char.ofNat code

/-- The half of a surrogate pair that a character carries. -/
def surrogate? (c : Char) : Option Nat :=
  if standInShift ≤ c.toNat && isSurrogate (c.toNat - standInShift) then
    some (c.toNat - standInShift)
  else none

/-- The code point of a character, or the half of a surrogate pair that it carries. -/
def code (c : Char) : Nat :=
  (surrogate? c).getD c.toNat

/-- Characters with three marks of replacement for each half of a surrogate pair. -/
def withoutHalves (s : String) : String :=
  String.ofList <| s.toList.flatMap fun c =>
    if (surrogate? c).isSome then List.replicate 3 (Char.ofNat 0xFFFD) else [c]

theorem toNat_ofNat {n : Nat} (valid : n < 0xD800 ∨ 0xDFFF < n ∧ n < 0x110000) :
    (Char.ofNat n).toNat = n := by
  rw [Char.ofNat, dif_pos valid]
  rfl

/-- A half of a pair is told by its stand-in. -/
theorem surrogate?_ofCode {code : Nat} (half : isSurrogate code = true) :
    surrogate? (ofCode code) = some code := by
  have bounds : 0xD800 ≤ code ∧ code < 0xE000 := by simpa [isSurrogate] using half
  have value : (Char.ofNat (standInShift + code)).toNat = standInShift + code :=
    toNat_ofNat (by unfold standInShift; omega)
  simp [surrogate?, ofCode, half, value]

/-- The byte that a half of a pair stands for in the name of a file, where it stands for one. -/
def smuggledByte? (c : Char) : Option UInt8 :=
  (surrogate? c).bind fun code =>
    if 0xDC80 ≤ code && code ≤ 0xDCFF then some (UInt8.ofNat (code - 0xDC00)) else none

/-- Halves of surrogate pairs that no bytes stand for: the place of the first, the place of the last
of those beside it, and the first half itself. -/
structure Unpaired where
  first : Nat
  last : Nat
  half : Nat
deriving DecidableEq, Repr

/-- The first halves among some characters that no bytes stand for; `place` is the place of the
first character. Halves in front of them that stand for a byte do not count. -/
def unpaired? (place : Nat) : List Char → Option Unpaired
  | [] => none
  | c :: rest =>
    match surrogate? c, smuggledByte? c with
    | some half, none =>
      let beside := rest.takeWhile fun d => (surrogate? d).isSome
      some ⟨place, place + beside.length, half⟩
    | _, _ => unpaired? (place + 1) rest

end Classpath.Text
