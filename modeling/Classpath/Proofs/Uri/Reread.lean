import Classpath.Proofs.Uri.Percent

/-! # Bytes that are read and written again

A path in a URI spells bytes, which are read as characters and written as bytes again. They come
back exactly when they are a text in UTF-8 (`Classpath.Uri.spellsText_iff`). Bytes that are no text
are replaced when they are read. Halves of surrogate pairs can not bring them back, because the
bytes of the stand-in for a half outnumber the one byte that the half stands for
(`Classpath.Uri.unsmuggled_of_reread`).
-/

namespace Classpath.Uri

open Text (ofUtf8Lossy smuggledByte? surrogate?)

/-! ## Counting bytes -/

/-- How many characters stand for a byte. -/
def smuggled (cs : List Char) : Nat :=
  cs.countP fun c => (smuggledByte? c).isSome

/-- How many characters stand for a given byte. -/
def smuggledAs (byte : UInt8) (cs : List Char) : Nat :=
  cs.countP fun c => smuggledByte? c = some byte

/-- Characters that stand for different bytes are different. -/
theorem smuggledAs_add_le {a b : UInt8} (apart : a ≠ b) (cs : List Char) :
    smuggledAs a cs + smuggledAs b cs ≤ smuggled cs := by
  induction cs with
  | nil => exact Nat.le_refl 0
  | cons c rest ih =>
    simp only [smuggledAs, smuggled, List.countP_cons] at ih ⊢
    cases found : smuggledByte? c with
    | none => simpa using ih
    | some byte =>
      by_cases first : byte = a
      · subst first
        simp [apart]
        omega
      · simp only [Option.some.injEq, first, decide_false, Bool.false_eq_true, ↓reduceIte,
          Option.isSome_some]
        split <;> omega

/-- The bytes of the stand-in for a half of a pair that stands for a byte start with two fixed
ones. -/
theorem bytes_of_smuggledByte? {c : Char} {byte : UInt8} (found : smuggledByte? c = some byte) :
    0xF4 ∈ String.utf8EncodeChar c ∧ 0x8D ∈ String.utf8EncodeChar c := by
  obtain ⟨code, half, found⟩ := Option.bind_eq_some_iff.mp found
  have inside : 0xDC80 ≤ code ∧ code ≤ 0xDCFF := by
    split at found
    · simp_all
    · cases found
  have value : c.toNat = 0x100000 + code := by
    unfold surrogate? Text.standInShift at half
    split at half
    next above =>
      simp only [Bool.and_eq_true, decide_eq_true_eq] at above
      have shifted := Option.some.inj half
      omega
    · cases half
  have shape := Text.utf8EncodeChar_toNat c
  rw [if_neg (by omega), if_neg (by omega), if_neg (by omega), value] at shape
  obtain ⟨first, more, split, firstValue, shape⟩ := List.map_eq_cons_iff.mp shape
  obtain ⟨second, more, rfl, secondValue, -⟩ := List.map_eq_cons_iff.mp shape
  have firstByte : first = 0xF4 := UInt8.toNat_inj.mp (by rw [firstValue]; simp; omega)
  have secondByte : second = 0x8D := UInt8.toNat_inj.mp (by rw [secondValue]; simp; omega)
  rw [split, firstByte, secondByte]
  simp

/-- Reading bytes and writing them again loses a byte of the stand-ins, unless a character stands
for that byte. -/
theorem count_reread (mark : UInt8)
    (standsIn : ∀ c byte, smuggledByte? c = some byte → mark ∈ String.utf8EncodeChar c)
    (other : mark ∉ pathBytes Text.replacement) (bytes : List UInt8) :
    ((ofUtf8Lossy bytes).flatMap pathBytes).count mark + smuggled (ofUtf8Lossy bytes) ≤
      bytes.count mark + smuggledAs mark (ofUtf8Lossy bytes) := by
  induction bytes using Text.readUtf8_induction with
  | nil => exact Nat.le_refl 0
  | whole c later ih =>
    have read : ofUtf8Lossy (String.utf8EncodeChar c ++ later) = c :: ofUtf8Lossy later := by
      rw [ofUtf8Lossy, Text.readUtf8_encode]
      rfl
    rw [read]
    simp only [List.flatMap_cons, List.count_append, smuggled, smuggledAs, List.countP_cons] at ih ⊢
    cases found : smuggledByte? c with
    | none =>
      have written : pathBytes c = String.utf8EncodeChar c := by rw [pathBytes, found]; rfl
      simp only [written, Option.isSome_none, Bool.false_eq_true, ↓reduceIte, reduceCtorEq,
        decide_false]
      omega
    | some byte =>
      have written : pathBytes c = [byte] := by rw [pathBytes, found]; rfl
      have stood := List.count_pos_iff.mpr (standsIn c byte found)
      simp only [written, List.count_singleton, Option.isSome_some, ↓reduceIte, Option.some.injEq,
        decide_eq_true_eq, beq_iff_eq]
      split <;> omega
  | illFormed part later late ended ih =>
    have read : ofUtf8Lossy (part ++ later) = Text.replacement :: ofUtf8Lossy later := by
      rw [ofUtf8Lossy, ended]
      rfl
    have whole : smuggledByte? Text.replacement = none := by decide
    rw [read]
    simp only [List.flatMap_cons, List.count_append, smuggled, smuggledAs, List.countP_cons, whole,
      List.count_eq_zero_of_not_mem other] at ih ⊢
    simp only [Option.isSome_none, Bool.false_eq_true, ↓reduceIte, reduceCtorEq, decide_false]
    omega

/-- No half of a pair is read from bytes that come back. -/
theorem unsmuggled_of_reread {bytes : List UInt8}
    (back : (ofUtf8Lossy bytes).flatMap pathBytes = bytes) :
    ∀ c ∈ ofUtf8Lossy bytes, smuggledByte? c = none := by
  have first := count_reread 0xF4
    (fun c byte found => (bytes_of_smuggledByte? found).1) (by decide) bytes
  have second := count_reread 0x8D
    (fun c byte found => (bytes_of_smuggledByte? found).2) (by decide) bytes
  have apart := smuggledAs_add_le (a := 0xF4) (b := 0x8D) (by decide) (ofUtf8Lossy bytes)
  rw [back] at first second
  have none_smuggled : smuggled (ofUtf8Lossy bytes) = 0 := by omega
  intro c member
  simpa using List.countP_eq_zero.mp none_smuggled c member

/-! ## Texts -/

/-- Some bytes are a text in UTF-8, in which no character stands for half of a pair. -/
def SpellsText (bytes : List UInt8) : Prop :=
  ∃ cs, Text.ofUtf8? bytes = some cs ∧ ∀ c ∈ cs, surrogate? c = none

theorem unpaired?_eq_none_iff {cs : List Char} {place : Nat} :
    Text.unpaired? place cs = none ↔
      ∀ c ∈ cs, smuggledByte? c = none → surrogate? c = none := by
  induction cs generalizing place with
  | nil => simp [Text.unpaired?]
  | cons c rest ih =>
    rw [Text.unpaired?]
    split
    next half carried unsmuggled => simp [carried, unsmuggled]
    next other =>
      rw [ih, List.forall_mem_cons, iff_and_self]
      intro _ unsmuggled
      cases carried : surrogate? c with
      | none => rfl
      | some half => exact absurd unsmuggled (other half carried)

theorem pathBytes_of_unsmuggled {c : Char} (whole : smuggledByte? c = none) :
    pathBytes c = String.utf8EncodeChar c := by
  rw [pathBytes, whole]
  rfl

/-- **Bytes come back exactly when they are a text.** -/
theorem spellsText_iff {bytes : List UInt8} :
    SpellsText bytes ↔ (ofUtf8Lossy bytes).flatMap pathBytes = bytes ∧
      Text.unpaired? 0 (ofUtf8Lossy bytes) = none := by
  constructor
  · rintro ⟨cs, decodes, whole⟩
    have read := Text.ofUtf8?_eq_some_iff.mp decodes
    have same : ofUtf8Lossy bytes = cs := by rw [read, Text.ofUtf8Lossy_flatMap]
    rw [same]
    refine ⟨?_, unpaired?_eq_none_iff.mpr fun c member _ => whole c member⟩
    rw [read]
    refine List.flatMap_congr fun c member => pathBytes_of_unsmuggled ?_
    rw [smuggledByte?, whole c member]
    rfl
  · rintro ⟨back, paired⟩
    have unsmuggled := unsmuggled_of_reread back
    have whole : ∀ c ∈ ofUtf8Lossy bytes, surrogate? c = none := fun c member =>
      unpaired?_eq_none_iff.mp paired c member (unsmuggled c member)
    have written : bytes = (ofUtf8Lossy bytes).flatMap String.utf8EncodeChar := by
      conv_lhs => rw [← back]
      exact List.flatMap_congr fun c member => pathBytes_of_unsmuggled (unsmuggled c member)
    exact ⟨ofUtf8Lossy bytes, Text.ofUtf8?_eq_some_iff.mpr written, whole⟩

end Classpath.Uri
