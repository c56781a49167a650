import Classpath.Text.Surrogate
import Classpath.Text.Utf8
import Mathlib.Data.List.Basic

/-! # Reading UTF-8 back

The reading of the bytes of a character gives that character whatever comes next
(`Classpath.Text.readUtf8_encode`), so a text that has been written is read back
(`Classpath.Text.ofUtf8?_utf8`). In the other direction, bytes that are read without an ill-formed
part are the bytes of what is read (`Classpath.Text.eq_flatMap_of_readUtf8`). An ASCII byte cuts a
reading in two (`Classpath.Text.readUtf8_append_ascii`).
-/

namespace Classpath.Text

/-! ## The bytes of one character -/

theorem toNat_lt (c : Char) : c.toNat < 0x110000 := by
  have valid := c.valid
  simp only [UInt32.isValidChar, Nat.isValidChar] at valid
  change c.val.toNat < 0x110000
  omega

/-- The bytes of a character, told by its code point. -/
theorem utf8EncodeChar_toNat (c : Char) :
    (String.utf8EncodeChar c).map UInt8.toNat =
      if c.toNat < 0x80 then [c.toNat]
      else if c.toNat < 0x800 then [c.toNat / 0x40 + 0xC0, c.toNat % 0x40 + 0x80]
      else if c.toNat < 0x10000 then
        [c.toNat / 0x1000 + 0xE0, c.toNat / 0x40 % 0x40 + 0x80, c.toNat % 0x40 + 0x80]
      else
        [c.toNat / 0x40000 + 0xF0, c.toNat / 0x1000 % 0x40 + 0x80, c.toNat / 0x40 % 0x40 + 0x80,
          c.toNat % 0x40 + 0x80] := by
  have bound := toNat_lt c
  have value : c.val.toNat = c.toNat := rfl
  unfold String.utf8EncodeChar
  simp only [value]
  generalize c.toNat = n at bound
  have step : ∀ m, m < 0x100 → (UInt8.ofNat m).toNat = m := fun m small => by
    simp [Nat.mod_eq_of_lt small]
  by_cases one : n < 0x80
  · rw [if_pos (by omega), if_pos one]
    simp only [List.map_cons, List.map_nil]
    rw [step n (by omega)]
  by_cases two : n < 0x800
  · rw [if_neg (by omega), if_pos (by omega), if_neg one, if_pos two]
    simp only [List.map_cons, List.map_nil]
    rw [step _ (by omega), step _ (by omega), Nat.mod_eq_of_lt (by omega : n / 64 < 32)]
  by_cases three : n < 0x10000
  · rw [if_neg (by omega), if_neg (by omega), if_pos (by omega), if_neg one, if_neg two,
      if_pos three]
    simp only [List.map_cons, List.map_nil]
    rw [step _ (by omega), step _ (by omega), step _ (by omega),
      Nat.mod_eq_of_lt (by omega : n / 4096 < 16)]
  · rw [if_neg (by omega), if_neg (by omega), if_neg (by omega), if_neg one, if_neg two,
      if_neg three]
    simp only [List.map_cons, List.map_nil]
    rw [step _ (by omega), step _ (by omega), step _ (by omega), step _ (by omega),
      Nat.mod_eq_of_lt (by omega : n / 262144 < 8)]

/-! ## Single bytes -/

theorem readUtf8_ascii {byte : UInt8} (ascii : byte.toNat < 0x80) (rest : List UInt8) :
    readUtf8 none (byte :: rest) = some (Char.ofNat byte.toNat) :: readUtf8 none rest := by
  simp [readUtf8, Utf8Head.ofByte, ascii]

/-- The state after the first byte of a character of two bytes or more. -/
theorem readUtf8_opening {a : UInt8} (least : 0xC2 ≤ a.toNat) (greatest : a.toNat < 0xF5)
    (rest : List UInt8) :
    readUtf8 none (a :: rest) =
      readUtf8 (some
        (if a.toNat < 0xE0 then ⟨1, a.toNat % 0x20, 0x80, 0xBF⟩
        else if a.toNat < 0xF0 then
          ⟨2, a.toNat % 0x10, if a.toNat == 0xE0 then 0xA0 else 0x80,
            if a.toNat == 0xED then 0x9F else 0xBF⟩
        else
          ⟨3, a.toNat % 0x8, if a.toNat == 0xF0 then 0x90 else 0x80,
            if a.toNat == 0xF4 then 0x8F else 0xBF⟩)) rest := by
  have notAscii : ¬ a.toNat < 0x80 := by omega
  have notEarly : ¬ a.toNat < 0xC2 := by omega
  rw [readUtf8, Utf8Head.ofByte]
  simp only [notAscii, notEarly, ↓reduceIte, greatest]
  by_cases two : a.toNat < 0xE0
  · simp only [two, ↓reduceIte]
  by_cases three : a.toNat < 0xF0
  · simp only [two, three, ↓reduceIte]
  · simp only [two, three, ↓reduceIte]

theorem readUtf8_last {start : Utf8Start} {byte : UInt8} (least : start.low ≤ byte.toNat)
    (greatest : byte.toNat ≤ start.high) (last : start.missing ≤ 1) (rest : List UInt8) :
    readUtf8 (some start) (byte :: rest) =
      some (Char.ofNat (start.bits * 0x40 + byte.toNat % 0x40)) :: readUtf8 none rest := by
  simp [readUtf8, least, greatest, last]

theorem readUtf8_middle {start : Utf8Start} {byte : UInt8} (least : start.low ≤ byte.toNat)
    (greatest : byte.toNat ≤ start.high) (more : ¬ start.missing ≤ 1) (rest : List UInt8) :
    readUtf8 (some start) (byte :: rest) =
      readUtf8 (some ⟨start.missing - 1, start.bits * 0x40 + byte.toNat % 0x40, 0x80, 0xBF⟩)
        rest := by
  simp [readUtf8, least, greatest, more]

/-! ## Reading a character back -/

/-- The bytes of a character are read as that character, whatever comes next. -/
theorem readUtf8_encode (c : Char) (rest : List UInt8) :
    readUtf8 none (String.utf8EncodeChar c ++ rest) = some c :: readUtf8 none rest := by
  have bound := toNat_lt c
  have whole : ∀ n, n = c.toNat → Char.ofNat n = c := fun n same => by
    rw [same, Char.ofNat_toNat]
  have shape := utf8EncodeChar_toNat c
  have half := c.valid
  simp only [UInt32.isValidChar, Nat.isValidChar] at half
  change c.toNat < 0xD800 ∨ 0xDFFF < c.toNat ∧ _ at half
  by_cases one : c.toNat < 0x80
  · rw [if_pos one] at shape
    obtain ⟨a, _, split, valueA, shape⟩ := List.map_eq_cons_iff.mp shape
    rw [split, List.map_eq_nil_iff.mp shape, List.singleton_append,
      readUtf8_ascii (by omega), whole _ valueA]
  rw [if_neg one] at shape
  by_cases two : c.toNat < 0x800
  · rw [if_pos two] at shape
    obtain ⟨a, _, split, valueA, shape⟩ := List.map_eq_cons_iff.mp shape
    obtain ⟨b, _, rfl, valueB, shape⟩ := List.map_eq_cons_iff.mp shape
    rw [split, List.map_eq_nil_iff.mp shape]
    simp only [List.cons_append, List.nil_append]
    rw [readUtf8_opening (by omega) (by omega), if_pos (by omega),
      readUtf8_last (by simp only; omega) (by simp only; omega) (by simp only; omega)]
    simp only
    rw [whole _ (by omega)]
  rw [if_neg two] at shape
  by_cases three : c.toNat < 0x10000
  · rw [if_pos three] at shape
    obtain ⟨a, _, split, valueA, shape⟩ := List.map_eq_cons_iff.mp shape
    obtain ⟨b, _, rfl, valueB, shape⟩ := List.map_eq_cons_iff.mp shape
    obtain ⟨d, _, rfl, valueD, shape⟩ := List.map_eq_cons_iff.mp shape
    rw [split, List.map_eq_nil_iff.mp shape]
    simp only [List.cons_append, List.nil_append]
    rw [readUtf8_opening (by omega) (by omega), if_neg (by omega), if_pos (by omega),
      readUtf8_middle ?_ ?_ (by simp only; omega),
      readUtf8_last (by simp only; omega) (by simp only; omega) (by simp only; omega)]
    · simp only
      rw [whole _ (by omega)]
    · simp only [beq_iff_eq]
      split <;> omega
    · simp only [beq_iff_eq]
      split <;> omega
  · rw [if_neg three] at shape
    obtain ⟨a, _, split, valueA, shape⟩ := List.map_eq_cons_iff.mp shape
    obtain ⟨b, _, rfl, valueB, shape⟩ := List.map_eq_cons_iff.mp shape
    obtain ⟨d, _, rfl, valueD, shape⟩ := List.map_eq_cons_iff.mp shape
    obtain ⟨e, _, rfl, valueE, shape⟩ := List.map_eq_cons_iff.mp shape
    rw [split, List.map_eq_nil_iff.mp shape]
    simp only [List.cons_append, List.nil_append]
    rw [readUtf8_opening (by omega) (by omega), if_neg (by omega), if_neg (by omega),
      readUtf8_middle ?_ ?_ (by simp only; omega),
      readUtf8_middle (by simp only; omega) (by simp only; omega) (by simp only; omega),
      readUtf8_last (by simp only; omega) (by simp only; omega) (by simp only; omega)]
    · simp only
      rw [whole _ (by omega)]
    · simp only [beq_iff_eq]
      split <;> omega
    · simp only [beq_iff_eq]
      split <;> omega

theorem readUtf8_flatMap (cs : List Char) (rest : List UInt8) :
    readUtf8 none (cs.flatMap String.utf8EncodeChar ++ rest) =
      cs.map some ++ readUtf8 none rest := by
  induction cs with
  | nil => rfl
  | cons c later ih =>
    rw [List.flatMap_cons, List.append_assoc, readUtf8_encode, ih, List.map_cons, List.cons_append]

/-- A text that has been written is read back. -/
theorem ofUtf8?_utf8 (s : String) : ofUtf8? (utf8 s) = some s.toList := by
  have read := readUtf8_flatMap s.toList []
  rw [List.append_nil] at read
  rw [ofUtf8?, utf8, read]
  have strict : ∀ cs : List Char, (cs.map some ++ readUtf8 none []).mapM id = some cs := by
    intro cs
    induction cs with
    | nil => rfl
    | cons c later ih => simp_all [readUtf8]
  exact strict s.toList

theorem ofUtf8Lossy_flatMap (cs : List Char) :
    ofUtf8Lossy (cs.flatMap String.utf8EncodeChar) = cs := by
  have read := readUtf8_flatMap cs []
  rw [List.append_nil] at read
  rw [ofUtf8Lossy, read]
  simp [readUtf8, Function.comp_def]

/-! ## Characters and ill-formed parts -/

/-- Within a character, a byte outside of the bounds ends an ill-formed part. -/
theorem readUtf8_some_cases (start : Utf8Start) (bytes : List UInt8) :
    (∃ byte rest, bytes = byte :: rest ∧ start.low ≤ byte.toNat ∧ byte.toNat ≤ start.high) ∨
      readUtf8 (some start) bytes = none :: readUtf8 none bytes := by
  cases bytes with
  | nil => exact Or.inr rfl
  | cons byte rest =>
    by_cases inside : (start.low ≤ byte.toNat && byte.toNat ≤ start.high) = true
    · simp only [Bool.and_eq_true, decide_eq_true_eq] at inside
      exact Or.inl ⟨byte, rest, rfl, inside⟩
    · right
      conv_lhs => rw [readUtf8, if_neg inside]
      cases head : Utf8Head.ofByte byte <;> simp [readUtf8, head]

/-- Bytes with the values of the bytes of a character are its bytes. -/
theorem eq_utf8EncodeChar {c : Char} {bytes : List UInt8}
    (values : bytes.map UInt8.toNat = (String.utf8EncodeChar c).map UInt8.toNat) :
    bytes = String.utf8EncodeChar c :=
  List.map_injective_iff.mpr (fun _ _ => UInt8.toNat_inj.mp) values

/-- The bytes start with a character that is read. -/
def OpensWhole (bytes : List UInt8) : Prop :=
  ∃ c later, bytes = String.utf8EncodeChar c ++ later

/-- The bytes start with an ill-formed part, which has no ASCII byte. -/
def OpensIllFormed (bytes : List UInt8) : Prop :=
  ∃ part later, bytes = part ++ later ∧ part ≠ [] ∧ (∀ byte ∈ part, 0x80 ≤ byte.toNat) ∧
    readUtf8 none bytes = none :: readUtf8 none later

/-- Bytes that start with the values of a character start with that character. -/
theorem opensWhole_of_values (n : Nat) (part : List UInt8) (later : List UInt8)
    (values : part.map UInt8.toNat = (String.utf8EncodeChar (Char.ofNat n)).map UInt8.toNat) :
    OpensWhole (part ++ later) :=
  ⟨Char.ofNat n, later, by rw [eq_utf8EncodeChar values]⟩

theorem opensWhole_one {a : UInt8} (ascii : a.toNat < 0x80) (later : List UInt8) :
    OpensWhole (a :: later) := by
  apply opensWhole_of_values a.toNat [a] later
  rw [utf8EncodeChar_toNat, toNat_ofNat (by omega), if_pos ascii]
  rfl

theorem opensWhole_two {a b : UInt8} (first : 0xC2 ≤ a.toNat ∧ a.toNat < 0xE0)
    (second : 0x80 ≤ b.toNat ∧ b.toNat ≤ 0xBF) (later : List UInt8) :
    OpensWhole (a :: b :: later) := by
  apply opensWhole_of_values (a.toNat % 0x20 * 0x40 + b.toNat % 0x40) [a, b] later
  rw [utf8EncodeChar_toNat, toNat_ofNat (by omega), if_neg (by omega), if_pos (by omega)]
  simp only [List.map_cons, List.map_nil, List.cons.injEq, and_true]
  omega

theorem opensWhole_three {a b c : UInt8} (first : 0xE0 ≤ a.toNat ∧ a.toNat < 0xF0)
    (low : (if a.toNat = 0xE0 then 0xA0 else 0x80) ≤ b.toNat)
    (high : b.toNat ≤ if a.toNat = 0xED then 0x9F else 0xBF)
    (third : 0x80 ≤ c.toNat ∧ c.toNat ≤ 0xBF) (later : List UInt8) :
    OpensWhole (a :: b :: c :: later) := by
  have long : a.toNat = 0xE0 → 0xA0 ≤ b.toNat := fun same => by rwa [if_pos same] at low
  have half : a.toNat = 0xED → b.toNat ≤ 0x9F := fun same => by rwa [if_pos same] at high
  have least : 0x80 ≤ b.toNat := by split at low <;> omega
  have greatest : b.toNat ≤ 0xBF := by split at high <;> omega
  refine opensWhole_of_values ((a.toNat % 0x10 * 0x40 + b.toNat % 0x40) * 0x40 + c.toNat % 0x40)
    [a, b, c] later ?_
  rw [utf8EncodeChar_toNat, toNat_ofNat (by omega), if_neg (by omega), if_neg (by omega),
    if_pos (by omega)]
  simp only [List.map_cons, List.map_nil, List.cons.injEq, and_true]
  omega

theorem opensWhole_four {a b c d : UInt8} (first : 0xF0 ≤ a.toNat ∧ a.toNat < 0xF5)
    (low : (if a.toNat = 0xF0 then 0x90 else 0x80) ≤ b.toNat)
    (high : b.toNat ≤ if a.toNat = 0xF4 then 0x8F else 0xBF)
    (third : 0x80 ≤ c.toNat ∧ c.toNat ≤ 0xBF) (fourth : 0x80 ≤ d.toNat ∧ d.toNat ≤ 0xBF)
    (later : List UInt8) : OpensWhole (a :: b :: c :: d :: later) := by
  have long : a.toNat = 0xF0 → 0x90 ≤ b.toNat := fun same => by rwa [if_pos same] at low
  have last : a.toNat = 0xF4 → b.toNat ≤ 0x8F := fun same => by rwa [if_pos same] at high
  have least : 0x80 ≤ b.toNat := by split at low <;> omega
  have greatest : b.toNat ≤ 0xBF := by split at high <;> omega
  refine opensWhole_of_values
    (((a.toNat % 0x8 * 0x40 + b.toNat % 0x40) * 0x40 + c.toNat % 0x40) * 0x40 + d.toNat % 0x40)
    [a, b, c, d] later ?_
  rw [utf8EncodeChar_toNat, toNat_ofNat (by omega), if_neg (by omega), if_neg (by omega),
    if_neg (by omega)]
  simp only [List.map_cons, List.map_nil, List.cons.injEq, and_true]
  omega

/-- An ill-formed part that ends after some bytes. -/
theorem opensIllFormed_of_ended (part : List UInt8) {later : List UInt8} (opened : part ≠ [])
    (late : ∀ byte ∈ part, 0x80 ≤ byte.toNat)
    (ended : readUtf8 none (part ++ later) = none :: readUtf8 none later) :
    OpensIllFormed (part ++ later) :=
  ⟨part, later, rfl, opened, late, ended⟩

/-- Where a character may begin, there is a character or an ill-formed part. -/
theorem opensWhole_or_opensIllFormed (a : UInt8) (bytes : List UInt8) :
    OpensWhole (a :: bytes) ∨ OpensIllFormed (a :: bytes) := by
  by_cases ascii : a.toNat < 0x80
  · exact Or.inl (opensWhole_one ascii bytes)
  by_cases outside : a.toNat < 0xC2 ∨ 0xF5 ≤ a.toNat
  · right
    apply opensIllFormed_of_ended [a] (by simp) (by simpa using ascii)
    have illFormed : Utf8Head.ofByte a = .illFormed := by
      rw [Utf8Head.ofByte]
      rcases outside with early | late
      · simp only [ascii, early, ↓reduceIte]
      · simp only [ascii, show ¬ a.toNat < 0xC2 by omega, show ¬ a.toNat < 0xE0 by omega,
          show ¬ a.toNat < 0xF0 by omega, show ¬ a.toNat < 0xF5 by omega, ↓reduceIte]
    rw [List.singleton_append, readUtf8, illFormed]
  have opening := fun rest => readUtf8_opening (a := a) (by omega) (by omega) rest
  by_cases two : a.toNat < 0xE0
  · simp only [if_pos two] at opening
    rcases readUtf8_some_cases ⟨1, a.toNat % 0x20, 0x80, 0xBF⟩ bytes with
      ⟨b, later, rfl, second⟩ | ended
    · exact Or.inl (opensWhole_two ⟨by omega, two⟩ second later)
    · exact Or.inr (opensIllFormed_of_ended [a] (by simp) (by simpa using ascii)
        ((opening _).trans ended))
  by_cases three : a.toNat < 0xF0
  · simp only [if_neg two, if_pos three, beq_iff_eq] at opening
    rcases readUtf8_some_cases ⟨2, a.toNat % 0x10, if a.toNat = 0xE0 then 0xA0 else 0x80,
        if a.toNat = 0xED then 0x9F else 0xBF⟩ bytes with ⟨b, rest, rfl, low, high⟩ | ended
    · have middle := fun rest => readUtf8_middle low high (by simp) rest
      have late : 0x80 ≤ b.toNat := by
        simp only at low
        split at low <;> omega
      rcases readUtf8_some_cases ⟨1, a.toNat % 0x10 * 0x40 + b.toNat % 0x40, 0x80, 0xBF⟩ rest with
        ⟨c, later, rfl, third⟩ | ended
      · exact Or.inl (opensWhole_three ⟨by omega, three⟩ low high third later)
      · exact Or.inr (opensIllFormed_of_ended [a, b] (by simp) (by simp; omega)
          ((opening _).trans ((middle _).trans ended)))
    · exact Or.inr (opensIllFormed_of_ended [a] (by simp) (by simpa using ascii)
        ((opening _).trans ended))
  · simp only [if_neg two, if_neg three, beq_iff_eq] at opening
    rcases readUtf8_some_cases ⟨3, a.toNat % 0x8, if a.toNat = 0xF0 then 0x90 else 0x80,
        if a.toNat = 0xF4 then 0x8F else 0xBF⟩ bytes with ⟨b, rest, rfl, low, high⟩ | ended
    · have middle := fun rest => readUtf8_middle low high (by simp) rest
      have late : 0x80 ≤ b.toNat := by
        simp only at low
        split at low <;> omega
      rcases readUtf8_some_cases ⟨2, a.toNat % 0x8 * 0x40 + b.toNat % 0x40, 0x80, 0xBF⟩ rest with
        ⟨c, rest, rfl, third⟩ | ended
      · have next := fun rest => readUtf8_middle third.1 third.2 (by simp) rest
        rcases readUtf8_some_cases
            ⟨1, (a.toNat % 0x8 * 0x40 + b.toNat % 0x40) * 0x40 + c.toNat % 0x40, 0x80, 0xBF⟩ rest
          with ⟨d, later, rfl, fourth⟩ | ended
        · exact Or.inl (opensWhole_four ⟨by omega, by omega⟩ low high third fourth later)
        · exact Or.inr (opensIllFormed_of_ended [a, b, c] (by simp)
            (by simp only at third; simp; omega)
            ((opening _).trans ((middle _).trans ((next _).trans ended))))
      · exact Or.inr (opensIllFormed_of_ended [a, b] (by simp) (by simp; omega)
          ((opening _).trans ((middle _).trans ended)))
    · exact Or.inr (opensIllFormed_of_ended [a] (by simp) (by simpa using ascii)
        ((opening _).trans ended))

/-- Induction over the characters and the ill-formed parts that bytes fall into. -/
theorem readUtf8_induction {motive : List UInt8 → Prop} (nil : motive [])
    (whole : ∀ c later, motive later → motive (String.utf8EncodeChar c ++ later))
    (illFormed : ∀ part later, (∀ byte ∈ part, 0x80 ≤ byte.toNat) →
      readUtf8 none (part ++ later) = none :: readUtf8 none later →
      motive later → motive (part ++ later))
    (bytes : List UInt8) : motive bytes := by
  induction size : bytes.length using Nat.strongRecOn generalizing bytes with
  | _ n ih =>
    subst size
    cases bytes with
    | nil => exact nil
    | cons byte rest =>
      rcases opensWhole_or_opensIllFormed byte rest with
        ⟨c, later, split⟩ | ⟨part, later, split, some_part, late, read⟩
      · rw [split] at ih ⊢
        refine whole c later (ih later.length ?_ later rfl)
        simp [String.length_utf8EncodeChar, Char.utf8Size_pos]
      · rw [split] at ih read ⊢
        refine illFormed part later late read (ih later.length ?_ later rfl)
        rw [List.length_append]
        have := List.length_pos_iff.mpr some_part
        omega

/-- The bytes of a reading without ill-formed parts are the bytes of what is read. -/
theorem eq_flatMap_of_readUtf8 {bytes : List UInt8} {cs : List Char}
    (read : readUtf8 none bytes = cs.map some) : bytes = cs.flatMap String.utf8EncodeChar := by
  induction bytes using readUtf8_induction generalizing cs with
  | nil => cases cs <;> simp_all [readUtf8]
  | whole c later ih =>
    rw [readUtf8_encode] at read
    obtain ⟨d, more, rfl, value, rest⟩ := List.map_eq_cons_iff.mp read.symm
    cases value
    rw [List.flatMap_cons, ih rest.symm]
  | illFormed part later late ended ih =>
    rw [ended] at read
    cases cs <;> simp at read

/-- A character that is read has its bytes among the bytes. -/
theorem utf8EncodeChar_subset {bytes : List UInt8} {c : Char}
    (read : some c ∈ readUtf8 none bytes) : String.utf8EncodeChar c ⊆ bytes := by
  induction bytes using readUtf8_induction with
  | nil => simp [readUtf8] at read
  | whole d later ih =>
    rw [readUtf8_encode] at read
    rcases List.mem_cons.mp read with same | read
    · cases same
      exact List.subset_append_left _ _
    · exact List.subset_append_of_subset_right _ (ih read)
  | illFormed part later late ended ih =>
    rw [ended] at read
    rcases List.mem_cons.mp read with same | read
    · cases same
    · exact List.subset_append_of_subset_right _ (ih read)

/-- The mark of an ill-formed part. -/
def replacement : Char := Char.ofNat 0xFFFD

/-- The lenient reading of bytes is a text without marks of replacement only for the bytes of that
text. -/
theorem ofUtf8Lossy_eq_iff {bytes : List UInt8} {cs : List Char} (unmarked : replacement ∉ cs) :
    ofUtf8Lossy bytes = cs ↔ bytes = cs.flatMap String.utf8EncodeChar := by
  constructor
  · intro read
    apply eq_flatMap_of_readUtf8
    rw [← read, ofUtf8Lossy, List.map_map]
    refine (List.map_congr_left fun item member => ?_).trans (List.map_id _) |>.symm
    cases item with
    | some c => rfl
    | none =>
      refine absurd ?_ unmarked
      rw [← read, ofUtf8Lossy]
      exact List.mem_map.mpr ⟨none, member, rfl⟩
  · rintro rfl
    exact ofUtf8Lossy_flatMap cs

theorem eq_map_some_of_mapM {items : List (Option Char)} {cs : List Char}
    (read : items.mapM id = some cs) : items = cs.map some := by
  induction items generalizing cs with
  | nil => simpa using read
  | cons item rest ih =>
    cases item with
    | none => simp at read
    | some c =>
      simp only [List.mapM_cons, id_eq, Option.pure_def, Option.bind_eq_bind, Option.bind_some,
        Option.bind_eq_some_iff, Option.some.injEq] at read
      obtain ⟨more, later, rfl⟩ := read
      rw [ih later, List.map_cons]

/-- The strict reading gives a text for the bytes of that text only. -/
theorem ofUtf8?_eq_some_iff {bytes : List UInt8} {cs : List Char} :
    ofUtf8? bytes = some cs ↔ bytes = cs.flatMap String.utf8EncodeChar := by
  constructor
  · intro decodes
    exact eq_flatMap_of_readUtf8 (eq_map_some_of_mapM decodes)
  · rintro rfl
    have back := ofUtf8?_utf8 (String.ofList cs)
    rwa [utf8, String.toList_ofList] at back

/-! ## ASCII bytes -/

/-- The bytes that go on with a character are neither ASCII bytes nor first bytes. -/
theorem range_of_ofByte {byte : UInt8} {start : Utf8Start}
    (opens : Utf8Head.ofByte byte = .opens start) : 0x80 ≤ start.low ∧ start.high ≤ 0xBF := by
  unfold Utf8Head.ofByte at opens
  dsimp only at opens
  split at opens
  · cases opens
  split at opens
  · cases opens
  split at opens
  · cases opens
    exact ⟨Nat.le_refl _, Nat.le_refl _⟩
  split at opens
  · cases opens
    dsimp only
    refine ⟨?_, ?_⟩ <;> split <;> omega
  split at opens
  · cases opens
    dsimp only
    refine ⟨?_, ?_⟩ <;> split <;> omega
  · cases opens

/-- A reading is cut in two by an ASCII byte. -/
theorem readUtf8_append_ascii {byte : UInt8} (ascii : byte.toNat < 0x80) (rest : List UInt8)
    (bytes : List UInt8) {state : Option Utf8Start} (late : ∀ start ∈ state, 0x80 ≤ start.low) :
    readUtf8 state (bytes ++ byte :: rest) =
      readUtf8 state bytes ++ some (Char.ofNat byte.toNat) :: readUtf8 none rest := by
  have head : Utf8Head.ofByte byte = .whole (Char.ofNat byte.toNat) := if_pos ascii
  induction bytes generalizing state with
  | nil =>
    cases state with
    | none => exact readUtf8_ascii ascii rest
    | some start =>
      have least := late start rfl
      have outside : ¬ start.low ≤ byte.toNat := by omega
      simp [readUtf8, outside, head]
  | cons b later ih =>
    have fresh : ∀ start ∈ (none : Option Utf8Start), 0x80 ≤ start.low := by simp
    have opening : ∀ {start}, Utf8Head.ofByte b = .opens start →
        ∀ next ∈ some start, 0x80 ≤ next.low := by
      rintro start opens next ⟨⟩
      exact (range_of_ofByte opens).1
    cases state with
    | none =>
      rw [List.cons_append, readUtf8, readUtf8]
      cases head : Utf8Head.ofByte b with
      | whole c => simp [ih fresh]
      | opens start => simp [ih (opening head)]
      | illFormed => simp [ih fresh]
    | some start =>
      rw [List.cons_append, readUtf8, readUtf8]
      split
      · dsimp only
        split
        · simp [ih fresh]
        · apply ih
          rintro next ⟨⟩
          exact Nat.le_refl _
      · cases head : Utf8Head.ofByte b with
        | whole c => simp [ih fresh]
        | opens next => simp [ih (opening head)]
        | illFormed => simp [ih fresh]

theorem ofUtf8Lossy_append_ascii {byte : UInt8} (ascii : byte.toNat < 0x80)
    (bytes rest : List UInt8) :
    ofUtf8Lossy (bytes ++ byte :: rest) =
      ofUtf8Lossy bytes ++ Char.ofNat byte.toNat :: ofUtf8Lossy rest := by
  rw [ofUtf8Lossy, readUtf8_append_ascii ascii rest bytes (by simp)]
  simp [ofUtf8Lossy]

/-! ## Lengths -/

/-- A byte that goes on with a character opens none. -/
theorem readUtf8_continuing {byte : UInt8} (least : 0x80 ≤ byte.toNat)
    (greatest : byte.toNat ≤ 0xBF) (rest : List UInt8) : readUtf8 none (byte :: rest) = none :: readUtf8 none rest := by
  have head : Utf8Head.ofByte byte = .illFormed := by
    rw [Utf8Head.ofByte, if_neg (by omega), if_pos (by omega)]
  rw [readUtf8, head]

/-- The start of a character adds at most one character to what is read after it. -/
theorem length_readUtf8_some_le {start : Utf8Start} (low : 0x80 ≤ start.low)
    (high : start.high ≤ 0xBF) (bytes : List UInt8) :
    (readUtf8 (some start) bytes).length ≤ (readUtf8 none bytes).length + 1 := by
  induction bytes generalizing start with
  | nil => exact Nat.le_refl _
  | cons byte rest ih =>
    rcases readUtf8_some_cases start (byte :: rest) with ⟨_, _, ⟨⟩, least, greatest⟩ | ended
    · rw [readUtf8_continuing (by omega) (by omega), List.length_cons]
      by_cases last : start.missing ≤ 1
      · rw [readUtf8_last least greatest last, List.length_cons]
        omega
      · rw [readUtf8_middle least greatest last]
        exact Nat.le_succ_of_le (ih (Nat.le_refl 0x80) (Nat.le_refl 0xBF))
    · exact Nat.le_of_eq (congrArg List.length ended)

theorem length_ofUtf8Lossy_cons_le (byte : UInt8) (rest : List UInt8) :
    (ofUtf8Lossy (byte :: rest)).length ≤ (ofUtf8Lossy rest).length + 1 := by
  rw [ofUtf8Lossy, ofUtf8Lossy, List.length_map, List.length_map, readUtf8]
  cases head : Utf8Head.ofByte byte with
  | whole c => exact Nat.le_refl _
  | opens start =>
    obtain ⟨low, high⟩ := range_of_ofByte head
    exact length_readUtf8_some_le low high rest
  | illFormed => exact Nat.le_refl _

/-- Bytes are at least as many as the characters that are read from them. -/
theorem length_ofUtf8Lossy_le (bytes : List UInt8) : (ofUtf8Lossy bytes).length ≤ bytes.length := by
  induction bytes with
  | nil => exact Nat.le_refl _
  | cons byte rest ih =>
    exact Nat.le_trans (length_ofUtf8Lossy_cons_le byte rest) (Nat.succ_le_succ ih)

end Classpath.Text
