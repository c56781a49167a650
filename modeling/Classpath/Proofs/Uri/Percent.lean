import Classpath.Proofs.Text.Utf8
import Classpath.Uri.Percent

/-! # Decoding what has been encoded

An encoded path shows only letters, digits, percent signs and `_.-~/`
(`Classpath.Uri.mem_encode`), and decoding it is reading the bytes of the path
(`Classpath.Uri.decode_encode`). Slashes are kept by both: encoding writes a slash as itself, and a
slash cuts a decoding in two (`Classpath.Uri.decode_append_slash`).
-/

namespace Classpath.Uri

/-! ## Characters of an encoded path -/

/-- The code points of the characters that a path shows as themselves. -/
theorem range_of_isUnreserved {c : Char} (shown : isUnreserved c = true) :
    (0x2D ≤ c.toNat ∧ c.toNat ≤ 0x39) ∨ (0x41 ≤ c.toNat ∧ c.toNat ≤ 0x7E) := by
  have point : ∀ d : Char, c = d → c.toNat = d.toNat := fun d same => same ▸ rfl
  simp only [isUnreserved, isLetter, Bool.or_eq_true, Bool.and_eq_true, decide_eq_true_eq,
    Char.le_def, UInt32.le_iff_toNat_le] at shown
  rcases shown with (((((letter | digit) | same) | same) | same) | same) | same
  · rcases letter with ⟨least, greatest⟩ | ⟨least, greatest⟩
    · have least : 0x61 ≤ c.toNat := least
      have greatest : c.toNat ≤ 0x7A := greatest
      omega
    · have least : 0x41 ≤ c.toNat := least
      have greatest : c.toNat ≤ 0x5A := greatest
      omega
  · obtain ⟨d, found⟩ := Option.isSome_iff_exists.mp digit
    simp only [Text.digitIn?, Option.filter_eq_some_iff, decide_eq_true_eq] at found
    obtain ⟨value, small⟩ := found
    simp only [Bool.and_eq_true, decide_eq_true_eq] at value
    split at value
    · omega
    split at value
    · simp only [Option.some.injEq] at value
      omega
    split at value
    · simp only [Option.some.injEq] at value
      omega
    · cases value
  all_goals
    have same := point _ same
    simp at same
    omega

theorem digitIn?_hexDigit : ∀ n : Fin 16, Text.digitIn? 16 (hexDigit n.val) = some n.val := by
  decide

theorem hexDigit_range : ∀ n : Fin 16,
    (0x30 ≤ (hexDigit n.val).toNat ∧ (hexDigit n.val).toNat ≤ 0x39) ∨
      (0x41 ≤ (hexDigit n.val).toNat ∧ (hexDigit n.val).toNat ≤ 0x46) := by
  decide

/-- The code points of the characters of an encoded path. -/
def Encoded (c : Char) : Prop :=
  c.toNat = 0x25 ∨ (0x2D ≤ c.toNat ∧ c.toNat ≤ 0x39) ∨ (0x41 ≤ c.toNat ∧ c.toNat ≤ 0x7E)

theorem mem_encodeByte {byte : UInt8} {c : Char} (member : c ∈ encodeByte byte) : Encoded c := by
  have bound := byte.toNat_lt
  unfold encodeByte at member
  dsimp only at member
  split at member
  next shown =>
    rw [Bool.and_eq_true] at shown
    rw [List.mem_singleton] at member
    subst member
    exact Or.inr (range_of_isUnreserved shown.2)
  next hidden =>
    simp only [List.mem_cons, List.not_mem_nil, or_false] at member
    rcases member with rfl | rfl | rfl
    · exact Or.inl rfl
    · have range := hexDigit_range ⟨byte.toNat / 16, by omega⟩
      simp only at range
      unfold Encoded
      omega
    · have range := hexDigit_range ⟨byte.toNat % 16, by omega⟩
      simp only at range
      unfold Encoded
      omega

/-- An encoded path shows only letters, digits, percent signs and `_.-~/`. -/
theorem mem_encode {cs : List Char} {c : Char} (member : c ∈ encode cs) : Encoded c := by
  obtain ⟨byte, -, member⟩ := List.mem_flatMap.mp member
  exact mem_encodeByte member

theorem Encoded.ascii {c : Char} (encoded : Encoded c) : c.toNat < 0x80 := by
  unfold Encoded at encoded
  omega

/-! ## The bytes of a path -/

/-- A half of a pair that stands for a byte stands for one that is no ASCII byte. -/
theorem late_of_smuggledByte? {c : Char} {byte : UInt8} (found : Text.smuggledByte? c = some byte) :
    0x80 ≤ byte.toNat := by
  obtain ⟨code, -, found⟩ := Option.bind_eq_some_iff.mp found
  split at found
  next inside =>
    simp only [Bool.and_eq_true, decide_eq_true_eq] at inside
    rw [← Option.some.inj found, UInt8.toNat_ofNat']
    omega
  next outside => cases found

/-- The bytes of a character of a path: only those of an ASCII character start with an ASCII
byte. -/
theorem exists_pathBytes (c : Char) :
    ∃ byte rest, pathBytes c = byte :: rest ∧
      (byte.toNat < 0x80 → c.toNat = byte.toNat ∧ rest = []) ∧
      ∀ later ∈ rest, 0x80 ≤ later.toNat := by
  unfold pathBytes
  cases found : Text.smuggledByte? c with
  | some byte =>
    have late := late_of_smuggledByte? found
    exact ⟨byte, [], rfl, fun ascii => absurd ascii (by omega), by simp⟩
  | none =>
    simp only [Option.map_none, Option.getD_none]
    have shape := Text.utf8EncodeChar_toNat c
    by_cases one : c.toNat < 0x80
    · rw [if_pos one] at shape
      obtain ⟨byte, rest, split, value, shape⟩ := List.map_eq_cons_iff.mp shape
      have last := List.map_eq_nil_iff.mp shape
      exact ⟨byte, rest, split, fun _ => ⟨value.symm, last⟩, by simp [last]⟩
    rw [if_neg one] at shape
    have late : ∀ value ∈ (String.utf8EncodeChar c).map UInt8.toNat, 0x80 ≤ value := by
      rw [shape]
      split
      · simp
      · split <;> simp
    cases split : String.utf8EncodeChar c with
    | nil => simp [String.utf8EncodeChar_ne_nil] at split
    | cons byte rest =>
      simp only [split, List.map_cons, List.mem_cons, List.mem_map, forall_eq_or_imp,
        forall_exists_index, and_imp, forall_apply_eq_imp_iff₂] at late
      exact ⟨byte, rest, rfl, fun ascii => absurd ascii (by omega), late.2⟩

theorem slash_not_mem_pathBytes {c : Char} (other : c ≠ '/') : 0x2F ∉ pathBytes c := by
  obtain ⟨byte, rest, split, first, late⟩ := exists_pathBytes c
  rw [split]
  intro member
  rcases List.mem_cons.mp member with rfl | member
  · have value := (first (by decide)).1
    exact other (Char.toNat_inj.mp value)
  · have bound := late _ member
    simp at bound

/-- A character below the stand-ins for halves of pairs has the bytes of its own. -/
theorem pathBytes_of_lt {c : Char} (low : c.toNat < Text.standInShift) :
    pathBytes c = String.utf8EncodeChar c := by
  have whole : Text.surrogate? c = none := by
    rw [Text.surrogate?, if_neg]
    simp only [Bool.and_eq_true, decide_eq_true_eq, not_and]
    omega
  simp [pathBytes, Text.smuggledByte?, whole]

theorem flatMap_pathBytes_of_lt {cs : List Char} (low : ∀ c ∈ cs, c.toNat < Text.standInShift) :
    cs.flatMap pathBytes = cs.flatMap String.utf8EncodeChar :=
  List.flatMap_congr fun c member => pathBytes_of_lt (low c member)

/-- Text with the bytes of an ASCII text is that text. -/
theorem eq_of_flatMap_pathBytes {cs ds : List Char} (ascii : ∀ d ∈ ds, d.toNat < 0x80)
    (same : cs.flatMap pathBytes = ds.flatMap String.utf8EncodeChar) : cs = ds := by
  induction ds generalizing cs with
  | nil =>
    cases cs with
    | nil => rfl
    | cons c rest =>
      obtain ⟨byte, more, split, -, -⟩ := exists_pathBytes c
      simp [split] at same
  | cons d later ih =>
    have small := ascii d List.mem_cons_self
    have shape := Text.utf8EncodeChar_toNat d
    rw [if_pos small] at shape
    obtain ⟨x, none, encoded, value, shape⟩ := List.map_eq_cons_iff.mp shape
    have last := List.map_eq_nil_iff.mp shape
    cases cs with
    | nil => simp [encoded] at same
    | cons c rest =>
      obtain ⟨byte, more, split, first, -⟩ := exists_pathBytes c
      simp only [List.flatMap_cons, split, encoded, last, List.cons_append, List.nil_append,
        List.cons.injEq] at same
      obtain ⟨rfl, same⟩ := same
      obtain ⟨code, rfl⟩ := first (by omega)
      have head : c = d := Char.toNat_inj.mp (by omega)
      rw [head, ih (fun e member => ascii e (List.mem_cons_of_mem _ member)) same]

/-- The character of a byte in the name of a file: an ASCII character, or the half of a pair that
stands for the byte. -/
def escapeByte (byte : UInt8) : Char :=
  if byte.toNat < 0x80 then Char.ofNat byte.toNat else Text.ofCode (0xDC00 + byte.toNat)

theorem smuggledByte?_escapeByte {byte : UInt8} (late : 0x80 ≤ byte.toNat) :
    Text.smuggledByte? (escapeByte byte) = some byte := by
  have bound := byte.toNat_lt
  have half : Text.isSurrogate (0xDC00 + byte.toNat) = true := by
    simp only [Text.isSurrogate, Bool.and_eq_true, decide_eq_true_eq]
    omega
  have inside : (0xDC80 ≤ 0xDC00 + byte.toNat && 0xDC00 + byte.toNat ≤ 0xDCFF) = true := by
    simp only [Bool.and_eq_true, decide_eq_true_eq]
    omega
  rw [escapeByte, if_neg (by omega), Text.smuggledByte?, Text.surrogate?_ofCode half,
    Option.bind_some, if_pos inside, Nat.add_sub_cancel_left, UInt8.ofNat_toNat]

theorem surrogate?_escapeByte {byte : UInt8} (ascii : byte.toNat < 0x80) :
    Text.surrogate? (escapeByte byte) = none := by
  have value : (Char.ofNat byte.toNat).toNat = byte.toNat := Text.toNat_ofNat (by omega)
  rw [escapeByte, if_pos ascii, Text.surrogate?, if_neg]
  simp only [value, Text.standInShift, Bool.and_eq_true, decide_eq_true_eq, not_and]
  omega

theorem pathBytes_escapeByte (byte : UInt8) : pathBytes (escapeByte byte) = [byte] := by
  by_cases ascii : byte.toNat < 0x80
  · have value : (Char.ofNat byte.toNat).toNat = byte.toNat := Text.toNat_ofNat (by omega)
    rw [escapeByte, if_pos ascii, pathBytes_of_lt (by rw [value, Text.standInShift]; omega)]
    refine (Text.eq_utf8EncodeChar ?_).symm
    rw [Text.utf8EncodeChar_toNat, value, if_pos ascii]
    rfl
  · rw [pathBytes, smuggledByte?_escapeByte (by omega)]
    rfl

/-- All bytes are the bytes of a path. -/
theorem flatMap_pathBytes_escapeByte (bytes : List UInt8) :
    (bytes.map escapeByte).flatMap pathBytes = bytes := by
  simp [List.flatMap_map, pathBytes_escapeByte]

/-- A half of a pair that stands for a byte is accepted in the name of a file. -/
theorem unpaired?_escapeByte (bytes : List UInt8) (place : Nat) :
    Text.unpaired? place (bytes.map escapeByte) = none := by
  induction bytes generalizing place with
  | nil => rfl
  | cons byte rest ih =>
    rw [List.map_cons, Text.unpaired?]
    by_cases ascii : byte.toNat < 0x80
    · rw [surrogate?_escapeByte ascii]
      exact ih _
    · rw [smuggledByte?_escapeByte (by omega)]
      simp [ih]

theorem pathBytes_slash : pathBytes '/' = [0x2F] := by
  decide

theorem encode_slash (cs : List Char) : encode ('/' :: cs) = '/' :: encode cs := by
  have slash : encodeByte 0x2F = ['/'] := by decide
  simp [encode, pathBytes_slash, slash]

/-- A text whose characters are shown as themselves is its own encoding. -/
theorem encode_eq_self {cs : List Char}
    (shown : ∀ c ∈ cs, (pathBytes c).flatMap encodeByte = [c]) : encode cs = cs := by
  rw [encode, List.flatMap_assoc, List.flatMap_congr shown, List.flatMap_singleton']

/-! ## Reading escapes -/

/-- A character that is no percent sign is read as itself. -/
theorem unescape_cons {c : Char} (plain : c ≠ '%') (rest : List Char) :
    unescape (c :: rest) = c.toUInt8 :: unescape rest := by
  rw [unescape]
  exact fun high low later percent => absurd percent plain

theorem utf8EncodeChar_of_ascii {c : Char} (ascii : c.toNat < 0x80) :
    String.utf8EncodeChar c = [c.toUInt8] := by
  refine (Text.eq_utf8EncodeChar ?_).symm
  rw [Text.utf8EncodeChar_toNat, if_pos ascii]
  have value : c.toUInt8.toNat = c.toNat := by
    change c.toNat % 256 = c.toNat
    omega
  rw [List.map_singleton, value]

/-- ASCII characters without a percent sign are read as themselves. -/
theorem unescape_of_not_mem {cs : List Char} (plain : '%' ∉ cs)
    (ascii : ∀ c ∈ cs, c.toNat < 0x80) : unescape cs = cs.flatMap String.utf8EncodeChar := by
  induction cs with
  | nil => rfl
  | cons c rest ih =>
    rw [List.mem_cons, not_or] at plain
    rw [List.forall_mem_cons] at ascii
    rw [unescape_cons (Ne.symm plain.1), ih plain.2 ascii.2, List.flatMap_cons,
      utf8EncodeChar_of_ascii ascii.1, List.singleton_append]

theorem unescape_encodeByte (byte : UInt8) (rest : List Char) :
    unescape (encodeByte byte ++ rest) = byte :: unescape rest := by
  have bound := byte.toNat_lt
  unfold encodeByte
  dsimp only
  split
  next shown =>
    simp only [Bool.and_eq_true, decide_eq_true_eq] at shown
    have value : (Char.ofNat byte.toNat).toNat = byte.toNat := Text.toNat_ofNat (by omega)
    have range := range_of_isUnreserved shown.2
    rw [List.singleton_append, unescape_cons]
    · congr 1
      rw [← UInt8.toNat_inj, Char.toUInt8, UInt32.toNat_toUInt8]
      change (Char.ofNat byte.toNat).toNat % 2 ^ 8 = byte.toNat
      omega
    · intro same
      rw [same] at range
      simp at range
  next hidden =>
    have high := digitIn?_hexDigit ⟨byte.toNat / 16, by omega⟩
    have low := digitIn?_hexDigit ⟨byte.toNat % 16, by omega⟩
    simp only at high low
    have whole : byte.toNat / 16 * 16 + byte.toNat % 16 = byte.toNat := by omega
    simp only [List.cons_append, List.nil_append, unescape, escaped?, high, low,
      Option.bind_eq_bind, Option.bind_some, Option.pure_def, whole, UInt8.ofNat_toNat]

theorem unescape_encode (bytes : List UInt8) : unescape (bytes.flatMap encodeByte) = bytes := by
  induction bytes with
  | nil => rfl
  | cons byte rest ih => rw [List.flatMap_cons, unescape_encodeByte, ih]

theorem escaped?_slash_left (low : Char) : escaped? '/' low = none := by
  have none : Text.digitIn? 16 '/' = none := by decide
  simp [escaped?, none]

theorem escaped?_slash_right (high : Char) : escaped? high '/' = none := by
  have none : Text.digitIn? 16 '/' = none := by decide
  simp [escaped?, none]

/-- No escape reaches over a slash. -/
theorem unescape_append_slash (cs ds : List Char) :
    unescape (cs ++ '/' :: ds) = unescape cs ++ 0x2F :: unescape ds := by
  have slash : ∀ ds, unescape ('/' :: ds) = 0x2F :: unescape ds :=
    fun ds => unescape_cons (by decide) ds
  fun_induction unescape cs with
  | case1 high low rest byte found ih =>
    simp only [List.cons_append, unescape, found]
    rw [ih]
  | case2 high low rest none ih =>
    simp only [List.cons_append] at ih ⊢
    rw [unescape]
    simp only [none]
    rw [ih]
  | case3 c rest short ih =>
    by_cases percent : c = '%'
    · subst percent
      match rest, short, ih with
      | [], _, ih =>
        cases ds with
        | nil => rfl
        | cons d later =>
          simp only [List.cons_append, List.nil_append] at ih ⊢
          rw [unescape, escaped?_slash_left]
          simp only
          rw [ih]
      | [high], _, ih =>
        simp only [List.cons_append, List.nil_append] at ih ⊢
        rw [unescape, escaped?_slash_right]
        simp only
        rw [ih]
      | high :: low :: later, short, _ => exact absurd rfl (short high low later rfl)
    · rw [List.cons_append, unescape_cons percent, ih, List.cons_append]
  | case4 => exact slash ds

/-! ## Decoding -/

theorem decodeFrom_of_ascii {cs : List Char} (ascii : ∀ c ∈ cs, c.toNat < 0x80)
    (run : List Char) : decodeFrom run cs = Text.ofUtf8Lossy (unescape (run.reverse ++ cs)) := by
  induction cs generalizing run with
  | nil => rw [decodeFrom, List.append_nil]
  | cons c rest ih =>
    rw [decodeFrom, if_pos (ascii c List.mem_cons_self),
      ih fun d member => ascii d (List.mem_cons_of_mem _ member)]
    simp

/-- A path without a percent sign is decoded to itself. -/
theorem decode_of_not_mem {cs : List Char} (plain : '%' ∉ cs) : decode cs = cs := by
  have read : ∀ run : List Char, '%' ∉ run → (∀ c ∈ run, c.toNat < 0x80) →
      Text.ofUtf8Lossy (unescape run.reverse) = run.reverse := by
    intro run plain ascii
    rw [unescape_of_not_mem (by simpa using plain) (by simpa using ascii),
      Text.ofUtf8Lossy_flatMap]
  have front : ∀ run : List Char, '%' ∉ run → (∀ c ∈ run, c.toNat < 0x80) →
      decodeFrom run cs = run.reverse ++ cs := by
    induction cs with
    | nil =>
      intro run free ascii
      rw [decodeFrom, read run free ascii, List.append_nil]
    | cons c rest ih =>
      intro run free ascii
      rw [List.mem_cons, not_or] at plain
      rw [decodeFrom]
      split
      next low =>
        rw [ih plain.2 _ (by simp [plain.1, free]) (List.forall_mem_cons.mpr ⟨low, ascii⟩)]
        simp
      · rw [read run free ascii, ih plain.2 [] (by simp) (by simp)]
        rfl
  exact front [] (by simp) (by simp)

/-- Decoding an encoded path is reading its bytes. -/
theorem decode_encode (cs : List Char) :
    decode (encode cs) = Text.ofUtf8Lossy (cs.flatMap pathBytes) := by
  rw [decode, decodeFrom_of_ascii fun c member => (mem_encode member).ascii]
  rw [List.reverse_nil, List.nil_append, encode, unescape_encode]

theorem decodeFrom_slash (run earlier cs : List Char) :
    decodeFrom (run ++ '/' :: earlier) cs =
      Text.ofUtf8Lossy (unescape earlier.reverse) ++ '/' :: decodeFrom run cs := by
  have cut : ∀ run : List Char,
      Text.ofUtf8Lossy (unescape (run ++ '/' :: earlier).reverse) =
        Text.ofUtf8Lossy (unescape earlier.reverse) ++
          '/' :: Text.ofUtf8Lossy (unescape run.reverse) := by
    intro run
    have split : (run ++ '/' :: earlier).reverse = earlier.reverse ++ '/' :: run.reverse := by simp
    rw [split, unescape_append_slash, Text.ofUtf8Lossy_append_ascii (by decide)]
    rfl
  induction cs generalizing run with
  | nil => rw [decodeFrom, decodeFrom, cut]
  | cons c rest ih =>
    rw [decodeFrom, decodeFrom]
    split
    · rw [← List.cons_append, ih]
    · rw [cut, List.append_assoc, List.cons_append]

/-- A slash cuts a decoding in two. -/
theorem decode_append_slash (cs ds : List Char) :
    decode (cs ++ '/' :: ds) = decode cs ++ '/' :: decode ds := by
  have cut : ∀ run : List Char,
      decodeFrom run (cs ++ '/' :: ds) = decodeFrom run cs ++ '/' :: decode ds := by
    induction cs with
    | nil =>
      intro run
      have slash : '/'.toNat < 0x80 := by decide
      have step : decodeFrom run ('/' :: ds) = decodeFrom ('/' :: run) ds := if_pos slash
      rw [List.nil_append, step]
      exact decodeFrom_slash [] run ds
    | cons c rest ih =>
      intro run
      rw [List.cons_append, decodeFrom, decodeFrom]
      split
      · exact ih _
      · rw [ih, List.append_assoc, List.cons_append]
  exact cut []

/-! ## Lengths -/

/-- Writing characters as bytes and reading these never gives more characters. -/
theorem length_ofUtf8Lossy_flatMap_le (cs : List Char) :
    (Text.ofUtf8Lossy (cs.flatMap pathBytes)).length ≤ cs.length := by
  induction cs with
  | nil => exact Nat.le_refl _
  | cons c rest ih =>
    rw [List.flatMap_cons, pathBytes, List.length_cons]
    cases Text.smuggledByte? c with
    | none =>
      have read : Text.ofUtf8Lossy (String.utf8EncodeChar c ++ rest.flatMap pathBytes) =
          c :: Text.ofUtf8Lossy (rest.flatMap pathBytes) := by
        rw [Text.ofUtf8Lossy, Text.readUtf8_encode]
        rfl
      change (Text.ofUtf8Lossy (String.utf8EncodeChar c ++ _)).length ≤ _
      rw [read]
      exact Nat.succ_le_succ ih
    | some byte =>
      have more := Text.length_ofUtf8Lossy_cons_le byte (rest.flatMap pathBytes)
      exact Nat.le_trans more (Nat.succ_le_succ ih)

theorem length_unescape_le (cs : List Char) : (unescape cs).length ≤ cs.length := by
  fun_induction unescape cs with
  | case1 high low rest byte escape ih =>
    simp only [List.length_cons]
    omega
  | case2 high low rest plain ih =>
    simp only [List.length_cons] at ih ⊢
    omega
  | case3 c rest other ih =>
    simp only [List.length_cons]
    omega
  | case4 => exact Nat.le_refl _

/-- Decoding never gives more characters. -/
theorem length_decode_le (cs : List Char) : (decode cs).length ≤ cs.length := by
  have read : ∀ run : List Char, (Text.ofUtf8Lossy (unescape run.reverse)).length ≤ run.length := by
    intro run
    have bytes := Text.length_ofUtf8Lossy_le (unescape run.reverse)
    have chars := length_unescape_le run.reverse
    rw [List.length_reverse] at chars
    omega
  have from_run : ∀ run : List Char, (decodeFrom run cs).length ≤ run.length + cs.length := by
    induction cs with
    | nil => exact read
    | cons c rest ih =>
      intro run
      rw [decodeFrom]
      split
      · have later := ih (c :: run)
        simp only [List.length_cons] at later ⊢
        omega
      · have later := ih []
        have earlier := read run
        simp only [List.length_append, List.length_cons, List.length_nil] at later ⊢
        omega
  have whole := from_run []
  rwa [List.length_nil, Nat.zero_add] at whole

end Classpath.Uri
