import Classpath.Path
import Classpath.Proofs.Uri.Percent

/-! # Paths and their texts

A normal path is one whose names are names: not empty, no single dot and without a slash. Every
path that is read is normal (`Classpath.Path.normal_ofText`), a normal path is read back from its
text (`Classpath.Path.ofText_text`), and collapsing keeps a normal absolute path that goes up
nowhere (`Classpath.Path.collapse_of_plain`). Decoding the encoded text of a path keeps its shape
(`Classpath.Path.ofText_decode_encode`).
-/

namespace Classpath.Path

/-! ## Normal paths -/

/-- A text that can stand between the slashes of a path. -/
def IsName (name : String) : Prop :=
  name ≠ "" ∧ name ≠ "." ∧ '/' ∉ name.toList

/-- A path made of names. -/
def Normal (p : Path) : Prop :=
  ∀ name ∈ p.names, IsName name

/-- The names between the slashes of some characters. -/
def namesIn (cs : List Char) : List String :=
  ((cs.splitOn '/').map String.ofList).filter fun name => name ≠ "" && name ≠ "."

theorem ofText_ofList (cs : List Char) : ofText (String.ofList cs) = ⟨startOf cs, namesIn cs⟩ := by
  simp [ofText, segments, namesIn]

theorem not_mem_of_mem_splitOn {α : Type*} [BEq α] [LawfulBEq α] {mark : α} {cs part : List α}
    (member : part ∈ cs.splitOn mark) : mark ∉ part := by
  induction cs generalizing part with
  | nil => simp_all
  | cons c rest ih =>
    rw [List.splitOn_cons_eq_if_modifyHead] at member
    split at member
    · rcases List.mem_cons.mp member with rfl | member
      · simp
      · exact ih member
    · next other =>
      cases split : rest.splitOn mark with
      | nil => exact absurd split (List.splitOn_ne_nil _ _)
      | cons first later =>
        rw [split, List.modifyHead_cons] at member
        rcases List.mem_cons.mp member with rfl | member
        · have kept := ih (split ▸ List.mem_cons_self)
          simp only [List.mem_cons, not_or]
          refine ⟨fun same => other ?_, kept⟩
          rw [same, beq_self_eq_true]
        · exact ih (split ▸ List.mem_cons_of_mem _ member)

theorem isName_of_mem_namesIn {cs : List Char} {name : String} (member : name ∈ namesIn cs) :
    IsName name := by
  obtain ⟨member, kept⟩ := List.mem_filter.mp member
  obtain ⟨part, inside, rfl⟩ := List.mem_map.mp member
  simp only [ne_eq, Bool.and_eq_true, decide_eq_true_eq] at kept
  refine ⟨kept.1, kept.2, ?_⟩
  rw [String.toList_ofList]
  exact not_mem_of_mem_splitOn inside

/-- A path that is read is normal. -/
theorem normal_ofText (s : String) : (ofText s).Normal := by
  rw [← String.ofList_toList (s := s), ofText_ofList]
  exact fun name member => isName_of_mem_namesIn member

theorem namesIn_append_slash (cs ds : List Char) :
    namesIn (cs ++ '/' :: ds) = namesIn cs ++ namesIn ds := by
  simp [namesIn, List.splitOn_append_cons_self]

theorem namesIn_nil : namesIn [] = [] := by
  decide

theorem namesIn_slash (cs : List Char) : namesIn ('/' :: cs) = namesIn cs :=
  namesIn_append_slash [] cs

theorem namesIn_singleton {name : String} (named : IsName name) :
    namesIn name.toList = [name] := by
  obtain ⟨some_name, notDot, whole⟩ := named
  simp [namesIn, List.splitOn_eq_singleton whole, some_name, notDot]

/-- Names are read back from between slashes. -/
theorem namesIn_intercalate {names : List String} (named : ∀ name ∈ names, IsName name) :
    namesIn (List.intercalate ['/'] (names.map String.toList)) = names := by
  induction names with
  | nil => exact namesIn_nil
  | cons name rest ih =>
    have first := namesIn_singleton (named name List.mem_cons_self)
    have later := ih fun other member => named other (List.mem_cons_of_mem _ member)
    cases rest with
    | nil => simpa [List.intercalate_singleton] using first
    | cons second rest =>
      rw [List.map_cons, List.map_cons, List.intercalate_cons_cons, List.append_assoc,
        List.singleton_append, namesIn_append_slash, first, ← List.map_cons, later,
        List.singleton_append]

/-! ## The text of a path -/

theorem toList_text {p : Path} (rooted : p.isAbsolute = true) :
    p.text.toList =
      p.start.text.toList ++ List.intercalate ['/'] (p.names.map String.toList) := by
  have notHere : p.start ≠ .here := by simpa [isAbsolute] using rooted
  simp [text, notHere, String.toList_intercalate]

/-- What follows the slashes of a start begins with none. -/
theorem head?_intercalate_ne {names : List String} (named : ∀ name ∈ names, IsName name) :
    (List.intercalate ['/'] (names.map String.toList)).head? ≠ some '/' := by
  cases names with
  | nil => simp
  | cons name rest =>
    obtain ⟨some_name, -, whole⟩ := named name List.mem_cons_self
    cases chars : name.toList with
    | nil => exact absurd (String.toList_eq_nil_iff.mp chars) some_name
    | cons c later =>
      rw [chars] at whole
      have other : c ≠ '/' := fun same => whole (same ▸ List.mem_cons_self)
      cases rest <;>
        simp [List.intercalate_cons_cons, chars, other]

/-- The start of a path is told by the number of slashes in front. -/
theorem startOf_eq_slashes (cs : List Char) : startOf cs =
    match (cs.takeWhile (· = '/')).length with
    | 0 => .here
    | 2 => .doubleRoot
    | _ => .root := by
  fun_cases startOf cs with
  | case1 rest => simp
  | case2 rest other =>
    cases rest with
    | nil => rfl
    | cons c rest =>
      have stop : c ≠ '/' := by
        rintro rfl
        exact other _ rfl
      simp [stop]
  | case3 rest other other' =>
    cases rest with
    | nil => rfl
    | cons c rest =>
      have stop : c ≠ '/' := by
        rintro rfl
        exact other' _ rfl
      simp [stop]
  | case4 cs other other' other'' =>
    cases cs with
    | nil => rfl
    | cons c rest =>
      have stop : c ≠ '/' := by
        rintro rfl
        exact other'' _ rfl
      simp [stop]

/-- What follows the slashes does not count for the start. -/
theorem startOf_append (cs : List Char) {ds : List Char} (stop : ds.head? ≠ some '/') :
    startOf (cs ++ ds) = startOf cs := by
  have none : ds.takeWhile (· = '/') = [] := by
    cases ds with
    | nil => rfl
    | cons c rest =>
      have other : c ≠ '/' := by simpa using stop
      simp [other]
  have slashes : (cs ++ ds).takeWhile (· = '/') = cs.takeWhile (· = '/') := by
    rw [List.takeWhile_append, none, List.append_nil]
    split
    next whole => exact ((List.takeWhile_prefix _).eq_of_length whole).symm
    · rfl
  rw [startOf_eq_slashes, startOf_eq_slashes, slashes]

/-- What begins with a name is relative. -/
theorem startOf_name {name : String} (named : IsName name) (more : List Char) :
    startOf (name.toList ++ more) = .here := by
  obtain ⟨some_char, -, whole⟩ := named
  cases chars : name.toList with
  | nil => exact absurd (String.toList_eq_nil_iff.mp chars) some_char
  | cons c rest =>
    have other : c ≠ '/' := fun same => whole (by rw [chars, same]; exact List.mem_cons_self)
    simp [startOf, other]

theorem startOf_append_slashes (start : Start) (absolute : start ≠ .here) {cs : List Char}
    (stop : cs.head? ≠ some '/') : startOf (start.text.toList ++ cs) = start := by
  cases start with
  | here => exact absurd rfl absolute
  | root =>
    cases cs with
    | nil => rfl
    | cons c rest =>
      have other : c ≠ '/' := by simpa using stop
      simp [Start.text, startOf, other]
  | doubleRoot =>
    cases cs with
    | nil => rfl
    | cons c rest =>
      have other : c ≠ '/' := by simpa using stop
      simp [Start.text, startOf, other]

theorem namesIn_append_slashes (start : Start) (cs : List Char) :
    namesIn (start.text.toList ++ cs) = namesIn cs := by
  cases start with
  | here => rfl
  | root => exact namesIn_slash cs
  | doubleRoot => exact (namesIn_slash _).trans (namesIn_slash cs)

/-- A normal absolute path is read back from its text. -/
theorem ofText_text {p : Path} (rooted : p.isAbsolute = true) (normal : p.Normal) :
    ofText p.text = p := by
  have notHere : p.start ≠ .here := by simpa [isAbsolute] using rooted
  rw [← String.ofList_toList (s := p.text), ofText_ofList, toList_text rooted,
    startOf_append_slashes _ notHere (head?_intercalate_ne normal), namesIn_append_slashes,
    namesIn_intercalate normal]

theorem head?_text {p : Path} (rooted : p.isAbsolute = true) :
    p.text.toList.head? = some '/' := by
  have notHere : p.start ≠ .here := by simpa [isAbsolute] using rooted
  rw [toList_text rooted]
  cases start : p.start with
  | here => exact absurd start notHere
  | root => rfl
  | doubleRoot => rfl

/-! ## Collapsing -/

theorem foldl_ascend_of_plain (names above : List String) (plain : Plain names) :
    names.foldl (ascend true) above = names.reverse ++ above := by
  induction names generalizing above with
  | nil => rfl
  | cons name rest ih =>
    have notUp : name ≠ ".." := fun same => plain (same ▸ List.mem_cons_self)
    have later : Plain rest := fun member => plain (List.mem_cons_of_mem _ member)
    have step : ascend true above name = name :: above := if_pos notUp
    rw [List.foldl_cons, step, ih _ later]
    simp

/-- A path that goes up nowhere is collapsed. -/
theorem collapse_of_plain {p : Path} (rooted : p.isAbsolute = true) (plain : Plain p.names) :
    p.collapse = p := by
  rw [collapse, rooted, foldl_ascend_of_plain _ _ plain, List.append_nil, List.reverse_reverse]

theorem mem_foldl_ascend (absolute : Bool) (names : List String) {above : List String}
    {name : String} (member : name ∈ names.foldl (ascend absolute) above) :
    name = ".." ∨ name ∈ above ∨ name ∈ names := by
  induction names generalizing above with
  | nil => exact Or.inr (Or.inl member)
  | cons first rest ih =>
    rcases ih member with up | inside | inside
    · exact Or.inl up
    · unfold ascend at inside
      split at inside
      · rcases List.mem_cons.mp inside with rfl | inside
        · exact Or.inr (Or.inr List.mem_cons_self)
        · exact Or.inr (Or.inl inside)
      · split at inside
        · split at inside
          · cases inside
          · exact Or.inl (List.mem_singleton.mp inside)
        · split at inside
          · rcases List.mem_cons.mp inside with up | inside
            · exact Or.inl up
            · exact Or.inr (Or.inl inside)
          · exact Or.inr (Or.inl (List.mem_cons_of_mem _ inside))
    · exact Or.inr (Or.inr (List.mem_cons_of_mem _ inside))

theorem normal_collapse {p : Path} (normal : p.Normal) : p.collapse.Normal := by
  intro name member
  rcases mem_foldl_ascend _ _ (List.mem_reverse.mp member) with rfl | inside | inside
  · exact ⟨by decide, by decide, by decide⟩
  · cases inside
  · exact normal name inside

theorem isAbsolute_join {p q : Path} (rooted : p.isAbsolute = true) :
    (p.join q).isAbsolute = true := by
  unfold join
  split
  · assumption
  · exact rooted

theorem normal_join {p q : Path} (first : p.Normal) (second : q.Normal) : (p.join q).Normal := by
  unfold join
  split
  · exact second
  · intro name member
    rcases List.mem_append.mp member with inside | inside
    · exact first name inside
    · exact second name inside

/-- An absolute path of a normal form: it is made of names and goes up nowhere. -/
structure Canonical (p : Path) : Prop where
  rooted : p.isAbsolute = true
  normal : p.Normal
  plain : Plain p.names

theorem canonical_absolute {workingDirectory p : Path} (rooted : workingDirectory.isAbsolute = true)
    (working : workingDirectory.Normal) (normal : p.Normal) :
    (absolute workingDirectory p).Canonical where
  rooted := isAbsolute_join rooted
  normal := normal_collapse (normal_join working normal)
  plain := plain_collapse (isAbsolute_join rooted)

theorem Canonical.absolute_eq {p : Path} (canonical : p.Canonical) (workingDirectory : Path) :
    absolute workingDirectory p = p := by
  have whole : workingDirectory.join p = p := if_pos canonical.rooted
  rw [absolute, whole, collapse_of_plain canonical.rooted canonical.plain]

theorem Canonical.ofText_text {p : Path} (canonical : p.Canonical) : ofText p.text = p :=
  Path.ofText_text canonical.rooted canonical.normal

/-! ## Names below a path -/

theorem ofText_name {name : String} (named : IsName name) : ofText name = ⟨.here, [name]⟩ := by
  have start : startOf name.toList = .here := by
    cases chars : name.toList with
    | nil => rfl
    | cons c rest =>
      have other : c ≠ '/' := fun same => named.2.2 (by rw [chars, same]; exact List.mem_cons_self)
      simp [startOf, other]
  have read := ofText_ofList name.toList
  rwa [String.ofList_toList, start, namesIn_singleton named] at read

theorem join_name (p : Path) {name : String} (named : IsName name) :
    p.join (ofText name) = p.child name := by
  rw [ofText_name named]
  rfl

theorem Canonical.child {p : Path} (canonical : p.Canonical) {name : String} (named : IsName name)
    (notUp : name ≠ "..") : (p.child name).Canonical where
  rooted := canonical.rooted
  normal := by
    intro other member
    rcases List.mem_append.mp member with above | last
    · exact canonical.normal other above
    · exact List.mem_singleton.mp last ▸ named
  plain := by
    intro member
    rcases List.mem_append.mp member with above | last
    · exact canonical.plain above
    · exact notUp (List.mem_singleton.mp last).symm

/-! ## Reading the bytes of a path -/

theorem splitOn_append_of_not_mem {α : Type*} [BEq α] [LawfulBEq α] {mark : α} {part : List α}
    (whole : mark ∉ part) (rest : List α) :
    (part ++ rest).splitOn mark = (rest.splitOn mark).modifyHead (part ++ ·) := by
  induction part with
  | nil =>
    cases split : rest.splitOn mark with
    | nil => exact absurd split (List.splitOn_ne_nil _ _)
    | cons first later => simp [split]
  | cons c more ih =>
    have other : (c == mark) = false := by
      rw [beq_eq_false_iff_ne]
      exact fun same => whole (same ▸ List.mem_cons_self)
    rw [List.cons_append, List.splitOn_cons_eq_if_modifyHead, other,
      ih fun member => whole (List.mem_cons_of_mem _ member)]
    cases split : rest.splitOn mark with
    | nil => exact absurd split (List.splitOn_ne_nil _ _)
    | cons first later => simp

/-- Writing items by bytes of which only the mark has the mark's byte keeps the cut. -/
theorem splitOn_flatMap {α β : Type*} [BEq α] [LawfulBEq α] [BEq β] [LawfulBEq β] {mark : α}
    {byte : β} {write : α → List β} (marked : write mark = [byte])
    (others : ∀ c, c ≠ mark → byte ∉ write c) (cs : List α) :
    (cs.flatMap write).splitOn byte = (cs.splitOn mark).map (List.flatMap write) := by
  induction cs with
  | nil => simp
  | cons c rest ih =>
    rw [List.flatMap_cons, List.splitOn_cons_eq_if_modifyHead]
    by_cases same : c = mark
    · subst same
      rw [marked, List.singleton_append, List.splitOn_cons_eq_if_modifyHead]
      simp [ih]
    · rw [splitOn_append_of_not_mem (others c same), ih, beq_false_of_ne same]
      cases split : rest.splitOn mark with
      | nil => exact absurd split (List.splitOn_ne_nil _ _)
      | cons first later => simp

theorem slash_not_mem_ofUtf8Lossy {bytes : List UInt8} (whole : 0x2F ∉ bytes) :
    '/' ∉ Text.ofUtf8Lossy bytes := by
  intro member
  obtain ⟨item, read, same⟩ := List.mem_map.mp member
  cases item with
  | none => simp at same
  | some c =>
    cases same
    have bytes : 0x2F ∈ String.utf8EncodeChar '/' := by decide
    exact whole (Text.utf8EncodeChar_subset read bytes)

/-- The lenient reading keeps the cut at slashes. -/
theorem splitOn_ofUtf8Lossy (bytes : List UInt8) :
    (Text.ofUtf8Lossy bytes).splitOn '/' = (bytes.splitOn 0x2F).map Text.ofUtf8Lossy := by
  have parts : ∀ parts : List (List UInt8), parts ≠ [] → (∀ part ∈ parts, 0x2F ∉ part) →
      (Text.ofUtf8Lossy (List.intercalate [0x2F] parts)).splitOn '/' =
        parts.map Text.ofUtf8Lossy := by
    intro parts some_part whole
    induction parts with
    | nil => exact absurd rfl some_part
    | cons part rest ih =>
      have first := slash_not_mem_ofUtf8Lossy (whole part List.mem_cons_self)
      cases rest with
      | nil => simp [List.intercalate_singleton, List.splitOn_eq_singleton first]
      | cons second rest =>
        have later := ih (by simp) fun other member => whole other (List.mem_cons_of_mem _ member)
        have slash : Char.ofNat (0x2F : UInt8).toNat = '/' := by decide
        rw [List.intercalate_cons_cons, List.append_assoc, List.singleton_append,
          Text.ofUtf8Lossy_append_ascii (by decide), slash,
          List.splitOn_append_cons_self_of_not_mem first, later]
        rfl
  have whole := parts (bytes.splitOn 0x2F) (List.splitOn_ne_nil _ _)
    fun part member => not_mem_of_mem_splitOn member
  rwa [List.intercalate_splitOn] at whole

/-- What a name becomes when its bytes are read. -/
def decodedName (name : String) : String :=
  String.ofList (Text.ofUtf8Lossy (name.toList.flatMap Uri.pathBytes))

/-- Only an ASCII text is read as that text. -/
theorem decodedName_eq_iff {name text : String} (ascii : ∀ c ∈ text.toList, c.toNat < 0x80) :
    decodedName name = text ↔ name = text := by
  have unmarked : Text.replacement ∉ text.toList := fun member =>
    absurd (ascii _ member) (by decide)
  rw [decodedName, ← String.toList_inj, String.toList_ofList, Text.ofUtf8Lossy_eq_iff unmarked,
    ← String.toList_inj]
  constructor
  · exact Uri.eq_of_flatMap_pathBytes ascii
  · intro same
    rw [same]
    apply Uri.flatMap_pathBytes_of_lt
    intro c member
    have small := ascii c member
    unfold Text.standInShift
    omega

theorem isName_decodedName {name : String} (named : IsName name) : IsName (decodedName name) := by
  obtain ⟨some_name, notDot, whole⟩ := named
  refine ⟨?_, ?_, ?_⟩
  · rwa [ne_eq, decodedName_eq_iff (by simp)]
  · rwa [ne_eq, decodedName_eq_iff (by simp)]
  · rw [decodedName, String.toList_ofList]
    apply slash_not_mem_ofUtf8Lossy
    intro member
    obtain ⟨c, inside, byte⟩ := List.mem_flatMap.mp member
    exact Uri.slash_not_mem_pathBytes (fun same => whole (same ▸ inside)) byte

/-- Reading the bytes of a text keeps the cut into names. -/
theorem namesIn_decoded (cs : List Char) :
    namesIn (Text.ofUtf8Lossy (cs.flatMap Uri.pathBytes)) = (namesIn cs).map decodedName := by
  have cut := splitOn_flatMap Uri.pathBytes_slash (fun c => Uri.slash_not_mem_pathBytes) cs
  have shown : ∀ part : List Char,
      String.ofList (Text.ofUtf8Lossy (part.flatMap Uri.pathBytes)) =
        decodedName (String.ofList part) := fun part => by
    rw [decodedName, String.toList_ofList]
  rw [namesIn, splitOn_ofUtf8Lossy, cut, List.map_map, List.map_map, namesIn, List.filter_map,
    List.filter_map, List.map_map]
  simp only [Function.comp_def, shown]
  congr 1
  apply List.filter_congr
  intro part _
  have empty : decodedName (String.ofList part) = "" ↔ _ := decodedName_eq_iff (by simp)
  have dot : decodedName (String.ofList part) = "." ↔ _ := decodedName_eq_iff (by simp)
  simp only [ne_eq, empty, dot]

theorem decoded_slash (cs : List Char) :
    Text.ofUtf8Lossy (('/' :: cs).flatMap Uri.pathBytes) =
      '/' :: Text.ofUtf8Lossy (cs.flatMap Uri.pathBytes) := by
  rw [List.flatMap_cons, Uri.pathBytes_slash]
  exact Text.ofUtf8Lossy_append_ascii (by decide) [] _

/-- Reading the bytes of a text gives a leading slash only for a leading slash. -/
theorem head?_decoded {cs : List Char} (stop : cs.head? ≠ some '/') :
    (Text.ofUtf8Lossy (cs.flatMap Uri.pathBytes)).head? ≠ some '/' := by
  intro slash
  obtain ⟨later, read⟩ := List.head?_eq_some_iff.mp slash
  have cut := splitOn_ofUtf8Lossy (cs.flatMap Uri.pathBytes)
  rw [read, splitOn_flatMap Uri.pathBytes_slash fun c => Uri.slash_not_mem_pathBytes,
    List.splitOn_cons_eq_if_modifyHead, beq_self_eq_true, if_pos rfl] at cut
  cases cs with
  | nil => simp [Text.ofUtf8Lossy, Text.readUtf8] at read
  | cons c rest =>
    have other : (c == '/') = false := by simpa using stop
    rw [List.splitOn_cons_eq_if_modifyHead, other] at cut
    cases split : rest.splitOn '/' with
    | nil => exact absurd split (List.splitOn_ne_nil _ _)
    | cons first later =>
      simp only [split, Bool.false_eq_true, ↓reduceIte, List.modifyHead_cons, List.map_cons,
        List.cons.injEq] at cut
      have bytes := (Text.ofUtf8Lossy_eq_iff (by simp)).mp cut.1.symm
      have empty := Uri.eq_of_flatMap_pathBytes (by simp) bytes
      cases empty

/-- What a path becomes when the bytes of its text are read. -/
def decoded (p : Path) : Path :=
  ⟨p.start, p.names.map decodedName⟩

theorem normal_decoded {p : Path} (normal : p.Normal) : p.decoded.Normal := by
  intro name member
  obtain ⟨original, inside, rfl⟩ := List.mem_map.mp member
  exact isName_decodedName (normal original inside)

theorem Canonical.decoded {p : Path} (canonical : p.Canonical) : p.decoded.Canonical where
  rooted := canonical.rooted
  normal := normal_decoded canonical.normal
  plain := by
    intro member
    obtain ⟨original, inside, same⟩ := List.mem_map.mp member
    rw [decodedName_eq_iff (by simp)] at same
    exact canonical.plain (same ▸ inside)

/-- Characters none of which stands for a byte that is no part of a character. -/
def Whole (p : Path) : Prop :=
  ∀ name ∈ p.names, ∀ c ∈ name.toList, Text.smuggledByte? c = none

instance (p : Path) : Decidable p.Whole :=
  decidable_of_iff (p.names.all fun name => name.toList.all fun c => (Text.smuggledByte? c).isNone)
    (by simp [Whole])

/-- Where all characters are whole, reading the bytes changes nothing. -/
theorem decoded_of_whole {p : Path} (whole : p.Whole) : p.decoded = p := by
  have name_eq : ∀ name ∈ p.names, decodedName name = id name := by
    intro name member
    have bytes : name.toList.flatMap Uri.pathBytes = name.toList.flatMap String.utf8EncodeChar :=
      List.flatMap_congr fun c inside => by rw [Uri.pathBytes, whole name member c inside]; rfl
    rw [decodedName, bytes, Text.ofUtf8Lossy_flatMap, String.ofList_toList]
    rfl
  rw [decoded, List.map_congr_left name_eq, List.map_id]

/-- Decoding the encoded text of a canonical path reads the bytes of its names. -/
theorem ofText_decode_encode {p : Path} (canonical : p.Canonical) :
    ofText (String.ofList (Uri.decode (Uri.encode p.text.toList))) = p.decoded := by
  have notHere : p.start ≠ .here := by simpa [isAbsolute] using canonical.rooted
  have text := toList_text canonical.rooted
  have slashes : ∀ cs, Text.ofUtf8Lossy ((p.start.text.toList ++ cs).flatMap Uri.pathBytes) =
      p.start.text.toList ++ Text.ofUtf8Lossy (cs.flatMap Uri.pathBytes) := by
    intro cs
    cases p.start with
    | here => rfl
    | root => exact decoded_slash cs
    | doubleRoot => exact (decoded_slash _).trans (congrArg _ (decoded_slash cs))
  rw [Uri.decode_encode, ofText_ofList, namesIn_decoded]
  congr 1
  · rw [text, slashes]
    exact startOf_append_slashes _ notHere (head?_decoded (head?_intercalate_ne canonical.normal))
  · rw [text, namesIn_append_slashes, namesIn_intercalate canonical.normal]

/-! ## The bytes of a path -/

/-- How many slashes a start has. -/
def Start.slashes : Start → Nat
  | .here => 0
  | .root => 1
  | .doubleRoot => 2

/-- The parts of the text of an absolute path between its slashes. -/
def parts (p : Path) : List (List Char) :=
  List.replicate p.start.slashes [] ++
    if p.names.isEmpty then [[]] else p.names.map String.toList

theorem text_eq_intercalate {p : Path} (rooted : p.isAbsolute = true) :
    p.text.toList = List.intercalate ['/'] p.parts := by
  have notHere : p.start ≠ .here := by simpa [isAbsolute] using rooted
  rw [toList_text rooted, parts]
  cases start : p.start with
  | here => exact absurd start notHere
  | root => cases p.names <;> simp [Start.text, Start.slashes, List.intercalate_cons_cons]
  | doubleRoot =>
    cases p.names <;>
      simp [Start.text, Start.slashes, List.replicate, List.intercalate_cons_cons]

theorem slash_not_mem_parts {p : Path} (normal : p.Normal) {part : List Char}
    (member : part ∈ p.parts) : '/' ∉ part := by
  rcases List.mem_append.mp member with mark | inside
  · simp [List.eq_of_mem_replicate mark]
  · split at inside
    · simp [List.mem_singleton.mp inside]
    · obtain ⟨name, named, rfl⟩ := List.mem_map.mp inside
      exact (normal name named).2.2

theorem splitOn_text {p : Path} (rooted : p.isAbsolute = true) (normal : p.Normal) :
    p.text.toList.splitOn '/' = p.parts := by
  rw [text_eq_intercalate rooted]
  refine List.splitOn_intercalate '/' (fun part member => slash_not_mem_parts normal member) ?_
  simp only [parts, ne_eq, List.append_eq_nil_iff, not_and]
  split <;> simp_all

/-- The bytes of the text of a path. -/
def bytes (p : Path) : List UInt8 :=
  p.text.toList.flatMap Uri.pathBytes

theorem parts_decoded (p : Path) :
    p.decoded.parts = p.parts.map fun part => Text.ofUtf8Lossy (part.flatMap Uri.pathBytes) := by
  have empty : Text.ofUtf8Lossy [] = [] := rfl
  cases names : p.names with
  | nil => simp [parts, Path.decoded, names, empty]
  | cons name rest => simp [parts, Path.decoded, names, empty, decodedName, Function.comp_def]

theorem splitOn_ofUtf8Lossy_flatMap (cs : List Char) :
    (Text.ofUtf8Lossy (cs.flatMap Uri.pathBytes)).splitOn '/' =
      (cs.splitOn '/').map fun part => Text.ofUtf8Lossy (part.flatMap Uri.pathBytes) := by
  rw [splitOn_ofUtf8Lossy, splitOn_flatMap Uri.pathBytes_slash fun c => Uri.slash_not_mem_pathBytes,
    List.map_map]
  rfl

/-- The bytes of a canonical path are read as the text of what it becomes. -/
theorem ofUtf8Lossy_bytes {p : Path} (canonical : p.Canonical) :
    Text.ofUtf8Lossy p.bytes = p.decoded.text.toList := by
  have whole : (Text.ofUtf8Lossy p.bytes).splitOn '/' = p.decoded.parts := by
    rw [bytes, splitOn_ofUtf8Lossy_flatMap, splitOn_text canonical.rooted canonical.normal,
      parts_decoded]
  rw [text_eq_intercalate canonical.decoded.rooted, ← whole, List.intercalate_splitOn]

theorem eq_nil_of_decoded {part : List Char}
    (empty : Text.ofUtf8Lossy (part.flatMap Uri.pathBytes) = []) : part = [] :=
  Uri.eq_of_flatMap_pathBytes (by simp) ((Text.ofUtf8Lossy_eq_iff (by simp)).mp empty)

theorem eq_replicate_of_map_decoded {parts : List (List Char)} {n : Nat}
    (empty : parts.map (fun part => Text.ofUtf8Lossy (part.flatMap Uri.pathBytes)) =
      List.replicate n []) : parts = List.replicate n [] := by
  have size : parts.length = n := by simpa using congrArg List.length empty
  refine List.eq_replicate_iff.mpr ⟨size, fun part member => eq_nil_of_decoded ?_⟩
  have inside := List.mem_map_of_mem
    (f := fun part => Text.ofUtf8Lossy (part.flatMap Uri.pathBytes)) member
  rw [empty] at inside
  exact List.eq_of_mem_replicate inside

/-- Parts that are read as the names of a path are texts. -/
theorem exists_names_of_decoded {rest : List (List Char)} {names : List String}
    (shown : rest.map (fun part => Text.ofUtf8Lossy (part.flatMap Uri.pathBytes)) =
      if names.isEmpty then [[]] else names.map String.toList) :
    ∃ originals : List String,
      rest = (if originals.isEmpty then [[]] else originals.map String.toList) ∧
        originals.map decodedName = names := by
  cases names with
  | nil => exact ⟨[], eq_replicate_of_map_decoded (n := 1) shown, rfl⟩
  | cons first later =>
    have some_part : rest ≠ [] := by
      rintro rfl
      simp at shown
    refine ⟨rest.map String.ofList, ?_, ?_⟩
    · simp [some_part, Function.comp_def]
    · have texts := congrArg (List.map String.ofList) shown
      simpa [decodedName, Function.comp_def] using texts

/-- Names that are read as the names of a canonical path make a canonical path, too. -/
theorem Canonical.of_decoded {q : Path} (canonical : q.Canonical) {names : List String}
    (decoded : names.map decodedName = q.names) (noSlash : ∀ name ∈ names, '/' ∉ name.toList) :
    (⟨q.start, names⟩ : Path).Canonical where
  rooted := canonical.rooted
  normal := by
    intro name member
    have kept := canonical.normal _ (decoded ▸ List.mem_map_of_mem member)
    refine ⟨?_, ?_, noSlash name member⟩
    · exact fun same => kept.1 ((decodedName_eq_iff (by simp)).mpr same)
    · exact fun same => kept.2.1 ((decodedName_eq_iff (by simp)).mpr same)
  plain := by
    intro member
    have up : decodedName ".." = ".." := (decodedName_eq_iff (by simp)).mpr rfl
    have inside : decodedName ".." ∈ q.names := decoded ▸ List.mem_map_of_mem member
    exact canonical.plain (up ▸ inside)

/-- All bytes that are read as the text of a canonical path are the bytes of a canonical path. -/
theorem exists_canonical_of_bytes {q : Path} (canonical : q.Canonical) {bs : List UInt8}
    (read : Text.ofUtf8Lossy bs = q.text.toList) :
    ∃ p : Path, p.Canonical ∧ p.bytes = bs ∧ p.decoded = q ∧
      Text.unpaired? 0 p.text.toList = none := by
  have chars := Uri.flatMap_pathBytes_escapeByte bs
  have paired := Uri.unpaired?_escapeByte bs 0
  generalize bs.map Uri.escapeByte = cs at chars paired
  have cut := splitOn_ofUtf8Lossy_flatMap cs
  rw [chars, read, splitOn_text canonical.rooted canonical.normal] at cut
  obtain ⟨marks, rest, split, marked, shown⟩ := List.map_eq_append_iff.mp cut.symm
  have marked := eq_replicate_of_map_decoded marked
  obtain ⟨names, parts, decoded⟩ := exists_names_of_decoded shown
  have noSlash : ∀ name ∈ names, '/' ∉ name.toList := by
    intro name member
    have some_name : names.isEmpty = false := by
      cases names with
      | nil => cases member
      | cons _ _ => rfl
    have part : name.toList ∈ cs.splitOn '/' := by
      rw [split, parts, some_name]
      exact List.mem_append_right _ (List.mem_map_of_mem member)
    exact not_mem_of_mem_splitOn part
  have whole : (⟨q.start, names⟩ : Path).text.toList = cs := by
    have same : (⟨q.start, names⟩ : Path).parts = cs.splitOn '/' := by
      rw [split, marked, parts, Path.parts]
    rw [text_eq_intercalate (p := ⟨q.start, names⟩) canonical.rooted, same,
      List.intercalate_splitOn]
  refine ⟨⟨q.start, names⟩, canonical.of_decoded decoded noSlash, ?_, ?_, ?_⟩
  · rw [bytes, whole, chars]
  · rw [Path.decoded, decoded]
  · rwa [whole]

end Classpath.Path
