import Classpath.Uri.Reference
import Mathlib.Data.List.TakeWhile

/-! # References with an authority and a path

The cut of a reference gives parts that can stand beside each other again
(`Classpath.Uri.Reference.standing_ofChars`), and a `file` reference written from such parts is cut
into them (`Classpath.Uri.Reference.ofChars_file`). A text that starts with a slash has no scheme
(`Classpath.Uri.Reference.scheme_slash`), and a scheme that is not `file` does not become so when
it is written in lower case (`Classpath.Uri.Reference.scheme_lowered`).
-/

namespace Classpath.Uri.Reference

/-- A character that is kept wherever it stands in a reference. -/
def Kept (c : Char) : Prop :=
  c ≠ '\t' ∧ c ≠ '\r' ∧ c ≠ '\n'

/-- The characters of a text that are kept. -/
def keptIn (cs : List Char) : List Char :=
  cs.filter fun c => c ≠ '\t' && c ≠ '\r' && c ≠ '\n'

/-- A character of an authority. -/
def InAuthority (c : Char) : Prop :=
  Kept c ∧ c ≠ '/' ∧ c ≠ '?' ∧ c ≠ '#'

/-- A character of a path. -/
def InPath (c : Char) : Prop :=
  Kept c ∧ c ≠ '?' ∧ c ≠ '#'

/-- An authority and a path that can stand beside each other. -/
structure Standing (authority path : List Char) : Prop where
  inAuthority : ∀ c ∈ authority, InAuthority c
  inPath : ∀ c ∈ path, InPath c
  slash : ∀ c ∈ path.head?, c = '/'

theorem takeWhile_append_stop {α : Type*} {keep : α → Bool} {xs ys : List α}
    (kept : ∀ x ∈ xs, keep x = true) (stop : ∀ y ∈ ys.head?, keep y = false) :
    (xs ++ ys).takeWhile keep = xs := by
  rw [List.takeWhile_append_of_pos kept]
  cases ys with
  | nil => simp
  | cons y rest => simp [stop y rfl]

theorem drop_length_takeWhile {α : Type*} (keep : α → Bool) (xs : List α) :
    xs.drop (xs.takeWhile keep).length = xs.dropWhile keep := by
  calc xs.drop (xs.takeWhile keep).length
      = (xs.takeWhile keep ++ xs.dropWhile keep).drop (xs.takeWhile keep).length := by
        rw [List.takeWhile_append_dropWhile]
    _ = xs.dropWhile keep := List.drop_left

theorem mem_clean {cs : List Char} {c : Char} (member : c ∈ clean cs) : Kept c ∧ c ∈ cs := by
  obtain ⟨inside, kept⟩ := List.mem_filter.mp member
  simp only [ne_eq, Bool.and_eq_true, decide_eq_true_eq] at kept
  exact ⟨⟨kept.1.1, kept.1.2, kept.2⟩, (List.dropWhile_sublist _).subset inside⟩

/-- A text of kept characters after a character that is no control is not changed by cleaning. -/
theorem clean_cons {c : Char} (visible : 0x20 < c.toNat) (rest : List Char) :
    clean (c :: rest) = keptIn (c :: rest) := by
  have stop : ¬ (c.toNat ≤ 0x20) := by omega
  simp [clean, keptIn, stop]

theorem keptIn_append (cs ds : List Char) : keptIn (cs ++ ds) = keptIn cs ++ keptIn ds :=
  List.filter_append _ _

theorem keptIn_of_kept {cs : List Char} (kept : ∀ c ∈ cs, Kept c) : keptIn cs = cs := by
  apply List.filter_eq_self.mpr
  intro c member
  obtain ⟨tab, carriage, feed⟩ := kept c member
  simp [tab, carriage, feed]

/-! ## Cutting at marks -/

theorem cutAt_of_not_mem (mark : Char) {cs : List Char} (free : mark ∉ cs) :
    cutAt mark cs = (cs, []) := by
  have whole : cs.takeWhile (· ≠ mark) = cs := by
    apply List.takeWhile_eq_self_iff.mpr
    intro c member
    simpa using fun same : c = mark => free (same ▸ member)
  rw [cutAt, whole]
  simp

theorem mem_fst_cutAt {mark : Char} {cs : List Char} {c : Char} (member : c ∈ (cutAt mark cs).1) :
    c ∈ cs ∧ c ≠ mark := by
  refine ⟨(List.takeWhile_sublist _).subset member, ?_⟩
  simpa using List.mem_takeWhile_imp member

theorem head?_cutAt {mark : Char} {cs : List Char} {c : Char}
    (first : c ∈ (cutAt mark cs).1.head?) : c ∈ cs.head? := by
  cases cs with
  | nil => simp [cutAt] at first
  | cons d rest =>
    simp only [cutAt] at first
    by_cases other : d = mark
    · simp [other] at first
    · simpa [other] using first

/-- Either no scheme is cut off, or one of scheme characters that stands before a colon. -/
theorem cutScheme_cases (cs : List Char) :
    cutScheme cs = ([], cs) ∨
      ∃ first more rest, cs = first :: more ++ ':' :: rest ∧ isLetter first = true ∧
        (∀ c ∈ first :: more, isSchemeChar c = true) ∧
        cutScheme cs = ((first :: more).map lower, rest) := by
  have split := List.takeWhile_append_dropWhile (p := (· ≠ ':')) (l := cs)
  have stop := List.head?_dropWhile_not (· ≠ ':') cs
  unfold cutScheme
  dsimp only
  rw [drop_length_takeWhile]
  split
  next first more colon rest before after =>
    split
    next scheme =>
      right
      rw [Bool.and_eq_true, List.all_eq_true] at scheme
      rw [before, after] at split
      rw [after] at stop
      have colon : colon = ':' := by simpa using stop
      rw [colon] at split
      rw [before] at scheme ⊢
      exact ⟨first, more, rest, split.symm, scheme.1, scheme.2, rfl⟩
    next => exact Or.inl rfl
  next => exact Or.inl rfl

theorem colon_not_isSchemeChar {cs : List Char} (scheme : ∀ c ∈ cs, isSchemeChar c = true) :
    ':' ∉ cs := fun member => absurd (scheme _ member) (by decide)

theorem mem_snd_cutScheme {cs : List Char} {c : Char} (member : c ∈ (cutScheme cs).2) : c ∈ cs := by
  rcases cutScheme_cases cs with none | ⟨first, more, rest, split, -, -, cut⟩
  · rwa [none] at member
  · rw [cut] at member
    rw [split]
    exact List.mem_append_right _ (List.mem_cons_of_mem _ member)

theorem mem_fst_cutAuthority {cs : List Char} {c : Char} (member : c ∈ (cutAuthority cs).1) :
    c ∈ cs ∧ c ≠ '/' ∧ c ≠ '?' ∧ c ≠ '#' := by
  unfold cutAuthority at member
  split at member
  next rest =>
    have kept := List.mem_takeWhile_imp member
    simp only [ne_eq, Bool.and_eq_true, decide_eq_true_eq] at kept
    have inside := (List.takeWhile_sublist _).subset member
    exact ⟨List.mem_cons_of_mem _ (List.mem_cons_of_mem _ inside), kept.1.1, kept.1.2, kept.2⟩
  next => cases member

theorem mem_snd_cutAuthority {cs : List Char} {c : Char} (member : c ∈ (cutAuthority cs).2) :
    c ∈ cs := by
  unfold cutAuthority at member
  split at member
  · exact List.mem_cons_of_mem _ (List.mem_cons_of_mem _ (List.mem_of_mem_drop member))
  · exact member

/-- After an authority comes a slash, a question mark, a hash or nothing. -/
theorem head?_cutAuthority {cs : List Char} (some_authority : (cutAuthority cs).1 ≠ []) {c : Char}
    (first : c ∈ (cutAuthority cs).2.head?) : c = '/' ∨ c = '?' ∨ c = '#' := by
  unfold cutAuthority at some_authority first
  split at first
  next rest =>
    dsimp only at first
    rw [drop_length_takeWhile] at first
    have stop := List.head?_dropWhile_not (fun c => c ≠ '/' && c ≠ '?' && c ≠ '#') rest
    rw [Option.mem_def.mp first] at stop
    simp only [ne_eq, Bool.and_eq_false_imp, decide_eq_false_iff_not, Decidable.not_not] at stop
    by_cases slash : c = '/'
    · exact Or.inl slash
    by_cases question : c = '?'
    · exact Or.inr (Or.inl question)
    · exact Or.inr (Or.inr (by simp_all))
  next others => simp at some_authority

/-! ## The parts of a reference -/

theorem authority_ofChars (cs : List Char) :
    ∀ c ∈ (ofChars cs).authority, InAuthority c := by
  intro c member
  obtain ⟨inside, slash, question, hash⟩ := mem_fst_cutAuthority member
  exact ⟨(mem_clean (mem_snd_cutScheme inside)).1, slash, question, hash⟩

theorem path_ofChars (cs : List Char) : ∀ c ∈ (ofChars cs).path, InPath c := by
  intro c member
  obtain ⟨inside, question⟩ := mem_fst_cutAt member
  obtain ⟨inside, hash⟩ := mem_fst_cutAt inside
  exact ⟨(mem_clean (mem_snd_cutScheme (mem_snd_cutAuthority inside))).1, question, hash⟩

theorem mem_path_ofChars {cs : List Char} {c : Char} (member : c ∈ (ofChars cs).path) : c ∈ cs :=
  (mem_clean (mem_snd_cutScheme (mem_snd_cutAuthority
    (mem_fst_cutAt (mem_fst_cutAt member).1).1))).2

/-- The authority and the path of a reference can stand beside each other. -/
theorem standing_ofChars {cs : List Char} (some_authority : (ofChars cs).authority ≠ []) :
    Standing (ofChars cs).authority (ofChars cs).path where
  inAuthority := authority_ofChars cs
  inPath := path_ofChars cs
  slash := by
    intro c first
    have inside := head?_cutAt (head?_cutAt first)
    have kept := path_ofChars cs c (List.mem_of_mem_head? first)
    rcases head?_cutAuthority some_authority inside with slash | question | hash
    · exact slash
    · exact absurd question kept.2.1
    · exact absurd hash kept.2.2

theorem length_clean_le (cs : List Char) : (clean cs).length ≤ cs.length :=
  (List.length_filter_le _ _).trans (List.dropWhile_sublist _).length_le

theorem length_scheme_le (cs : List Char) : (ofChars cs).scheme.length ≤ cs.length := by
  have cleaned := length_clean_le cs
  simp only [ofChars]
  rcases cutScheme_cases (clean cs) with none | ⟨first, more, rest, split, -, -, found⟩
  · simp [none]
  · rw [found]
    rw [split, List.length_append] at cleaned
    simp only [List.length_map]
    omega

theorem length_fst_cutAt_le (mark : Char) (cs : List Char) :
    (cutAt mark cs).1.length ≤ cs.length :=
  (List.takeWhile_sublist _).length_le

theorem length_cutAuthority_le {cs : List Char} (some_authority : (cutAuthority cs).1 ≠ []) :
    (cutAuthority cs).1.length + 2 + (cutAuthority cs).2.length ≤ cs.length := by
  unfold cutAuthority at some_authority ⊢
  split at some_authority
  next rest =>
    have part : (rest.takeWhile fun c => c ≠ '/' && c ≠ '?' && c ≠ '#').length ≤ rest.length :=
      (List.takeWhile_sublist _).length_le
    simp only [List.length_drop, List.length_cons]
    omega
  next => exact absurd rfl some_authority

theorem length_snd_cutAuthority_le (cs : List Char) : (cutAuthority cs).2.length ≤ cs.length := by
  unfold cutAuthority
  split
  · simp only [List.length_drop, List.length_cons]
    omega
  · exact Nat.le_refl _

/-- The scheme and the path of a reference, with a colon between them, are no longer than its
text. -/
theorem length_scheme_path_le (cs : List Char) (some_scheme : (ofChars cs).scheme ≠ []) :
    (ofChars cs).scheme.length + 1 + (ofChars cs).path.length ≤ cs.length := by
  have cleaned := length_clean_le cs
  simp only [ofChars] at some_scheme ⊢
  rcases cutScheme_cases (clean cs) with none | ⟨first, more, rest, split, -, -, found⟩
  · exact absurd (by rw [none]) some_scheme
  rw [found]
  have whole := congrArg List.length split
  have path : (cutAt '?' (cutAt '#' (cutAuthority rest).2).1).1.length ≤ rest.length :=
    ((length_fst_cutAt_le _ _).trans (length_fst_cutAt_le _ _)).trans
      (length_snd_cutAuthority_le rest)
  simp only [List.length_map, List.length_append, List.length_cons] at whole ⊢
  omega

/-- The scheme, the authority and the path of a reference are no longer than its text, with a colon
and two slashes between them. -/
theorem length_parts_le (cs : List Char) (some_scheme : (ofChars cs).scheme ≠ [])
    (some_authority : (ofChars cs).authority ≠ []) :
    (ofChars cs).scheme.length + 3 + (ofChars cs).authority.length + (ofChars cs).path.length ≤
      cs.length := by
  have cleaned := length_clean_le cs
  simp only [ofChars] at some_scheme some_authority ⊢
  rcases cutScheme_cases (clean cs) with none | ⟨first, more, rest, split, -, -, found⟩
  · exact absurd (by rw [none]) some_scheme
  rw [found] at some_authority ⊢
  have whole := congrArg List.length split
  have path : (cutAt '?' (cutAt '#' (cutAuthority rest).2).1).1.length ≤
      (cutAuthority rest).2.length :=
    (length_fst_cutAt_le _ _).trans (length_fst_cutAt_le _ _)
  have authority : (cutAuthority rest).1.length + 2 + (cutAuthority rest).2.length ≤ rest.length :=
    length_cutAuthority_le some_authority
  simp only [List.length_map, List.length_append, List.length_cons] at whole ⊢
  omega

theorem visible_of_isLetter {c : Char} (letter : isLetter c = true) : 0x20 < c.toNat := by
  simp only [isLetter, Bool.or_eq_true, Bool.and_eq_true, decide_eq_true_eq, Char.le_def,
    UInt32.le_iff_toNat_le] at letter
  rcases letter with ⟨least, -⟩ | ⟨least, -⟩
  · have least : 0x61 ≤ c.toNat := least
    omega
  · have least : 0x41 ≤ c.toNat := least
    omega

theorem kept_of_isSchemeChar {c : Char} (scheme : isSchemeChar c = true) : Kept c := by
  refine ⟨?_, ?_, ?_⟩ <;> rintro rfl <;> exact absurd scheme (by decide)

/-- Cleaning keeps a scheme at the front. -/
theorem clean_append {first : Char} {more : List Char} (letter : isLetter first = true)
    (chars : ∀ c ∈ first :: more, isSchemeChar c = true) (rest : List Char) :
    clean (first :: more ++ rest) = first :: more ++ keptIn rest := by
  have kept := keptIn_of_kept fun c member => kept_of_isSchemeChar (chars c member)
  rw [List.cons_append, clean_cons (visible_of_isLetter letter), ← List.cons_append, keptIn_append,
    kept]

/-- What stands before the first colon is cut off as a scheme. -/
theorem cutScheme_append {first : Char} {more : List Char} (letter : isLetter first = true)
    (chars : ∀ c ∈ first :: more, isSchemeChar c = true) (rest : List Char) :
    cutScheme (first :: more ++ ':' :: rest) = ((first :: more).map lower, rest) := by
  have before : (first :: more ++ ':' :: rest).takeWhile (· ≠ ':') = first :: more := by
    refine takeWhile_append_stop (fun c member => ?_) (by simp)
    simpa using fun same : c = ':' => colon_not_isSchemeChar chars (same ▸ member)
  have all : (first :: more).all isSchemeChar = true := List.all_eq_true.mpr chars
  rw [cutScheme, before, List.drop_left]
  simp only [letter, all, Bool.and_self, ↓reduceIte]

/-- An authority is cut off after two slashes. -/
theorem cutAuthority_append {authority path : List Char} (standing : Standing authority path) :
    cutAuthority ('/' :: '/' :: (authority ++ path)) = (authority, path) := by
  have first : (authority ++ path).takeWhile (fun c => c ≠ '/' && c ≠ '?' && c ≠ '#') =
      authority := by
    refine takeWhile_append_stop (fun c member => ?_) fun c first => ?_
    · obtain ⟨-, slash, question, hash⟩ := standing.inAuthority c member
      simp [slash, question, hash]
    · simp [standing.slash c first]
  rw [cutAuthority, first, List.drop_left]

/-- A text that does not start with two slashes has no authority. -/
theorem cutAuthority_eq_nil {cs : List Char} (once : ∀ rest, cs ≠ '/' :: '/' :: rest) :
    cutAuthority cs = ([], cs) := by
  unfold cutAuthority
  split
  next rest => exact absurd rfl (once rest)
  next => rfl

/-- A text that starts with a letter of a scheme is cut at its first colon. -/
theorem ofChars_scheme {first : Char} {more rest : List Char} (letter : isLetter first = true)
    (chars : ∀ c ∈ first :: more, isSchemeChar c = true) (kept : ∀ c ∈ rest, Kept c)
    {authority path : List Char} (cut : cutAuthority rest = (authority, path))
    (inPath : ∀ c ∈ path, InPath c) :
    ofChars (first :: more ++ ':' :: rest) =
      ⟨(first :: more).map lower, authority, path, [], []⟩ := by
  have colon : Kept ':' := by unfold Kept; decide
  have whole : clean (first :: more ++ ':' :: rest) = first :: more ++ ':' :: rest := by
    rw [clean_append letter chars, keptIn_of_kept (List.forall_mem_cons.mpr ⟨colon, kept⟩)]
  have hash := cutAt_of_not_mem '#' fun member => (inPath _ member).2.2 rfl
  have question := cutAt_of_not_mem '?' fun member => (inPath _ member).2.1 rfl
  rw [ofChars, whole, cutScheme_append letter chars]
  simp only [cut, hash, question]

/-- A `file` reference written from an authority and a path is cut into them. -/
theorem ofChars_file {authority path : List Char} (standing : Standing authority path) :
    ofChars ("file://".toList ++ authority ++ path) = ⟨"file".toList, authority, path, [], []⟩ := by
  have slash : Kept '/' := by unfold Kept; decide
  have kept : ∀ c ∈ '/' :: '/' :: (authority ++ path), Kept c := by
    refine List.forall_mem_cons.mpr ⟨slash, List.forall_mem_cons.mpr ⟨slash, fun c member => ?_⟩⟩
    rcases List.mem_append.mp member with member | member
    · exact (standing.inAuthority c member).1
    · exact (standing.inPath c member).1
  have chars : ∀ c ∈ 'f' :: "ile".toList, isSchemeChar c = true :=
    List.all_eq_true.mp (by decide)
  rw [List.append_assoc]
  exact ofChars_scheme (by decide) chars kept (cutAuthority_append standing) standing.inPath

theorem cutScheme_slash (cs : List Char) : cutScheme ('/' :: cs) = ([], '/' :: cs) := by
  rcases cutScheme_cases ('/' :: cs) with none | ⟨first, more, rest, split, letter, -, -⟩
  · exact none
  · cases split
    exact absurd letter (by decide)

/-- A text that starts with a slash has no scheme. -/
theorem scheme_slash (cs : List Char) : (ofChars ('/' :: cs)).scheme = [] := by
  have visible : clean ('/' :: cs) = '/' :: keptIn cs := by
    rw [clean_cons (by decide)]
    rfl
  rw [ofChars, visible, cutScheme_slash]

/-- A text that starts with a slash and then with neither a slash nor a control has no authority. -/
theorem authority_slash {c : Char} (other : c ≠ '/' ∧ Kept c) (cs : List Char) :
    (ofChars ('/' :: c :: cs)).authority = [] := by
  obtain ⟨slash, tab, carriage, feed⟩ := other
  have visible : clean ('/' :: c :: cs) = '/' :: c :: keptIn cs := by
    rw [clean_cons (by decide)]
    simp [keptIn, tab, carriage, feed]
  rw [ofChars, visible, cutScheme_slash]
  simp [cutAuthority, slash]

/-- What stands before the first colon is told by the whole. -/
theorem eq_of_append_colon {xs ys vs ws : List Char} (first : ':' ∉ xs) (second : ':' ∉ ys)
    (same : xs ++ ':' :: vs = ys ++ ':' :: ws) : xs = ys := by
  have before : ∀ {zs rest : List Char}, ':' ∉ zs →
      (zs ++ ':' :: rest).takeWhile (· ≠ ':') = zs := by
    intro zs rest free
    refine takeWhile_append_stop (fun c member => ?_) (by simp)
    simpa using fun same : c = ':' => free (same ▸ member)
  rw [← before first, same, before second]

theorem not_isSchemeChar_control : ∀ n : Fin 0x21, isSchemeChar (Char.ofNat n.val) = false := by
  decide

theorem visible_of_isSchemeChar {c : Char} (scheme : isSchemeChar c = true) : 0x20 < c.toNat := by
  by_contra control
  have row := not_isSchemeChar_control ⟨c.toNat, by omega⟩
  simp only [Char.ofNat_toNat, scheme] at row
  cases row

theorem isLetter_shift : ∀ n : Fin 26, isLetter (Char.ofNat (n.val + 65 + 32)) = true := by
  decide

theorem isLetter_lower {c : Char} (letter : isLetter c = true) : isLetter (lower c) = true := by
  by_cases upper : ('A' ≤ c && c ≤ 'Z') = true
  · rw [lower, if_pos upper]
    simp only [Bool.and_eq_true, decide_eq_true_eq, Char.le_def, UInt32.le_iff_toNat_le] at upper
    have least : 65 ≤ c.toNat := upper.1
    have greatest : c.toNat ≤ 90 := upper.2
    have row := isLetter_shift ⟨c.toNat - 65, by omega⟩
    simp only at row
    rwa [show c.toNat - 65 + 65 + 32 = c.toNat + 32 by omega] at row
  · rwa [lower, if_neg upper]

theorem isLetter_of_lower {c : Char} (letter : isLetter (lower c) = true) : isLetter c = true := by
  by_cases upper : ('A' ≤ c && c ≤ 'Z') = true
  · simp only [isLetter, upper, Bool.or_true]
  · rwa [lower, if_neg upper] at letter

theorem isSchemeChar_lower {c : Char} (scheme : isSchemeChar c = true) :
    isSchemeChar (lower c) = true := by
  by_cases letter : isLetter c = true
  · simp [isSchemeChar, isLetter_lower letter]
  · have stays : lower c = c := by
      refine if_neg fun upper => letter ?_
      simp only [isLetter, upper, Bool.or_true]
    rwa [stays]

/-! ## Writing a scheme in lower case -/

/-- The kept characters of a text: those in front, which are controls, and the cleaned text. -/
theorem exists_keptIn_eq (cs : List Char) :
    ∃ controls : List Char, (∀ c ∈ controls, c.toNat ≤ 0x20) ∧
      keptIn cs = controls ++ clean cs := by
  refine ⟨keptIn (cs.takeWhile fun c => c.toNat ≤ 0x20), fun c member => ?_, ?_⟩
  · simpa using List.mem_takeWhile_imp (List.mem_filter.mp member).1
  · rw [clean, ← keptIn, ← keptIn_append, List.takeWhile_append_dropWhile]

/-- When as many characters as a scheme has are dropped from the text that has it, then of the
scheme characters left before the colon each one is of the scheme, and the rest is left. -/
theorem left_of_dropped {cs scheme left rest later : List Char}
    (split : clean cs = scheme ++ ':' :: rest) (chars : ∀ c ∈ scheme, isSchemeChar c = true)
    (dropped : keptIn (cs.drop scheme.length) = left ++ ':' :: later)
    (left_chars : ∀ c ∈ left, isSchemeChar c = true) :
    (∀ c ∈ left, c ∈ scheme) ∧ later = rest := by
  obtain ⟨controls, small, kept⟩ := exists_keptIn_eq cs
  have noColon : ':' ∉ controls ++ scheme := by
    intro member
    rcases List.mem_append.mp member with member | member
    · exact absurd (small _ member) (by decide)
    · exact colon_not_isSchemeChar chars member
  rw [split, ← List.append_assoc, ← List.take_append_drop scheme.length cs, keptIn_append,
    dropped, ← List.append_assoc] at kept
  -- What is dropped is no longer than what stands before the colon, so that it has no colon.
  have front : keptIn (cs.take scheme.length) <+: controls ++ scheme := by
    apply List.prefix_of_prefix_length_le
      (⟨left ++ ':' :: later, rfl⟩ : _ <+: _ ++ (left ++ ':' :: later))
    · rw [← List.append_assoc, kept]
      exact ⟨_, rfl⟩
    · have bound : (keptIn (cs.take scheme.length)).length ≤ _ := List.length_filter_le _ _
      rw [List.length_take] at bound
      rw [List.length_append]
      omega
  have same : keptIn (cs.take scheme.length) ++ left = controls ++ scheme := by
    apply eq_of_append_colon _ noColon kept
    intro member
    rcases List.mem_append.mp member with member | member
    · exact noColon (front.subset member)
    · exact colon_not_isSchemeChar left_chars member
  rw [same] at kept
  refine ⟨fun c member => ?_, List.cons.inj (List.append_cancel_left kept) |>.2⟩
  rcases List.mem_append.mp (same ▸ List.mem_append_right _ member) with control | inside
  · have := small c control
    have := visible_of_isSchemeChar (left_chars c member)
    omega
  · exact inside

/-- A text that is not `file` does not become so when characters of its own are added. -/
theorem append_ne_file {scheme letters : List Char} (other : scheme ≠ "file".toList)
    (inside : ∀ d ∈ letters, d ∈ scheme) : scheme ++ letters ≠ "file".toList := by
  intro file
  rcases List.eq_nil_or_concat letters with rfl | ⟨most, last, rfl⟩
  · exact other (by simpa using file)
  · rw [List.concat_eq_append] at file inside
    rw [← List.append_assoc] at file
    -- The last letter is the one of `file` that no other is.
    obtain ⟨front, ends⟩ := List.append_inj' (file.trans (by rfl : _ = "fil".toList ++ ['e'])) rfl
    have ends : last = 'e' := by simpa using ends
    have member : 'e' ∈ "fil".toList := by
      rw [← front]
      exact List.mem_append_left _ (inside 'e' (by simp [ends]))
    exact absurd member (by decide)

/-- A scheme is made of scheme characters. -/
theorem scheme_ofChars (cs : List Char) :
    ∀ c ∈ (ofChars cs).scheme, isSchemeChar c = true := by
  have cut : (ofChars cs).scheme = (cutScheme (clean cs)).1 := rfl
  rw [cut]
  rcases cutScheme_cases (clean cs) with none | ⟨first, more, rest, -, -, chars, found⟩
  · simp [none]
  · rw [found]
    intro c member
    obtain ⟨d, inside, rfl⟩ := List.mem_map.mp member
    exact isSchemeChar_lower (chars d inside)

/-- What is read after the scheme of a text has been written in lower case in front of what stands
after as many characters: no scheme, or one that goes on with letters of its own before the same
rest. Controls in the text shift what stands there. -/
theorem lowered_cases (cs : List Char) :
    let lowered := (ofChars cs).scheme ++ cs.drop (ofChars cs).scheme.length
    (ofChars lowered).scheme = [] ∨
      ∃ letters, (ofChars lowered).scheme = (ofChars cs).scheme ++ letters ∧
        (∀ d ∈ letters, d ∈ (ofChars cs).scheme) ∧
        (ofChars lowered).authority = (ofChars cs).authority := by
  have fixed := map_lower_scheme cs
  have schemeChars := scheme_ofChars cs
  have cut : (ofChars cs).scheme = (cutScheme (clean cs)).1 := rfl
  have authority : (ofChars cs).authority = (cutAuthority (cutScheme (clean cs)).2).1 := rfl
  rcases cutScheme_cases (clean cs) with none | ⟨first, more, rest, split, letter, chars, found⟩
  · have nothing : (ofChars cs).scheme = [] := by rw [cut, none]
    rw [nothing]
    exact Or.inl nothing
  rw [found] at cut authority
  rw [authority]
  simp only at cut
  generalize (ofChars cs).scheme = scheme at cut fixed schemeChars
  have whole : clean (scheme ++ cs.drop scheme.length) =
      scheme ++ keptIn (cs.drop scheme.length) := by
    rw [cut] at schemeChars ⊢
    exact clean_append (isLetter_lower letter) schemeChars _
  have size : scheme.length = (first :: more).length := by rw [cut, List.length_map]
  simp only [ofChars, whole]
  rcases cutScheme_cases (scheme ++ keptIn (cs.drop scheme.length)) with
    none | ⟨head, tail, later, split', letter', chars', found'⟩
  · exact Or.inl (by rw [none])
  rw [found']
  refine Or.inr ?_
  rcases List.append_eq_append_iff.mp split' with ⟨left, longer, rest'⟩ | ⟨cutOff, shorter, rest'⟩
  · obtain ⟨inside, same⟩ := left_of_dropped split chars (size ▸ rest')
      fun c member => chars' c (longer ▸ List.mem_append_right _ member)
    refine ⟨left.map lower, by rw [longer, List.map_append, fixed], ?_, by rw [same]⟩
    intro d member
    obtain ⟨c, here, rfl⟩ := List.mem_map.mp member
    rw [cut]
    exact List.mem_map_of_mem (inside c here)
  · cases cutOff with
    | nil =>
      rw [List.append_nil] at shorter
      have dropped : keptIn (cs.drop scheme.length) = [] ++ ':' :: later := rest'.symm
      have left := left_of_dropped split chars (size ▸ dropped) (by simp)
      exact ⟨[], by simp [← shorter, fixed], by simp, by rw [left.2]⟩
    | cons colon rest =>
      rw [List.cons_append, List.cons.injEq] at rest'
      refine absurd ?_ (colon_not_isSchemeChar schemeChars)
      rw [shorter, rest'.1]
      simp

/-- A scheme that is not `file` does not become so when it is written in lower case. -/
theorem scheme_lowered {cs : List Char} (other : (ofChars cs).scheme ≠ "file".toList) :
    (ofChars ((ofChars cs).scheme ++ cs.drop (ofChars cs).scheme.length)).scheme ≠
      "file".toList := by
  rcases lowered_cases cs with none | ⟨letters, scheme, inside, -⟩
  · rw [none]
    simp
  · rw [scheme]
    exact append_ne_file other inside

end Classpath.Uri.Reference
