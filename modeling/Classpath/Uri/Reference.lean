import Classpath.Uri.Percent

/-! # The parts of a reference

A text is cut into scheme, authority, path, query and fragment. Control characters and spaces in
front of it and tabs and line ends anywhere are no part of it. The cut never fails: whether the
authority may stand is a question of its own. The main statement says that a scheme is in lower
case.
-/

namespace Classpath.Uri

/-- The parts of a reference. An absent scheme or authority is empty. -/
structure Reference where
  scheme : List Char
  authority : List Char
  path : List Char
  query : List Char
  fragment : List Char
deriving DecidableEq, Repr

namespace Reference

/-- The lower case of an ASCII letter; any other character stays. -/
def lower (c : Char) : Char :=
  if 'A' ≤ c && c ≤ 'Z' then Char.ofNat (c.toNat + 32) else c

/-- A character of a scheme. -/
def isSchemeChar (c : Char) : Bool :=
  isLetter c || Text.isDigit c || c = '+' || c = '-' || c = '.'

/-- Drop what is no part of a reference: controls and spaces in front, tabs and line ends. -/
def clean (cs : List Char) : List Char :=
  (cs.dropWhile fun c => c.toNat ≤ 0x20).filter fun c => c ≠ '\t' && c ≠ '\r' && c ≠ '\n'

/-- Cut off a scheme: a letter and further scheme characters up to the first colon. -/
def cutScheme (cs : List Char) : List Char × List Char :=
  let scheme := cs.takeWhile (· ≠ ':')
  match scheme, cs.drop scheme.length with
  | first :: _, _ :: rest =>
    if isLetter first && scheme.all isSchemeChar then (scheme.map lower, rest) else ([], cs)
  | _, _ => ([], cs)

/-- Cut off an authority, which follows two slashes and ends before a slash, `?` or `#`. -/
def cutAuthority : List Char → List Char × List Char
  | '/' :: '/' :: rest =>
    let authority := rest.takeWhile fun c => c ≠ '/' && c ≠ '?' && c ≠ '#'
    (authority, rest.drop authority.length)
  | cs => ([], cs)

/-- Cut at the first occurrence of a character, which belongs to neither part. -/
def cutAt (mark : Char) (cs : List Char) : List Char × List Char :=
  let before := cs.takeWhile (· ≠ mark)
  (before, cs.drop (before.length + 1))

/-- Cut a text into the parts of a reference. -/
def ofChars (cs : List Char) : Reference :=
  let (scheme, rest) := cutScheme (clean cs)
  let (authority, rest) := cutAuthority rest
  let (rest, fragment) := cutAt '#' rest
  let (path, query) := cutAt '?' rest
  { scheme, authority, path, query, fragment }

/-- Cut a text into the parts of a reference. -/
def ofText (s : String) : Reference :=
  ofChars s.toList

/-- The schemes whose last path segment may end in parameters after a semicolon. -/
def schemesWithParameters : List String :=
  ["", "ftp", "hdl", "prospero", "http", "https", "shttp", "rtsp", "rtsps", "rtspu", "sip", "sips",
  "mms", "sftp", "tel"]

/-- The path without the parameters of its last segment. -/
def pathWithoutParameters (r : Reference) : List Char :=
  if schemesWithParameters.contains (String.ofList r.scheme) then
    let last := (r.path.reverse.takeWhile (· ≠ '/')).reverse
    r.path.take (r.path.length - last.length) ++ last.takeWhile (· ≠ ';')
  else r.path

theorem toNat_shift : ∀ n : Fin 26, (Char.ofNat (n.val + 65 + 32)).toNat = n.val + 97 := by
  decide

theorem lower_lower (c : Char) : lower (lower c) = lower c := by
  by_cases upper : ('A' ≤ c && c ≤ 'Z') = true
  · have shifted : lower c = Char.ofNat (c.toNat + 32) := if_pos upper
    simp only [Bool.and_eq_true, decide_eq_true_eq, Char.le_def, UInt32.le_iff_toNat_le] at upper
    have least : 65 ≤ c.toNat := upper.1
    have greatest : c.toNat ≤ 90 := upper.2
    have value : (Char.ofNat (c.toNat + 32)).toNat = c.toNat + 32 := by
      have row := toNat_shift ⟨c.toNat - 65, by omega⟩
      simp only at row
      rw [show c.toNat - 65 + 65 + 32 = c.toNat + 32 by omega] at row
      omega
    rw [shifted]
    refine if_neg ?_
    intro inside
    simp only [Bool.and_eq_true, decide_eq_true_eq, Char.le_def, UInt32.le_iff_toNat_le] at inside
    have bound : (Char.ofNat (c.toNat + 32)).toNat ≤ 90 := inside.2
    omega
  · have stays : lower c = c := if_neg upper
    rw [stays, stays]

/-- The scheme of a reference is in lower case. -/
theorem map_lower_scheme (cs : List Char) :
    (ofChars cs).scheme.map lower = (ofChars cs).scheme := by
  have cut : ∀ ds : List Char, (cutScheme ds).1.map lower = (cutScheme ds).1 := by
    intro ds
    unfold cutScheme
    dsimp only
    split
    · split
      · simp [Function.comp_def, lower_lower]
      · rfl
    · rfl
  exact cut (clean cs)

end Reference

end Classpath.Uri
