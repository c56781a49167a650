/-! # White space at the ends of a text

Two classes of blank characters occur: the white space that is trimmed from a location, and the
narrower class that may stand around a numeral.
The main statements say that the narrower class is contained in the wider one, that no blank is
left at the front of a trimmed text, and that a text of blanks trims to nothing.
-/

namespace Classpath.Text

/-- The Unicode property White_Space. -/
def isSpace (c : Char) : Bool :=
  let n := c.toNat
  (0x9 ≤ n && n ≤ 0xD) || n == 0x20 || n == 0x85 || n == 0xA0 || n == 0x1680 ||
    (0x2000 ≤ n && n ≤ 0x200A) || n == 0x2028 || n == 0x2029 || n == 0x202F || n == 0x205F ||
    n == 0x3000

/-- White space together with the four information separators. -/
def isBlank (c : Char) : Bool :=
  isSpace c || (0x1C ≤ c.toNat && c.toNat ≤ 0x1F)

theorem isBlank_of_isSpace {c : Char} (space : isSpace c = true) : isBlank c = true := by
  simp [isBlank, space]

/-- Core's white space is blank. -/
theorem isBlank_of_isWhitespace {c : Char} (white : c.isWhitespace = true) :
    isBlank c = true := by
  simp only [Char.isWhitespace, Bool.or_eq_true, decide_eq_true_eq] at white
  rcases white with ((rfl | rfl) | rfl) | rfl <;> decide

/-- Drop the characters of a class from both ends. -/
def trimEnds (drop : Char → Bool) (cs : List Char) : List Char :=
  ((cs.dropWhile drop).reverse.dropWhile drop).reverse

/-- Drop blanks from both ends. -/
def trim (s : String) : String :=
  String.ofList (trimEnds isBlank s.toList)

/-- A text without any character but blanks. -/
def blank (s : String) : Bool :=
  s.toList.all isBlank

/-- No blank is left at the front of a trimmed text. -/
theorem head?_dropWhile_not (drop : Char → Bool) (cs : List Char) :
    ∀ c, (cs.dropWhile drop).head? = some c → drop c = false := by
  induction cs with
  | nil => simp
  | cons first rest ih =>
    intro c found
    by_cases dropped : drop first = true
    · rw [List.dropWhile_cons, if_pos dropped] at found
      exact ih c found
    · rw [List.dropWhile_cons, if_neg dropped] at found
      simp only [List.head?_cons, Option.some.injEq] at found
      subst found
      simpa using dropped

/-- What is trimmed away is all of the class: a text of blanks trims to nothing. -/
theorem trimEnds_of_all {drop : Char → Bool} {cs : List Char} (every : cs.all drop = true) :
    trimEnds drop cs = [] := by
  have gone : cs.dropWhile drop = [] := by
    induction cs with
    | nil => rfl
    | cons first rest ih =>
      rw [List.all_cons, Bool.and_eq_true] at every
      rw [List.dropWhile_cons, if_pos every.1]
      exact ih every.2
  simp [trimEnds, gone]

end Classpath.Text
