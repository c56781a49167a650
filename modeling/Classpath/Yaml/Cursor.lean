import Classpath.Fault

/-! # Places in a YAML text

A cursor stands at a place of the text and knows its index, line and column. Past the end it sees a
NUL, which no text holds. A line ends at a line feed, a carriage return, both together, or one of
the three other characters that end a line.
-/

namespace Classpath.Yaml

/-- The outcome of reading a part of a text. -/
abbrev Reading (α : Type) := Except Fault α

/-- The text is malformed. -/
def malformed {α : Type} : Reading α :=
  .error (.malformed .yaml)

/-- Refuse a text that does not fit. -/
def expect (fits : Bool) : Reading Unit :=
  if fits then .ok () else malformed

/-- What a cursor sees past the end. -/
def endMark : Char := '\x00'

/-- A character that ends a line. -/
def isBreak (c : Char) : Bool :=
  c = '\n' || c = '\r' || c = '\u0085' || c = '\u2028' || c = '\u2029'

/-- The end of a line or of the text. -/
def isBreakOrEnd (c : Char) : Bool :=
  isBreak c || c = endMark

/-- A space, the end of a line or the end of the text. -/
def isSpaceOrEnd (c : Char) : Bool :=
  c = ' ' || isBreakOrEnd c

/-- A space or tab, the end of a line or the end of the text. -/
def isBlankOrEnd (c : Char) : Bool :=
  c = '\t' || isSpaceOrEnd c

/-- A character of a name: an ASCII letter or digit, a dash or an underscore. -/
def isWordChar (c : Char) : Bool :=
  c.isAlphanum || c = '-' || c = '_'

/-- A place in a text. -/
structure Cursor where
  rest : List Char
  index : Nat
  line : Nat
  column : Nat

namespace Cursor

/-- The start of a text. -/
def ofText (s : String) : Cursor :=
  ⟨s.toList, 0, 0, 0⟩

/-- The character some places ahead. -/
def peek (c : Cursor) (ahead : Nat) : Char :=
  (c.rest[ahead]?).getD endMark

/-- The character at the cursor. -/
def here (c : Cursor) : Char :=
  c.peek 0

/-- One character further. A byte order mark takes no column. -/
def step (c : Cursor) : Cursor :=
  match c.rest with
  | [] => c
  | ch :: rest =>
    if isBreak ch && !(ch = '\r' && rest.head? = some '\n') then ⟨rest, c.index + 1, c.line + 1, 0⟩
    else ⟨rest, c.index + 1, c.line, if ch = '\uFEFF' then c.column else c.column + 1⟩

/-- Some characters further. -/
def skip (c : Cursor) : Nat → Cursor
  | 0 => c
  | n + 1 => c.step.skip n

/-- The characters of a class at the cursor, and the cursor after them. -/
def take (c : Cursor) (p : Char → Bool) : List Char × Cursor :=
  let taken := c.rest.takeWhile p
  (taken, c.skip taken.length)

/-- The cursor after the characters of a class. -/
def skipWhile (c : Cursor) (p : Char → Bool) : Cursor :=
  (c.take p).2

/-- The cursor after at most some spaces. -/
def skipSpaces (c : Cursor) (most : Nat) : Cursor :=
  c.skip (min most (c.rest.takeWhile (· = ' ')).length)

/-- Whether a text stands at the cursor. -/
def startsWith (c : Cursor) (s : String) : Bool :=
  s.toList.isPrefixOf c.rest

/-- Whether the cursor stands at dashes or dots that part documents. -/
def atDocumentMark (c : Cursor) : Bool :=
  (c.startsWith "---" || c.startsWith "...") && isBlankOrEnd (c.peek 3)

/-- The end of a line at the cursor, as it counts in a scalar, and the cursor after it. -/
def lineBreak (c : Cursor) : List Char × Cursor :=
  match c.rest with
  | '\r' :: '\n' :: _ => (['\n'], c.skip 2)
  | ch :: _ =>
    if ch = '\u2028' || ch = '\u2029' then ([ch], c.step)
    else if isBreak ch then (['\n'], c.step)
    else ([], c)
  | [] => ([], c)

/-- The cursor after a comment that stands at it. -/
def skipComment (c : Cursor) : Cursor :=
  if c.here = '#' then c.skipWhile fun ch => !isBreakOrEnd ch else c

/-- The rest of a line that may hold spaces and a comment only. -/
def ignoredLine (c : Cursor) : Reading Cursor := do
  let c := (c.skipWhile (· = ' ')).skipComment
  expect (isBreakOrEnd c.here)
  return c.lineBreak.2

end Cursor

end Classpath.Yaml
