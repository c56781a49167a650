import Classpath.Yaml.Cursor

/-! # The texts of YAML scalars

A scalar is written plainly, between single or double quotes, or as a block of lines. Line ends
inside are folded: a single one is a space, of several the first is dropped. In a block marked with
a bar they stay. Each reader is given the cursor at the scalar and returns its text and the cursor
after it.
-/

namespace Classpath.Yaml.Scalar

open Cursor

/-- What line ends between two parts of a scalar stand for. -/
def folded (first : List Char) (more : List (List Char)) : List Char :=
  (if first ≠ ['\n'] then first else if more.isEmpty then [' '] else []) ++ more.flatten

/-! ## Quoted scalars -/

/-- The character of a short escape. -/
def shortEscape? (c : Char) : Option Char :=
  let table : List (Char × Nat) :=
    [('0', 0x00), ('a', 0x07), ('b', 0x08), ('t', 0x09), ('\t', 0x09), ('n', 0x0A), ('v', 0x0B),
      ('f', 0x0C), ('r', 0x0D), ('e', 0x1B), (' ', 0x20), ('"', 0x22), ('\\', 0x5C), ('/', 0x2F),
      ('N', 0x85), ('_', 0xA0), ('L', 0x2028), ('P', 0x2029)]
  (table.lookup c).map Char.ofNat

/-- The number of digits of a numeric escape. -/
def escapeWidth? (c : Char) : Option Nat :=
  if c = 'x' then some 2 else if c = 'u' then some 4 else if c = 'U' then some 8 else none

/-- Line ends with spaces and tabs around them, up to other text. A document mark may not follow. -/
def quotedBreaks : Nat → Cursor → Reading (List (List Char) × Cursor)
  | 0, c => .ok ([], c)
  | fuel + 1, c => do
    expect (!c.atDocumentMark)
    let c := c.skipWhile fun ch => ch = ' ' || ch = '\t'
    if isBreak c.here then
      let (first, c) := c.lineBreak
      let (more, c) ← quotedBreaks fuel c
      return (first :: more, c)
    else return ([], c)

/-- The blanks inside quotes: kept within a line, folded at line ends. -/
def quotedSpaces (c : Cursor) : Reading (List Char × Cursor) := do
  let (spaces, c) := c.take fun ch => ch = ' ' || ch = '\t'
  expect (c.here ≠ endMark)
  if isBreak c.here then
    let (first, c) := c.lineBreak
    let (more, c) ← quotedBreaks (c.rest.length + 1) c
    return (folded first more, c)
  else return (spaces, c)

/-- The character of a numeric escape, half of a surrogate pair included. -/
def characterOf (code : Nat) : Reading Char :=
  if 0x80000000 ≤ code then .error .hugeCharacter
  else if 0x110000 ≤ code then .error .notCharacter
  else .ok (Text.ofCode code)

/-- A numeric escape after its letter. -/
def numericEscape (width : Nat) (c : Cursor) : Reading (Char × Cursor) := do
  let digits := c.rest.take width
  expect (digits.length = width && digits.all Text.isHexDigit)
  return (← characterOf ((Text.readNat? 16 digits).getD 0), c.skip width)

/-- An escape after its backslash. -/
def escape (c : Cursor) : Reading (List Char × Cursor) := do
  match shortEscape? c.here, escapeWidth? c.here with
  | some ch, _ => return ([ch], c.step)
  | none, some width =>
    let (ch, c) ← numericEscape width c.step
    return ([ch], c)
  | none, none =>
    expect (isBreak c.here)
    let c := c.lineBreak.2
    let (breaks, c) ← quotedBreaks (c.rest.length + 1) c
    return (breaks.flatten, c)

/-- The text between quotes, from after the opening one to after the closing one. -/
def quoted (double : Bool) : Nat → Cursor → Reading (List Char × Cursor)
  | 0, _ => malformed
  | fuel + 1, c => do
    let ch := c.here
    if isBlankOrEnd ch then
      let (spaces, c) ← quotedSpaces c
      let (more, c) ← quoted double fuel c
      return (spaces ++ more, c)
    else if double && ch = '"' then return ([], c.step)
    else if double && ch = '\\' then
      let (escaped, c) ← escape c.step
      let (more, c) ← quoted double fuel c
      return (escaped ++ more, c)
    else if !double && ch = '\'' && c.peek 1 ≠ '\'' then return ([], c.step)
    else
      let c := if !double && ch = '\'' then c.step else c
      let (more, c) ← quoted double fuel c.step
      return (ch :: more, c)

/-! ## Plain scalars -/

/-- Whether a plain scalar ends at the cursor. -/
def plainEnds (flow : Bool) (c : Cursor) : Bool :=
  let ch := c.here
  let next := c.peek 1
  let isFlowMark (d : Char) := d = ',' || d = '[' || d = ']' || d = '\x7b' || d = '\x7d'
  isBlankOrEnd ch || (ch = ':' && (isBlankOrEnd next || (flow && isFlowMark next))) ||
    (flow && (isFlowMark ch || ch = '?'))

/-- The part of a plain scalar up to the next blank, and the cursor after it. -/
def plainPart (flow : Bool) : Nat → Cursor → List Char × Cursor
  | 0, c => ([], c)
  | fuel + 1, c =>
    if plainEnds flow c then ([], c)
    else
      let (more, after) := plainPart flow fuel c.step
      (c.here :: more, after)

/-- The blanks after a part of a plain scalar. -/
structure Gap where
  /-- What the blanks stand for when the scalar goes on; nothing if it cannot. -/
  text : Option (List Char)
  /-- Whether a line end is among them. -/
  broken : Bool
  after : Cursor

/-- Line ends and spaces after a line end. Nothing if a document mark follows one. -/
def plainBreaks : Nat → Cursor → Option (List (List Char)) × Cursor
  | 0, c => (some [], c)
  | fuel + 1, c =>
    if c.here = ' ' then plainBreaks fuel c.step
    else if isBreak c.here then
      let (first, c) := c.lineBreak
      if c.atDocumentMark then (none, c)
      else
        let (more, c) := plainBreaks fuel c
        (more.map (first :: ·), c)
    else (some [], c)

/-- The blanks at the cursor. -/
def plainGap (c : Cursor) : Gap :=
  let (spaces, c) := c.take (· = ' ')
  if isBreak c.here then
    let (first, c) := c.lineBreak
    if c.atDocumentMark then ⟨none, true, c⟩
    else
      let (more, c) := plainBreaks (c.rest.length + 1) c
      ⟨more.map (folded first), true, c⟩
  else ⟨if spaces.isEmpty then none else some spaces, false, c⟩

/-- A plain scalar after its first part: its text, whether a line end was passed last, and the
cursor after it. `before` is the gap before the next part. -/
def plainRest (flow : Bool) (indent : Nat) : Nat → Gap → List Char × Bool × Cursor
  | 0, before => ([], before.broken, before.after)
  | fuel + 1, before =>
    let c := before.after
    match before.text with
    | none => ([], before.broken, c)
    | some gap =>
      if c.here = '#' || (!flow && c.column < indent) then ([], before.broken, c)
      else
        let (part, after) := plainPart flow (c.rest.length + 1) c
        if part.isEmpty then ([], before.broken, c)
        else
          let (more, broken, after) := plainRest flow indent fuel (plainGap after)
          (gap ++ part ++ more, broken, after)

/-- A plain scalar: its text, whether it is followed by a line end, and the cursor after it. In a
block its later lines stand at least at `indent`. -/
def plain (flow : Bool) (indent : Nat) (c : Cursor) : List Char × Bool × Cursor :=
  let (part, after) := plainPart flow (c.rest.length + 1) c
  let (more, broken, after) := plainRest flow indent (c.rest.length + 1) (plainGap after)
  (part ++ more, broken, after)

/-! ## Block scalars -/

/-- What becomes of the line ends at the end of a block. -/
inductive Chomp where
  | clip
  | strip
  | keep
deriving DecidableEq

/-- The header of a block: a sign for the last line ends and a digit for the indentation, in either
order. -/
def blockHeader (c : Cursor) : Reading (Chomp × Option Nat × Cursor) := do
  let sign (c : Cursor) : Chomp × Cursor :=
    if c.here = '+' then (.keep, c.step)
    else if c.here = '-' then (.strip, c.step)
    else (.clip, c)
  let digit (c : Cursor) : Option Nat × Cursor :=
    match Text.digitIn? 10 c.here with
    | some d => (some d, c.step)
    | none => (none, c)
  let (chomp, c) := sign c
  let (increment, c) := digit c
  let (chomp, c) := if chomp = .clip then sign c else (chomp, c)
  expect (increment ≠ some 0)
  expect (isSpaceOrEnd c.here)
  return (chomp, increment, ← c.ignoredLine)

/-- Empty lines before a block of unknown indentation: the line ends, the greatest column that
spaces reach, and the cursor after them. -/
def leadingLines : Nat → Nat → Cursor → List (List Char) × Nat × Cursor
  | 0, widest, c => ([], widest, c)
  | fuel + 1, widest, c =>
    if c.here = ' ' then leadingLines fuel (max widest c.step.column) c.step
    else if isBreak c.here then
      let (first, c) := c.lineBreak
      let (more, widest, c) := leadingLines fuel widest c
      (first :: more, widest, c)
    else ([], widest, c)

/-- Empty lines between the lines of a block, and the indentation of the next line. -/
def blockBreaks (indent : Nat) : Nat → Cursor → List (List Char) × Cursor
  | 0, c => ([], c)
  | fuel + 1, c =>
    let c := c.skipSpaces (indent - c.column)
    if isBreak c.here then
      let (first, c) := c.lineBreak
      let (more, c) := blockBreaks indent fuel c
      (first :: more, c)
    else ([], c)

/-- The lines of a block: the text up to its last line, the line end after it, the empty lines that
follow, and the cursor after them. -/
def blockLines (fold : Bool) (indent : Nat) :
    Nat → List (List Char) → Cursor → List Char × List Char × List (List Char) × Cursor
  | 0, breaks, c => ([], [], breaks, c)
  | fuel + 1, breaks, c =>
    let starts := c.here ≠ ' ' && c.here ≠ '\t'
    let (line, c) := c.take fun ch => !isBreakOrEnd ch
    let (lineEnd, c) := c.lineBreak
    let (next, c) := blockBreaks indent (c.rest.length + 1) c
    let text := breaks.flatten ++ line
    if c.column = indent && c.here ≠ endMark then
      let joint :=
        if fold && lineEnd = ['\n'] && starts && c.here ≠ ' ' && c.here ≠ '\t' then
          if next.isEmpty then [' '] else []
        else lineEnd
      let (more, last, after, c) := blockLines fold indent fuel next c
      (text ++ joint ++ more, last, after, c)
    else (text, lineEnd, next, c)

/-- A block scalar after its mark, inside a block of the given least indentation. -/
def block (fold : Bool) (least : Nat) (c : Cursor) : Reading (List Char × Cursor) := do
  let (chomp, increment, c) ← blockHeader c
  let (indent, breaks, c) :=
    match increment with
    | none =>
      let (breaks, widest, c) := leadingLines (c.rest.length + 1) 0 c
      (max least widest, breaks, c)
    | some n =>
      let indent := least + n - 1
      let (breaks, c) := blockBreaks indent (c.rest.length + 1) c
      (indent, breaks, c)
  let (text, last, after, c) :=
    if c.column = indent && c.here ≠ endMark then
      blockLines fold indent (c.rest.length + 1) breaks c
    else ([], [], breaks, c)
  let tail :=
    match chomp with
    | .strip => []
    | .clip => last
    | .keep => last ++ after.flatten
  return (text ++ tail, c)

end Classpath.Yaml.Scalar
