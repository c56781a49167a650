import Classpath.Value.Printer
import Classpath.Yaml.Tag

/-! # Writing YAML

A value is written in blocks: each entry of a table and each item of a list on a line of its own. A
text is written plainly where it reads back as the same text, else between single quotes, and
between double quotes where it holds a character that is not printable ASCII. A long text is folded
at single spaces after the eightieth column. A key that is empty, long or of several lines is marked
by a question mark.
-/

namespace Classpath.Yaml

/-- The forms of a text. -/
inductive Style where
  | plain
  | single
  | double
deriving DecidableEq

namespace Style

/-- The column after which a text is folded. -/
def width : Nat := 80

/-- A character that needs an escape. -/
def isSpecial (c : Char) : Bool :=
  !(c = '\n' || (0x20 ≤ c.toNat && c.toNat ≤ 0x7E))

/-- A line end or a blank, as they count beside a mark. -/
def isGap (c : Char) : Bool :=
  c = ' ' || c = '\t' || isBreak c || c = endMark

/-- Whether the marks of a text have a meaning of their own outside quotes. `before` tells whether a
blank or nothing stands in front. -/
def hasMarks (before : Bool) : List Char → Bool
  | [] => false
  | c :: rest =>
    let after := (rest.head?.map isGap).getD true
    (c = ':' && after) || (c = '#' && before) || hasMarks (isGap c) rest

/-- Whether the start of a text has a meaning of its own outside quotes. -/
def startsWithMark (cs : List Char) : Bool :=
  match cs with
  | [] => false
  | c :: rest =>
    let after := (rest.head?.map isGap).getD true
    "#,[]\x7b\x7d&*!|>'\"%@`".toList.contains c || ((c = '?' || c = ':' || c = '-') && after) ||
      "---".toList.isPrefixOf cs || "...".toList.isPrefixOf cs

/-- Whether one character of a text is followed by another. -/
def hasPair (first second : Char) : List Char → Bool
  | a :: b :: rest => (a = first && b = second) || hasPair first second (b :: rest)
  | _ => false

/-- A blank or line end is at an end of the text. -/
def hasOuterSpace (cs : List Char) : Bool :=
  let isOuter (c : Option Char) : Bool := c = some ' ' || c = some '\n'
  isOuter cs.head? || isOuter cs.getLast?

/-- The style of a text. `onLine` tells that it has to stand on one line, as a key without a mark
does. -/
def of (onLine : Bool) (s : String) : Style :=
  let cs := s.toList
  let broken := cs.contains '\n'
  let special := cs.any isSpecial || hasPair ' ' '\n' cs
  let plainFits := !cs.isEmpty && !hasOuterSpace cs && !special && !broken &&
    !startsWithMark cs && !hasMarks true cs && Tag.ofForm s = .text
  let singleFits := !special && !hasPair '\n' ' ' cs && !(onLine && broken)
  if plainFits then .plain else if singleFits then .single else .double

/-! ## Folding -/

/-- A new line with its indentation. -/
def newLine (indent : Nat) : List Char :=
  '\n' :: List.replicate indent ' '

/-- How a text is laid out: whether it may be folded, and where its next lines begin. -/
structure Layout where
  folds : Bool
  indent : Nat

/-- A plain text from a column on. -/
def writePlain (layout : Layout) (column : Nat) : List Char → List Char
  | [] => []
  | ' ' :: rest =>
    let single := rest.head? ≠ some ' '
    if layout.folds && single && width < column then
      newLine layout.indent ++ writePlain layout layout.indent rest
    else ' ' :: writePlainSpaces layout (column + 1) rest
  | c :: rest => c :: writePlain layout (column + 1) rest
where
  /-- Inside a run of spaces, which stays as it is. -/
  writePlainSpaces (layout : Layout) (column : Nat) : List Char → List Char
    | ' ' :: rest => ' ' :: writePlainSpaces layout (column + 1) rest
    | [] => []
    | c :: rest => c :: writePlain layout (column + 1) rest

/-- The inside of single quotes from a column on. A single space is folded unless it is the first or
last character; a run of line ends gets one more. -/
def writeSingle (layout : Layout) (first inSpaces inBreaks : Bool) (column : Nat) :
    List Char → List Char
  | [] => if inBreaks then List.replicate layout.indent ' ' else []
  | '\n' :: rest =>
    (if inBreaks then ['\n'] else ['\n', '\n']) ++
      writeSingle layout false false true layout.indent rest
  | c :: rest =>
    (if inBreaks then List.replicate layout.indent ' ' else []) ++
      (if c = ' ' then
        let single := !inSpaces && rest.head? ≠ some ' '
        if layout.folds && single && !first && !rest.isEmpty && width < column then
          newLine layout.indent ++ writeSingle layout false true false layout.indent rest
        else ' ' :: writeSingle layout false true false (column + 1) rest
      else if c = '\'' then '\'' :: '\'' :: writeSingle layout false false false (column + 2) rest
      else c :: writeSingle layout false false false (column + 1) rest)

/-- The escape of a character inside double quotes, if it needs one. -/
def escape? (c : Char) : Option (List Char) :=
  let short : List (Nat × Char) :=
    [(0x00, '0'), (0x07, 'a'), (0x08, 'b'), (0x09, 't'), (0x0A, 'n'), (0x0B, 'v'), (0x0C, 'f'),
      (0x0D, 'r'), (0x1B, 'e'), (0x22, '"'), (0x5C, '\\'), (0x85, 'N'), (0xA0, '_'),
      (0x2028, 'L'), (0x2029, 'P')]
  let n := c.toNat
  match short.lookup n with
  | some letter => some ['\\', letter]
  | none =>
    let upper (width : Nat) : List Char := (Text.paddedHex width n).toList.map Char.toUpper
    if 0x20 ≤ n && n ≤ 0x7E then none
    else if n < 0x100 then some ('\\' :: 'x' :: upper 2)
    else if n < 0x10000 then some ('\\' :: 'u' :: upper 4)
    else some ('\\' :: 'U' :: upper 8)

/-- The inside of double quotes from a column on. `place` counts the characters before, `size` all
of them, and `pending` characters have not been counted in the column yet. A line is broken after a
backslash; a space that begins the next line is escaped. -/
def writeDouble (layout : Layout) (size place column pending : Nat) : List Char → List Char
  | [] => []
  | c :: rest =>
    let inner := layout.folds && 0 < place && place + 1 < size
    match escape? c with
    | some escaped =>
      let column := column + pending + escaped.length
      if inner && width + 1 < column then
        let opening := if rest.head? = some ' ' then ['\\'] else []
        escaped ++ '\\' :: newLine layout.indent ++ opening ++
          writeDouble layout size (place + 1) (layout.indent + opening.length) 0 rest
      else escaped ++ writeDouble layout size (place + 1) column 0 rest
    | none =>
      if inner && (c = ' ' || pending = 0) && width < column + pending then
        let opening := if c = ' ' then ['\\'] else []
        '\\' :: newLine layout.indent ++ opening ++ c ::
          writeDouble layout size (place + 1) (layout.indent + opening.length) 1 rest
      else c :: writeDouble layout size (place + 1) column (pending + 1) rest

/-- A text in its style, from a column on. -/
def write (style : Style) (layout : Layout) (column : Nat) (s : String) : String :=
  let cs := s.toList
  match style with
  | .plain => String.ofList (writePlain layout column cs)
  | .single =>
    String.ofList ('\'' :: writeSingle layout true false false (column + 1) cs ++ ['\''])
  | .double =>
    String.ofList ('"' :: writeDouble layout cs.length 0 (column + 1) 0 cs ++ ['"'])

end Style

namespace Writer

/-- Spaces at the start of a line. -/
def pad (indent : Nat) : String :=
  String.ofList (List.replicate indent ' ')

/-- A value that holds no others, from a column on. -/
def scalar (indent column : Nat) : Value → String
  | .null => "null"
  | .bool b => if b then "true" else "false"
  | .int n => Text.ofInt n
  | .text s => (Style.of false s).write ⟨true, indent⟩ column s
  | v => v.shown

/-- A key that stands before its colon without a mark: its text is neither empty nor long and stands
on one line. A carriage return ends no line here. -/
def isSimpleKey (s : String) : Bool :=
  !s.isEmpty && !(s.toList.any fun c => isBreak c && c ≠ '\r') && "!!str".length + s.length < 128

mutual

/-- The entries of a table, from the indentation on. -/
def table (indent : Nat) : List (Value × Value) → List String
  | [] => []
  | (key, v) :: rest =>
    let name := key.shown
    let entry :=
      if isSimpleKey name then
        let written := (Style.of true name).write ⟨false, indent⟩ indent name
        written ++ ":" ++ afterKey indent (indent + written.length + 1) v
      else
        "? " ++ (Style.of false name).write ⟨true, indent + 2⟩ (indent + 2) name ++ "\n" ++
          pad indent ++ ":" ++ inline indent v
    entry :: table indent rest

/-- The items of a list, from the indentation on. -/
def list (indent : Nat) : List Value → List String
  | [] => []
  | v :: rest => ("-" ++ inline indent v) :: list indent rest

/-- A value after a key without a mark. Tables are indented below the key, lists are not. -/
def afterKey (indent column : Nat) : Value → String
  | .list [] => " []"
  | .table [] => " \x7b\x7d"
  | .list items => "\n" ++ pad indent ++ String.intercalate ("\n" ++ pad indent) (list indent items)
  | .table entries =>
    let deeper := indent + 2
    "\n" ++ pad deeper ++ String.intercalate ("\n" ++ pad deeper) (table deeper entries)
  | v => " " ++ scalar (indent + 2) (column + 1) v

/-- A value after a mark of one character, which begins on the same line. -/
def inline (indent : Nat) : Value → String
  | .list [] => " []"
  | .table [] => " \x7b\x7d"
  | .list items =>
    let deeper := indent + 2
    " " ++ String.intercalate ("\n" ++ pad deeper) (list deeper items)
  | .table entries =>
    let deeper := indent + 2
    " " ++ String.intercalate ("\n" ++ pad deeper) (table deeper entries)
  | v => " " ++ scalar (indent + 2) (indent + 2) v

end

end Writer

/-- A table as a YAML text. -/
def write (entries : List (Value × Value)) : String :=
  if entries.isEmpty then "\x7b\x7d\n"
  else String.intercalate "\n" (Writer.table 0 entries) ++ "\n"

end Classpath.Yaml
