/-! # Boxed tables

A table of two columns inside a box, with a title centred above it. Names stand on the left of their
column and values on the right of theirs. A name that would make the table wider than the page is
cut and ends in an ellipsis.
-/

namespace Classpath.Command

/-- A table with a title, a heading and rows of a name and a value. -/
structure BoxedTable where
  title : String
  /-- The cells that the title takes. -/
  titleWidth : Nat
  heading : String × String
  rows : List (String × String)

namespace BoxedTable

/-- The cells of a line of the page. -/
def pageWidth : Nat := 80

/-- The cells that borders and blanks beside the columns take. -/
def borderWidth : Nat := 7

/-- Some copies of a text. -/
def copies (n : Nat) (s : String) : String :=
  String.join (List.replicate n s)

/-- A text at the left of so many cells. -/
def left (width : Nat) (s : String) : String :=
  s ++ copies (width - s.length) " "

/-- A text at the right of so many cells. -/
def right (width : Nat) (s : String) : String :=
  copies (width - s.length) " " ++ s

/-- The widths of the columns. -/
def widths (t : BoxedTable) : Nat × Nat :=
  let cells := t.heading :: t.rows
  let values := cells.foldl (fun most row => max most row.2.length) 0
  let names := cells.foldl (fun most row => max most row.1.length) 0
  (min names (pageWidth - borderWidth - values), values)

/-- A text in at most so many cells. -/
def cut (width : Nat) (s : String) : String :=
  if s.length ≤ width then s else String.ofList (s.toList.take (width - 1) ++ ['…'])

/-- The line of a row between its borders. -/
def rowLine (t : BoxedTable) (border : String) (row : String × String) : String :=
  let (names, values) := t.widths
  border ++ " " ++ left names (cut names row.1) ++ " " ++ border ++ " " ++ right values row.2 ++
    " " ++ border

/-- A line across the table. -/
def rule (t : BoxedTable) (start dash cross stop : String) : String :=
  let (names, values) := t.widths
  start ++ copies (names + 2) dash ++ cross ++ copies (values + 2) dash ++ stop

/-- The title in the middle of the width of the table. -/
def titleLine (t : BoxedTable) : String :=
  let (names, values) := t.widths
  let spare := names + values + borderWidth - t.titleWidth
  copies (spare / 2) " " ++ t.title ++ copies (spare - spare / 2) " "

/-- The lines of a table. -/
def lines (t : BoxedTable) : List String :=
  [t.titleLine, t.rule "┏" "━" "┳" "┓", t.rowLine "┃" t.heading, t.rule "┡" "━" "╇" "┩"] ++
    t.rows.map (t.rowLine "│") ++ [t.rule "└" "─" "┴" "┘"]

/-- A table as a text. -/
def text (t : BoxedTable) : String :=
  String.join (t.lines.map (· ++ "\n"))

end BoxedTable

end Classpath.Command
