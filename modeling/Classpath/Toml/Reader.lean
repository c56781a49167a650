import Classpath.Toml.Scalar

/-! # Reading TOML

A text is a sequence of lines, each with a table header, an entry, or nothing but a comment. A table
is declared once; an entry is given once; and a list or table that is written as a value can not be
extended later. A header in double brackets starts a new table at the end of a list. Lists and
tables that are written as values can be followed only so far into each other.
-/

namespace Classpath.Toml

/-! ## Values -/

/-- Drop a comment up to the end of its line. Control characters may not stand in it. -/
def skipComment : List Char → Option (List Char)
  | '#' :: rest =>
    let comment := rest.takeWhile (· ≠ '\n')
    if comment.any isControl then none else some (rest.drop comment.length)
  | cs => some cs

/-- Drop blanks, line ends and comments inside a list. -/
def skipLines : Nat → List Char → Option (List Char)
  | 0, cs => some cs
  | fuel + 1, cs => do
    let trimmed := cs.dropWhile fun c => isBlank c || c = '\n'
    let after ← skipComment trimmed
    if after.length = trimmed.length then some after else skipLines fuel after

/-- A table under keys, and the keys that lead to values of their own. -/
structure Namespace where
  entries : List (Value × Value)
  /-- Keys whose values may not be extended. -/
  frozen : List (List String)

/-- Change the table that some names lead to; missing tables are made. A list on the way, where
lists are passed, stands for its last table. -/
def within (passLists : Bool) (change : List (Value × Value) → Option (List (Value × Value))) :
    List String → List (Value × Value) → Option (List (Value × Value))
  | [], entries => change entries
  | name :: rest, entries =>
    match Value.field? entries name with
    | none =>
      (within passLists change rest []).map fun inner =>
        Value.put entries (.text name) (.table inner)
    | some (.table inner) =>
      (within passLists change rest inner).map fun inner =>
        Value.put entries (.text name) (.table inner)
    | some (.list items) =>
      match passLists, items.getLast? with
      | true, some (.table inner) =>
        (within passLists change rest inner).map fun inner =>
          Value.put entries (.text name) (.list (items.dropLast ++ [.table inner]))
      | _, _ => none
    | some _ => none

/-- Give an entry that is not there yet. -/
def give (name : String) (v : Value) (entries : List (Value × Value)) :
    Option (List (Value × Value)) :=
  if (Value.field? entries name).isSome then none else some (Value.put entries (.text name) v)

/-- Whether a key or one above it is among some keys. -/
def covered (keys : List (List String)) (key : List String) : Bool :=
  keys.any fun above => above.isPrefixOf key

/-- Whether a value is a list or a table. -/
def isCollection : Value → Bool
  | .list _ | .table _ => true
  | _ => false

/-- Put an entry into a table that is written as a value. -/
def Namespace.giveInline (t : Namespace) (key : List String) (v : Value) : Option Namespace := do
  if covered t.frozen key then none
  else
    let entries ← within false (give (key.getLast?.getD "") v) key.dropLast t.entries
    return ⟨entries, if isCollection v then key :: t.frozen else t.frozen⟩

/-- How far lists and tables can be followed into each other: a list counts two steps and a table
three. -/
def nestingLimit : Nat := 980

mutual

/-- A value at the front; `room` is left for what is inside it. -/
def value : Nat → Nat → List Char → Except Fault (Value × List Char)
  | 0, _, _ => .error refused
  | fuel + 1, room, cs =>
    match cs with
    | '"' :: _ | '\'' :: _ =>
      need <| (text cs).map fun (s, rest) => (.text (String.ofList s), rest)
    | '[' :: rest =>
      if room < 2 then .error .tooDeep
      else do
        match ← need (skipLines rest.length rest) with
        | ']' :: rest => return (.list [], rest)
        | rest =>
          let (items, rest) ← items fuel (room - 2) rest
          return (.list items, rest)
    | '\x7b' :: rest =>
      if room < 3 then .error .tooDeep
      else
        match skipBlanks rest with
        | '\x7d' :: rest => .ok (.table [], rest)
        | rest => do
          let (t, rest) ← entries fuel (room - 3) ⟨[], []⟩ rest
          return (.table t.entries, rest)
    | cs => scalar cs

/-- The items of a list, up to its end. A comma may follow the last one. -/
def items : Nat → Nat → List Char → Except Fault (List Value × List Char)
  | 0, _, _ => .error refused
  | fuel + 1, room, cs => do
    let (item, cs) ← value fuel room cs
    match ← need (skipLines cs.length cs) with
    | ']' :: rest => return ([item], rest)
    | ',' :: rest =>
      match ← need (skipLines rest.length rest) with
      | ']' :: rest => return ([item], rest)
      | rest =>
        let (more, rest) ← items fuel room rest
        return (item :: more, rest)
    | _ => throw refused

/-- The entries of a table that is written as a value, up to its end. -/
def entries : Nat → Nat → Namespace → List Char → Except Fault (Namespace × List Char)
  | 0, _, _, _ => .error refused
  | fuel + 1, room, t, cs => do
    let (key, v, cs) ← pair fuel room cs
    let t ← need (t.giveInline key v)
    match skipBlanks cs with
    | '\x7d' :: rest => return (t, rest)
    | ',' :: rest => entries fuel room t (skipBlanks rest)
    | _ => throw refused

/-- A key and its value. -/
def pair : Nat → Nat → List Char → Except Fault (List String × Value × List Char)
  | 0, _, _ => .error refused
  | fuel + 1, room, cs => do
    let (key, cs) ← need (key cs)
    match cs with
    | '=' :: cs =>
      let (v, cs) ← value fuel room (skipBlanks cs)
      return (key, v, cs)
    | _ => throw refused

end

/-! ## Documents -/

/-- A document that is being read. -/
structure Document where
  entries : List (Value × Value)
  /-- Keys of lists and tables that are written as values. -/
  frozen : List (List String)
  /-- Keys of tables that may not be declared any more. -/
  declared : List (List String)
  /-- Keys that count as declared from the next header on. -/
  pending : List (List String)
  /-- The key of the present table. -/
  header : List String

/-- Declare a table. -/
def Document.table (d : Document) (key : List String) : Option Document := do
  if d.declared.contains key || covered d.frozen key then none
  else
    let entries ← within true some key d.entries
    return { d with entries, declared := key :: d.declared, header := key }

/-- Start a new table at the end of a list. What was declared below the list counts for the table
before. -/
def Document.listItem (d : Document) (key : List String) : Option Document := do
  if covered d.frozen key then none
  else
    let name := key.getLast?.getD ""
    let append (entries : List (Value × Value)) : Option (List (Value × Value)) :=
      match Value.field? entries name with
      | none => some (Value.put entries (.text name) (.list [.table []]))
      | some (.list items) =>
        some (Value.put entries (.text name) (.list (items ++ [.table []])))
      | some _ => none
    let entries ← within true append key.dropLast d.entries
    let apart (keys : List (List String)) : List (List String) :=
      keys.filter fun other => !key.isPrefixOf other
    return { d with
      entries
      frozen := apart d.frozen
      declared := key :: apart d.declared
      header := key }

/-- Give an entry of the present table. A dotted key may not reach into a declared table. -/
def Document.give (d : Document) (key : List String) (v : Value) : Option Document := do
  let full := d.header ++ key
  let passed := (List.range (key.length - 1)).map fun i => d.header ++ key.take (i + 1)
  if passed.any d.declared.contains || covered d.frozen full.dropLast then none
  else
    let entries ← within true (Toml.give (full.getLast?.getD "") v) full.dropLast d.entries
    return { d with
      entries
      pending := d.pending ++ passed
      frozen := if isCollection v then full :: d.frozen else d.frozen }

/-- A header after its opening brackets. -/
def Document.readHeader (d : Document) (cs : List Char) : Option (Document × List Char) := do
  let d := { d with declared := d.pending ++ d.declared, pending := [] }
  match cs with
  | '[' :: cs =>
    let (key, cs) ← key (skipBlanks cs)
    let d ← d.listItem key
    match cs with
    | ']' :: ']' :: rest => return (d, rest)
    | _ => none
  | cs =>
    let (key, cs) ← key (skipBlanks cs)
    let d ← d.table key
    match cs with
    | ']' :: rest => return (d, rest)
    | _ => none

/-- Read the rest of a document, statement by statement. -/
def Document.read (d : Document) : Nat → List Char → Except Fault Document
  | 0, _ => .error refused
  | fuel + 1, cs =>
    match skipBlanks cs with
    | [] => .ok d
    | '\n' :: rest => d.read fuel rest
    | c :: rest => do
      let (d, cs) ←
        if c = '[' then need (d.readHeader rest)
        else if c = '#' then pure (d, c :: rest)
        else do
          let (key, v, cs) ← pair (2 * rest.length + 4) nestingLimit (c :: rest)
          pure (← need (d.give key v), cs)
      match ← need (skipComment (skipBlanks cs)) with
      | [] => return d
      | '\n' :: rest => d.read fuel rest
      | _ => throw refused

/-- Read a carriage return with a line feed as a line feed. -/
def lineFeeds : List Char → List Char
  | '\r' :: '\n' :: rest => '\n' :: lineFeeds rest
  | c :: rest => c :: lineFeeds rest
  | [] => []

/-- The table of a TOML text. -/
def read (cs : List Char) : Except Fault (List (Value × Value)) :=
  let cs := lineFeeds cs
  (Document.read ⟨[], [], [], [], []⟩ (cs.length + 1) cs).map Document.entries

end Classpath.Toml
