import Classpath.Text.Numeral

/-! # Texts and keys of TOML

A text stands between double quotes, with escapes, or between single quotes, as it is. Three quotes
open a text of several lines: a line end right after them does not count, and a backslash at the end
of a line passes over the line end and all blanks after it. Each reader is given what follows the
opening quotes and returns the text and what follows it.
-/

namespace Classpath.Toml

/-- A space or a tab. -/
def isBlank (c : Char) : Bool :=
  c = ' ' || c = '\t'

/-- Drop spaces and tabs. -/
def skipBlanks (cs : List Char) : List Char :=
  cs.dropWhile isBlank

/-- A control character other than the tab. -/
def isControl (c : Char) : Bool :=
  (c.toNat < 0x20 && c ≠ '\t') || c.toNat = 0x7F

/-- The character of a numeric escape. -/
def scalar? (digits : List Char) : Option Char := do
  let n ← Text.readNat? 16 digits
  if (0xD800 ≤ n && n < 0xE000) || 0x110000 ≤ n then none else some (Char.ofNat n)

/-- The character of a short escape. -/
def shortEscape? (c : Char) : Option Char :=
  match c with
  | 'b' => some '\x08'
  | 't' => some '\t'
  | 'n' => some '\n'
  | 'f' => some '\x0c'
  | 'r' => some '\r'
  | '"' => some '"'
  | '\\' => some '\\'
  | _ => none

/-- Put a character before a text. -/
def before (c : Char) : List Char × List Char → List Char × List Char
  | (text, rest) => (c :: text, rest)

/-- A text between double quotes, on one line. -/
def basic : List Char → Option (List Char × List Char)
  | '"' :: rest => some ([], rest)
  | '\\' :: 'u' :: a :: b :: c :: d :: rest => do
    let ch ← scalar? [a, b, c, d]
    return before ch (← basic rest)
  | '\\' :: 'U' :: a :: b :: c :: d :: e :: f :: g :: h :: rest => do
    let ch ← scalar? [a, b, c, d, e, f, g, h]
    return before ch (← basic rest)
  | '\\' :: c :: rest => do
    let ch ← shortEscape? c
    return before ch (← basic rest)
  | c :: rest => if isControl c then none else (basic rest).map (before c)
  | [] => none

/-- A text between single quotes, on one line. -/
def literal : List Char → Option (List Char × List Char)
  | '\'' :: rest => some ([], rest)
  | c :: rest => if isControl c then none else (literal rest).map (before c)
  | [] => none

/-- Up to two quotes right after three closing ones belong to the text. -/
def extraQuotes (quote : Char) : List Char → List Char × List Char
  | a :: b :: rest =>
    if a = quote && b = quote then ([a, b], rest)
    else if a = quote then ([a], b :: rest)
    else ([], a :: b :: rest)
  | [a] => if a = quote then ([a], []) else ([], [a])
  | [] => ([], [])

/-- What a backslash before blanks passes over. -/
inductive Passing where
  | nothing
  /-- Blanks up to a line end, which has to come. -/
  | toLineEnd
  /-- Blanks and line ends. -/
  | beyondLineEnd
deriving DecidableEq

/-- A text between three double quotes. -/
def basicLines : Passing → List Char → Option (List Char × List Char)
  | .toLineEnd, c :: rest =>
    if c = '\n' then basicLines .beyondLineEnd rest
    else if isBlank c then basicLines .toLineEnd rest
    else none
  | passing, c :: rest =>
    if passing = .beyondLineEnd && (isBlank c || c = '\n') then basicLines .beyondLineEnd rest
    else
      match c, rest with
      | '"', '"' :: '"' :: rest => some (extraQuotes '"' rest)
      | '\\', 'u' :: a :: b :: c :: d :: rest => do
        let ch ← scalar? [a, b, c, d]
        return before ch (← basicLines .nothing rest)
      | '\\', 'U' :: a :: b :: c :: d :: e :: f :: g :: h :: rest => do
        let ch ← scalar? [a, b, c, d, e, f, g, h]
        return before ch (← basicLines .nothing rest)
      | '\\', c :: rest =>
        if c = '\n' then basicLines .beyondLineEnd rest
        else if isBlank c then basicLines .toLineEnd rest
        else do
          let ch ← shortEscape? c
          return before ch (← basicLines .nothing rest)
      | c, rest =>
        if isControl c && c ≠ '\n' then none else (basicLines .nothing rest).map (before c)
  | _, [] => none

/-- A text between three single quotes. -/
def literalLines : List Char → Option (List Char × List Char)
  | '\'' :: '\'' :: '\'' :: rest => some (extraQuotes '\'' rest)
  | c :: rest =>
    if isControl c && c ≠ '\n' then none else (literalLines rest).map (before c)
  | [] => none

/-- Drop a line end right after the opening quotes. -/
def dropLineEnd : List Char → List Char
  | '\n' :: rest => rest
  | cs => cs

/-- A text in any of its forms. -/
def text : List Char → Option (List Char × List Char)
  | '"' :: '"' :: '"' :: rest => basicLines .nothing (dropLineEnd rest)
  | '"' :: rest => basic rest
  | '\'' :: '\'' :: '\'' :: rest => literalLines (dropLineEnd rest)
  | '\'' :: rest => literal rest
  | _ => none

/-! ## Keys -/

/-- A character of a key without quotes. -/
def isBare (c : Char) : Bool :=
  c.isAlphanum || c = '-' || c = '_'

/-- One part of a key. -/
def keyPart (cs : List Char) : Option (String × List Char) :=
  match cs with
  | '"' :: rest => (basic rest).map fun (s, rest) => (String.ofList s, rest)
  | '\'' :: rest => (literal rest).map fun (s, rest) => (String.ofList s, rest)
  | cs =>
    let part := cs.takeWhile isBare
    if part.isEmpty then none else some (String.ofList part, cs.drop part.length)

/-- The parts of a key, with dots between them; blanks around a part do not count. -/
def keyParts : Nat → List Char → Option (List String × List Char)
  | 0, _ => none
  | fuel + 1, cs => do
    let (part, cs) ← keyPart cs
    match skipBlanks cs with
    | '.' :: cs =>
      let (parts, cs) ← keyParts fuel (skipBlanks cs)
      return (part :: parts, cs)
    | cs => return ([part], cs)

/-- A key at the front, and what follows it and its blanks. -/
def key (cs : List Char) : Option (List String × List Char) :=
  keyParts (cs.length + 1) cs

end Classpath.Toml
