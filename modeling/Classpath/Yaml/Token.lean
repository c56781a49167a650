import Classpath.Yaml.Scalar

/-! # Tokens of a YAML text

Cutting a text into tokens makes the structure of its indentation explicit: a block opens where a
line stands further to the right and closes where one stands further to the left. A key without a
mark of its own is known as a key only when its colon is found, so the token for it is put in
afterwards. Such a key stands on one line and is not longer than 1024 characters. Where a text can
not be cut further, its last token says why. What may still become a key is not told before.
-/

namespace Classpath.Yaml

/-- A tag as it is written: a handle, unless the tag is given in full, and the rest. -/
structure TagName where
  handle : Option String
  suffix : String
deriving DecidableEq

/-- A token of a text. -/
inductive Token where
  | version (major : Nat)
  | handle (name expansion : String)
  | reserved
  | documentStart
  | documentEnd
  | listStart
  | tableStart
  | blockEnd
  | flowListStart
  | flowListEnd
  | flowTableStart
  | flowTableEnd
  | item
  | comma
  | key
  | value
  | alias (name : String)
  | anchor (name : String)
  | tag (name : TagName)
  | scalar (text : String) (plain : Bool)
  /-- No token can be cut here. -/
  | broken (fault : Fault)

namespace Token

/-- A place where a key without a mark may have begun. -/
structure Candidate where
  /-- The number of tokens before it. -/
  position : Nat
  required : Bool
  index : Nat
  line : Nat
  column : Nat

/-- The state of cutting: the cursor, the tokens so far and the open blocks. -/
structure Lexer where
  cursor : Cursor
  tokens : Array Token
  /-- The column of the innermost block, `-1` outside any. -/
  indent : Int
  /-- The columns of the blocks around it. -/
  outer : List Int
  /-- The number of open brackets and braces. -/
  flow : Nat
  /-- Whether a key without a mark may begin here. -/
  keyAllowed : Bool
  /-- The candidates for a key, by number of open brackets, the innermost first. -/
  candidates : List (Nat × Candidate)

namespace Lexer

/-- Before the first token. -/
def start (s : String) : Lexer :=
  ⟨.ofText s, #[], -1, [], 0, true, []⟩

/-- Append a token. -/
def push (l : Lexer) (token : Token) : Lexer :=
  { l with tokens := l.tokens.push token }

/-- Put a token where a candidate stands. -/
def insertAt (l : Lexer) (position : Nat) (token : Token) : Lexer :=
  { l with tokens := l.tokens.insertIdxIfInBounds position token }

/-- The candidate at the present number of open brackets. -/
def candidate? (l : Lexer) : Option Candidate :=
  l.candidates.lookup l.flow

/-- Give the present candidate up. A key that was required may not be given up. -/
def dropCandidate (l : Lexer) : Reading Lexer := do
  expect (!((l.candidate?.map Candidate.required).getD false))
  return { l with candidates := l.candidates.filter fun entry => entry.1 ≠ l.flow }

/-- Remember that a key may begin here. -/
def noteCandidate (l : Lexer) : Reading Lexer := do
  if l.keyAllowed then
    let l ← l.dropCandidate
    let c := l.cursor
    let found : Candidate :=
      { position := l.tokens.size
        required := l.flow = 0 && decide (l.indent = c.column)
        index := c.index, line := c.line, column := c.column }
    return { l with candidates := (l.flow, found) :: l.candidates }
  else return l

/-- Whether a candidate is on an earlier line or too far behind. -/
def isStale (l : Lexer) (found : Candidate) : Bool :=
  found.line ≠ l.cursor.line || 1024 < l.cursor.index - found.index

/-- Give up the candidates that are on an earlier line or too far behind. -/
def dropStale (l : Lexer) : Reading Lexer := do
  expect (l.candidates.all fun entry => !(l.isStale entry.2 && entry.2.required))
  return { l with candidates := l.candidates.filter fun entry => !l.isStale entry.2 }

/-- The tokens that nothing can be put before any more. -/
def settled (l : Lexer) : List Token :=
  let pending := l.candidates.filter fun entry => !l.isStale entry.2
  l.tokens.toList.take (pending.foldl (fun least entry => min least entry.2.position) l.tokens.size)

/-- Close the blocks that stand further to the right than a column. -/
def unwind (l : Lexer) (column : Int) : Lexer :=
  if l.flow ≠ 0 then l
  else
    let all := l.indent :: l.outer
    let closed := all.takeWhile fun indent => column < indent
    let left := all.drop closed.length
    { l with
      tokens := closed.foldl (fun tokens _ => tokens.push .blockEnd) l.tokens
      indent := left.head?.getD (-1)
      outer := left.tail }

/-- Open a block at a column further to the right; tells whether one was opened. -/
def openBlock (l : Lexer) (column : Nat) : Bool × Lexer :=
  if l.indent < column then (true, { l with indent := column, outer := l.indent :: l.outer })
  else (false, l)

/-- Pass spaces, comments and line ends. A key may begin on a new line outside brackets. -/
def toNextToken (l : Lexer) : Nat → Lexer
  | 0 => l
  | fuel + 1 =>
    let c := (l.cursor.skipWhile (· = ' ')).skipComment
    if isBreak c.here then
      let keyAllowed := l.keyAllowed || l.flow = 0
      toNextToken { l with cursor := c.lineBreak.2, keyAllowed } fuel
    else { l with cursor := c }

/-- A token of some characters that no key begins with. -/
def mark (l : Lexer) (token : Token) (width : Nat) : Lexer :=
  { l with cursor := l.cursor.skip width }.push token

/-! ## Directives -/

/-- Digits of a version at the cursor. -/
def versionNumber (c : Cursor) : Reading (Nat × Cursor) := do
  let (digits, c) := c.take Text.isDigit
  expect (!digits.isEmpty)
  if Text.digitLimit < digits.length then throw (.longNumeral digits.length)
  return ((Text.readNat? 10 digits).getD 0, c)

/-- The handle of a tag: an exclamation mark, or a word between two. -/
def tagHandle (c : Cursor) : Reading (String × Cursor) := do
  expect (c.here = '!')
  if c.peek 1 = ' ' then return ("!", c.step)
  let (word, after) := c.step.take isWordChar
  if after.here = '!' then return (String.ofList ('!' :: word ++ ['!']), after.step)
  else
    expect false
    return ("!", c.step)

/-- A character of a tag. -/
def isTagChar (c : Char) : Bool :=
  isWordChar c || "-;/?:@&=+$,_.!~*'()[]%".toList.contains c

/-- The bytes of the escapes of a tag, other characters in UTF-8. -/
def tagBytes : List Char → Reading (List UInt8)
  | '%' :: a :: b :: rest => do
    match Text.readNat? 16 [a, b] with
    | some n => return UInt8.ofNat n :: (← tagBytes rest)
    | none => malformed
  | '%' :: _ => malformed
  | c :: rest => do return String.utf8EncodeChar c ++ (← tagBytes rest)
  | [] => return []

/-- The characters of a tag at the cursor. -/
def tagText (c : Cursor) : Reading (String × Cursor) := do
  let (cs, after) := c.take isTagChar
  expect (!cs.isEmpty)
  match Text.ofUtf8? (← tagBytes cs) with
  | some cs => return (String.ofList cs, after)
  | none => malformed

/-- A directive. -/
def directive (l : Lexer) : Reading Lexer := do
  let l ← (l.unwind (-1)).dropCandidate
  let (name, c) := l.cursor.step.take isWordChar
  expect (!name.isEmpty && isSpaceOrEnd c.here)
  let (token, c) ←
    if name = "YAML".toList then do
      let (major, c) ← versionNumber (c.skipWhile (· = ' '))
      expect (c.here = '.')
      let (_, c) ← versionNumber c.step
      expect (isSpaceOrEnd c.here)
      pure (Token.version major, c)
    else if name = "TAG".toList then do
      let (name, c) ← tagHandle (c.skipWhile (· = ' '))
      expect (c.here = ' ')
      let (expansion, c) ← tagText (c.skipWhile (· = ' '))
      expect (isSpaceOrEnd c.here)
      pure (Token.handle name expansion, c)
    else pure (Token.reserved, c.skipWhile fun ch => !isBreakOrEnd ch)
  return { l with cursor := ← c.ignoredLine, keyAllowed := false }.push token

/-- The mark before or after a document. -/
def documentMark (l : Lexer) (token : Token) : Reading Lexer := do
  let l ← (l.unwind (-1)).dropCandidate
  return { l with keyAllowed := false }.mark token 3

/-! ## Structure -/

/-- An opening bracket or brace. -/
def flowStart (l : Lexer) (token : Token) : Reading Lexer := do
  let l ← l.noteCandidate
  return { l with flow := l.flow + 1, keyAllowed := true }.mark token 1

/-- A closing bracket or brace. -/
def flowEnd (l : Lexer) (token : Token) : Reading Lexer := do
  let l ← l.dropCandidate
  expect (l.flow ≠ 0)
  return { l with flow := l.flow - 1, keyAllowed := false }.mark token 1

/-- A comma. -/
def comma (l : Lexer) : Reading Lexer := do
  let l ← l.dropCandidate
  return { l with keyAllowed := true }.mark .comma 1

/-- The dash before an item. -/
def item (l : Lexer) : Reading Lexer := do
  let l ←
    if l.flow = 0 then do
      expect l.keyAllowed
      let (opened, l) := l.openBlock l.cursor.column
      pure (if opened then l.push .listStart else l)
    else pure l
  let l ← l.dropCandidate
  return { l with keyAllowed := true }.mark .item 1

/-- The question mark before a key. -/
def key (l : Lexer) : Reading Lexer := do
  let l ←
    if l.flow = 0 then do
      expect l.keyAllowed
      let (opened, l) := l.openBlock l.cursor.column
      pure (if opened then l.push .tableStart else l)
    else pure l
  let l ← l.dropCandidate
  return { l with keyAllowed := l.flow = 0 }.mark .key 1

/-- The colon before a value. What stood before it on the line becomes a key. -/
def value (l : Lexer) : Reading Lexer := do
  match l.candidate? with
  | some found =>
    let l := { l with candidates := l.candidates.filter fun entry => entry.1 ≠ l.flow }
    let l := l.insertAt found.position .key
    let l :=
      if l.flow = 0 then
        let (opened, l) := l.openBlock found.column
        if opened then l.insertAt found.position .tableStart else l
      else l
    return { l with keyAllowed := false }.mark .value 1
  | none =>
    let l ←
      if l.flow = 0 then do
        expect l.keyAllowed
        let (opened, l) := l.openBlock l.cursor.column
        pure (if opened then l.push .tableStart else l)
      else pure l
    let l := { l with keyAllowed := l.flow = 0 }
    return (← l.dropCandidate).mark .value 1

/-! ## Nodes -/

/-- An alias or an anchor. -/
def named (l : Lexer) (token : String → Token) : Reading Lexer := do
  let l ← l.noteCandidate
  let (name, c) := l.cursor.step.take isWordChar
  expect (!name.isEmpty && (isBlankOrEnd c.here || "?:,]\x7d%@`".toList.contains c.here))
  return { l with cursor := c, keyAllowed := false }.push (token (String.ofList name))

/-- A tag: in full between angle brackets, the mark alone, or a handle and a rest. -/
def tag (l : Lexer) : Reading Lexer := do
  let l ← l.noteCandidate
  let c := l.cursor
  let (name, c) ←
    if c.peek 1 = '<' then do
      let (suffix, c) ← tagText (c.skip 2)
      expect (c.here = '>')
      pure (TagName.mk none suffix, c.step)
    else if isBlankOrEnd (c.peek 1) then pure (TagName.mk none "!", c.step)
    else do
      let ahead := c.step.rest.takeWhile fun ch => !isSpaceOrEnd ch
      let (owner, c) ← if ahead.contains '!' then tagHandle c else pure ("!", c.step)
      let (suffix, c) ← tagText c
      pure (TagName.mk (some owner) suffix, c)
  expect (isSpaceOrEnd c.here)
  return { l with cursor := c, keyAllowed := false }.push (.tag name)

/-- A block scalar. -/
def blockScalar (l : Lexer) (fold : Bool) : Reading Lexer := do
  let l ← l.dropCandidate
  let (text, c) ← Scalar.block fold (max 1 (l.indent + 1).toNat) l.cursor.step
  return { l with cursor := c, keyAllowed := true }.push (.scalar (String.ofList text) false)

/-- A quoted scalar. -/
def quotedScalar (l : Lexer) (double : Bool) : Reading Lexer := do
  let l ← l.noteCandidate
  let c := l.cursor.step
  let (text, c) ← Scalar.quoted double (c.rest.length + 1) c
  return { l with cursor := c, keyAllowed := false }.push (.scalar (String.ofList text) false)

/-- A plain scalar. -/
def plainScalar (l : Lexer) : Reading Lexer := do
  let l ← l.noteCandidate
  let (text, ended, c) := Scalar.plain (l.flow ≠ 0) (l.indent + 1).toNat l.cursor
  return { l with cursor := c, keyAllowed := ended }.push (.scalar (String.ofList text) true)

/-- Whether a plain scalar may begin at the cursor. -/
def plainStarts (l : Lexer) : Bool :=
  let ch := l.cursor.here
  !(isBlankOrEnd ch || "-?:,[]\x7b\x7d#&*!|>'\"%@`".toList.contains ch) ||
    (!isBlankOrEnd (l.cursor.peek 1) && (ch = '-' || (l.flow = 0 && (ch = '?' || ch = ':'))))

/-- The next token of a text that has one. -/
def next (l : Lexer) : Reading Lexer :=
  let c := l.cursor
  let ch := c.here
  let blankAfter := isBlankOrEnd (c.peek 1)
  if c.column = 0 && ch = '%' then l.directive
  else if c.column = 0 && c.startsWith "---" && isBlankOrEnd (c.peek 3) then
    l.documentMark .documentStart
  else if c.column = 0 && c.startsWith "..." && isBlankOrEnd (c.peek 3) then
    l.documentMark .documentEnd
  else if ch = '[' then l.flowStart .flowListStart
  else if ch = '\x7b' then l.flowStart .flowTableStart
  else if ch = ']' then l.flowEnd .flowListEnd
  else if ch = '\x7d' then l.flowEnd .flowTableEnd
  else if ch = ',' then l.comma
  else if ch = '-' && blankAfter then l.item
  else if ch = '?' && (l.flow ≠ 0 || blankAfter) then l.key
  else if ch = ':' && (l.flow ≠ 0 || blankAfter) then l.value
  else if ch = '*' then l.named .alias
  else if ch = '&' then l.named .anchor
  else if ch = '!' then l.tag
  else if ch = '|' && l.flow = 0 then l.blockScalar false
  else if ch = '>' && l.flow = 0 then l.blockScalar true
  else if ch = '\'' then l.quotedScalar false
  else if ch = '"' then l.quotedScalar true
  else if l.plainStarts then l.plainScalar
  else malformed

/-- Cut one token more, unless the text is at its end. -/
def advance (l : Lexer) : Reading (Lexer × Bool) := do
  let l ← (l.toNextToken (l.cursor.rest.length + 1)).dropStale
  let l := l.unwind l.cursor.column
  if l.cursor.rest.isEmpty then return (← (l.unwind (-1)).dropCandidate, true)
  else return (← l.next, false)

/-- Cut the rest of a text; every token takes at least one character. -/
def run : Nat → Lexer → List Token
  | 0, l => l.settled
  | fuel + 1, l =>
    match l.advance with
    | .error fault => l.settled ++ [.broken fault]
    | .ok (l, true) => l.tokens.toList
    | .ok (l, false) => run fuel l

end Lexer

/-- A character that a text may hold. -/
def isAllowed (c : Char) : Bool :=
  let n := c.toNat
  n = 0x9 || n = 0xA || n = 0xD || (0x20 ≤ n && n ≤ 0x7E) || n = 0x85 ||
    (0xA0 ≤ n && n ≤ 0xD7FF) || (0xE000 ≤ n && n ≤ 0xFFFD) || 0x10000 ≤ n

/-- The tokens of a text. A byte order mark at the start is passed over. -/
def ofText (s : String) : Reading (List Token) := do
  expect (s.toList.all isAllowed)
  let l := Lexer.start s
  let l := if l.cursor.here = '\uFEFF' then { l with cursor := l.cursor.step } else l
  return Lexer.run (s.length + 2) l

end Token

end Classpath.Yaml
