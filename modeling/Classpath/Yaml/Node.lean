import Classpath.Yaml.Tag

/-! # Nodes of a YAML text

The tokens of a text give a table of scalars, lists and tables, each with its tag, which refer to
each other by number. An alias is the node that bears its anchor, so a node may be part of many
others and even of itself; an anchor is given only once. Lists and tables can be followed only so
far into each other, and a text holds at most one document. The main statements say that a new node
stands at its number and leaves the others where they are.
-/

namespace Classpath.Yaml

/-- What a node holds; other nodes are named by their numbers. -/
inductive Content where
  | scalar (text : String)
  | list (items : List Nat)
  | table (entries : List (Nat × Nat))
deriving DecidableEq, Repr, Inhabited

/-- A node with its tag. -/
structure Node where
  tag : Tag
  content : Content
deriving DecidableEq, Repr

/-- The nodes of a document and the number of the outermost one. -/
structure Document where
  nodes : Array Node
  root : Nat

namespace Document

/-- How many lists and tables may lie inside each other. -/
def nestingLimit : Nat := 487

/-- The tokens that are left, the nodes so far, the nodes that bear anchors, and what the handles of
tags stand for. -/
structure State where
  tokens : List Token
  nodes : Array Node
  anchors : List (String × Nat)
  handles : List (String × String)

namespace State

/-- The tokens that are left, unless the text is broken off here. -/
def look (s : State) : Reading (List Token) :=
  match s.tokens with
  | .broken fault :: _ => .error fault
  | tokens => .ok tokens

/-- Go on with other tokens. -/
def resume (s : State) (tokens : List Token) : State :=
  { s with tokens }

/-- Add a node. -/
def add (s : State) (node : Node) : Nat × State :=
  (s.nodes.size, { s with nodes := s.nodes.push node })

/-- Add a missing scalar. -/
def addMissing (s : State) : Nat × State :=
  s.add ⟨.null, .scalar ""⟩

/-- Give a node its content. -/
def fill (s : State) (node : Nat) (content : Content) : State :=
  { s with nodes := s.nodes.modify node fun old => { old with content } }

/-- Let a node bear an anchor. -/
def anchor (s : State) (name : Option String) (node : Nat) : State :=
  match name with
  | none => s
  | some name => { s with anchors := (name, node) :: s.anchors }

/-- The full name of a tag, or nothing for the mark alone. -/
def tagName (s : State) : TagName → Reading (Option String)
  | ⟨none, suffix⟩ => .ok (if suffix = "!" then none else some suffix)
  | ⟨some handle, suffix⟩ =>
    match s.handles.lookup handle with
    | some expansion => .ok (some (expansion ++ suffix))
    | none => malformed

theorem getElem?_add (s : State) (node : Node) :
    (s.add node).2.nodes[(s.add node).1]? = some node := by
  simp [add]

theorem getElem?_add_of_lt (s : State) (node : Node) {i : Nat} (inside : i < s.nodes.size) :
    (s.add node).2.nodes[i]? = s.nodes[i]? := by
  simp [add, Array.getElem?_push, Nat.ne_of_lt inside]

end State

/-- Anchor and tag in front of a node, in either order. -/
structure Properties where
  anchor : Option String
  tag : Option TagName

/-- Cut off the properties of a node. -/
def properties : List Token → Properties × List Token
  | .anchor a :: .tag t :: rest => (⟨some a, some t⟩, rest)
  | .tag t :: .anchor a :: rest => (⟨some a, some t⟩, rest)
  | .anchor a :: rest => (⟨some a, none⟩, rest)
  | .tag t :: rest => (⟨none, some t⟩, rest)
  | tokens => (⟨none, none⟩, tokens)

/-- How a node may stand: in a block, in a block where a list need not be indented, or between
brackets. -/
inductive Position where
  | block
  | blockValue
  | flow
deriving DecidableEq

/-- What follows the first token of a node. -/
inductive Inside where
  | nothing
  | list
  /-- The items of a list that is not indented, the first of them included. -/
  | looseList
  | table
  | flowList
  | flowTable
deriving DecidableEq

/-- The content that the first tokens of a node give, what follows, and the tokens left. -/
def opening (position : Position) : List Token → Option (Content × Inside × List Token)
  | .scalar text _ :: rest => some (.scalar text, .nothing, rest)
  | .flowListStart :: rest => some (.list [], .flowList, rest)
  | .flowTableStart :: rest => some (.table [], .flowTable, rest)
  | .item :: rest =>
    if position = .blockValue then some (.list [], .looseList, .item :: rest) else none
  | .listStart :: rest => if position = .flow then none else some (.list [], .list, rest)
  | .tableStart :: rest => if position = .flow then none else some (.table [], .table, rest)
  | _ => none

/-- The tag of a node without a named tag. A scalar gets one by its form if it is plain or has the
mark of a tag alone. -/
def formTag (marked : Bool) (tokens : List Token) : Content → Tag
  | .list _ => .list
  | .table _ => .table
  | .scalar text =>
    match tokens with
    | .scalar _ false :: _ => if marked then Tag.ofForm text else .text
    | _ => Tag.ofForm text

/-- Begin a node: its number, what follows, and the state after its first token. Without content a
tag or an anchor stands for an empty scalar. A tag alone and an anchor alone are looked behind
before they count. -/
def begin (position : Position) (s : State) : Reading (Nat × Inside × State) := do
  let (given, tokens) := properties (← s.look)
  let s := s.resume tokens
  if given.anchor.isNone || given.tag.isNone then discard s.look
  let name ←
    match given.tag with
    | none => pure none
    | some t => s.tagName t
  let tokens ← s.look
  let (content, inside, rest) ←
    match opening position tokens with
    | some found => pure found
    | none => do
      expect (given.anchor.isSome || given.tag.isSome)
      pure (.scalar "", .nothing, tokens)
  expect (given.anchor.all fun name => (s.anchors.lookup name).isNone)
  let tag := (name.map Tag.ofName).getD (formTag given.tag.isSome tokens content)
  let (node, s) := (s.resume rest).add ⟨tag, content⟩
  return (node, inside, s.anchor given.anchor node)

/-- Whether an entry of a list or table that starts with some tokens is empty. -/
def endsBlockItem : List Token → Bool
  | .item :: _ | .blockEnd :: _ => true
  | _ => false

/-- Whether an item of a list that is not indented is empty. -/
def endsLooseItem : List Token → Bool
  | .item :: _ | .key :: _ | .value :: _ | .blockEnd :: _ => true
  | _ => false

/-- Whether a key or value in a block is empty. -/
def endsBlockPart : List Token → Bool
  | .key :: _ | .value :: _ | .blockEnd :: _ => true
  | _ => false

/-- The closing bracket or brace. -/
def closes (braces : Bool) : List Token → Bool
  | .flowTableEnd :: _ => braces
  | .flowListEnd :: _ => !braces
  | _ => false

/-- Whether a key between brackets is empty. -/
def endsFlowKey (braces : Bool) (tokens : List Token) : Bool :=
  match tokens with
  | .value :: _ | .comma :: _ => true
  | tokens => closes braces tokens

/-- Whether a value between brackets is empty. -/
def endsFlowValue (braces : Bool) (tokens : List Token) : Bool :=
  match tokens with
  | .comma :: _ => true
  | tokens => closes braces tokens

/-- Pass the comma between two parts; the first part has none, and none is needed at the end. -/
def afterComma (first braces : Bool) (s : State) : Reading State := do
  let tokens ← s.look
  if first || closes braces tokens then return s
  else
    match tokens with
    | .comma :: rest => return s.resume rest
    | _ => malformed

mutual

/-- A node, or a missing one where `empty` says so. -/
def readOr (fuel room : Nat) (empty : List Token → Bool) (position : Position) (s : State) :
    Reading (Nat × State) :=
  match fuel with
  | 0 => malformed
  | fuel + 1 => do
    if empty (← s.look) then return s.addMissing else read fuel room position s

/-- A node at the front of the tokens; `room` more collections may lie inside each other. -/
def read (fuel room : Nat) (position : Position) (s : State) : Reading (Nat × State) :=
  match fuel with
  | 0 => malformed
  | fuel + 1 =>
    match s.tokens with
    | .alias name :: rest =>
      match s.anchors.lookup name with
      | some node => .ok (node, s.resume rest)
      | none => malformed
    | _ => do
      let (node, inside, s) ← begin position s
      if inside ≠ .nothing && room = 0 then throw .tooDeep
      match inside with
      | .nothing => return (node, s)
      | .list =>
        let (items, s) ← readList fuel (room - 1) s
        return (node, s.fill node (.list items))
      | .looseList =>
        let (items, s) ← readLooseList fuel (room - 1) s
        return (node, s.fill node (.list items))
      | .table =>
        let (entries, s) ← readTable fuel (room - 1) s
        return (node, s.fill node (.table entries))
      | .flowList =>
        let (items, s) ← readFlowList fuel (room - 1) true s
        return (node, s.fill node (.list items))
      | .flowTable =>
        let (entries, s) ← readFlowTable fuel (room - 1) true s
        return (node, s.fill node (.table entries))

/-- The items of a list in a block, up to its end. -/
def readList (fuel room : Nat) (s : State) : Reading (List Nat × State) :=
  match fuel with
  | 0 => malformed
  | fuel + 1 => do
    match ← s.look with
    | .blockEnd :: rest => return ([], s.resume rest)
    | .item :: rest =>
      let (node, s) ← readOr fuel room endsBlockItem .block (s.resume rest)
      let (items, s) ← readList fuel room s
      return (node :: items, s)
    | _ => malformed

/-- The items of a list that is not indented. -/
def readLooseList (fuel room : Nat) (s : State) : Reading (List Nat × State) :=
  match fuel with
  | 0 => malformed
  | fuel + 1 => do
    match ← s.look with
    | .item :: rest =>
      let (node, s) ← readOr fuel room endsLooseItem .block (s.resume rest)
      let (items, s) ← readLooseList fuel room s
      return (node :: items, s)
    | _ => return ([], s)

/-- The entries of a table in a block, up to its end. -/
def readTable (fuel room : Nat) (s : State) : Reading (List (Nat × Nat) × State) :=
  match fuel with
  | 0 => malformed
  | fuel + 1 => do
    match ← s.look with
    | .blockEnd :: rest => return ([], s.resume rest)
    | .key :: rest =>
      let (key, s) ← readOr fuel room endsBlockPart .blockValue (s.resume rest)
      let (value, s) ← readBlockValue fuel room s
      let (entries, s) ← readTable fuel room s
      return ((key, value) :: entries, s)
    | _ => malformed

/-- The value of an entry in a block. -/
def readBlockValue (fuel room : Nat) (s : State) : Reading (Nat × State) :=
  match fuel with
  | 0 => malformed
  | fuel + 1 => do
    match ← s.look with
    | .value :: rest => readOr fuel room endsBlockPart .blockValue (s.resume rest)
    | _ => return s.addMissing

/-- The value of an entry between brackets. -/
def readFlowValue (fuel room : Nat) (braces : Bool) (s : State) : Reading (Nat × State) :=
  match fuel with
  | 0 => malformed
  | fuel + 1 => do
    match ← s.look with
    | .value :: rest => readOr fuel room (endsFlowValue braces) .flow (s.resume rest)
    | _ => return s.addMissing

/-- The items of a list between brackets, up to the closing one. An item with a colon is a table of
one entry. -/
def readFlowList (fuel room : Nat) (first : Bool) (s : State) : Reading (List Nat × State) :=
  match fuel with
  | 0 => malformed
  | fuel + 1 => do
    let s ← afterComma first false s
    match ← s.look with
    | .flowListEnd :: rest => return ([], s.resume rest)
    | .key :: rest =>
      if room = 0 then throw .tooDeep
      let (pair, s) := (s.resume rest).add ⟨.table, .table []⟩
      let (key, s) ← readOr fuel (room - 1) (endsFlowKey false) .flow s
      let (value, s) ← readFlowValue fuel (room - 1) false s
      let (items, s) ← readFlowList fuel room false (s.fill pair (.table [(key, value)]))
      return (pair :: items, s)
    | _ =>
      let (node, s) ← read fuel room .flow s
      let (items, s) ← readFlowList fuel room false s
      return (node :: items, s)

/-- The entries of a table between braces, up to the closing one. A key without a colon has no
value. -/
def readFlowTable (fuel room : Nat) (first : Bool) (s : State) :
    Reading (List (Nat × Nat) × State) :=
  match fuel with
  | 0 => malformed
  | fuel + 1 => do
    let s ← afterComma first true s
    match ← s.look with
    | .flowTableEnd :: rest => return ([], s.resume rest)
    | .key :: rest =>
      let (key, s) ← readOr fuel room (endsFlowKey true) .flow (s.resume rest)
      let (value, s) ← readFlowValue fuel room true s
      let (entries, s) ← readFlowTable fuel room false s
      return ((key, value) :: entries, s)
    | _ =>
      let (key, s) ← read fuel room .flow s
      let (value, s) := s.addMissing
      let (entries, s) ← readFlowTable fuel room false s
      return ((key, value) :: entries, s)

end

/-- The directives before a document: what the handles stand for, and the tokens after them. The
version is given at most once. -/
def directives (versioned : Bool) (handles : List (String × String)) :
    List Token → Reading (List (String × String) × List Token)
  | .version major :: rest =>
    if versioned || major ≠ 1 then malformed else directives true handles rest
  | .handle name expansion :: rest =>
    if (handles.lookup name).isSome then malformed
    else directives versioned ((name, expansion) :: handles) rest
  | .reserved :: rest => directives versioned handles rest
  | .broken fault :: _ => .error fault
  | tokens => .ok (handles, tokens)

/-- The handles that need no directive. -/
def commonHandles : List (String × String) :=
  [("!", "!"), ("!!", Tag.common)]

/-- Only ends of documents are left. -/
def checkEnd : List Token → Reading Unit
  | [] => .ok ()
  | .documentEnd :: rest => checkEnd rest
  | tokens => do
    discard (directives false [] tokens)
    malformed

/-- Whether a document after its mark is empty. -/
def endsDocument : List Token → Bool
  | [] => true
  | .documentStart :: _ | .documentEnd :: _ | .version _ :: _ | .handle .. :: _
  | .reserved :: _ => true
  | _ => false

/-- Whether some tokens begin with the directives or the mark of a document. -/
def startsMarked : List Token → Bool
  | .documentStart :: _ | .version _ :: _ | .handle .. :: _ | .reserved :: _ => true
  | _ => false

/-- The only document, if there is one. -/
def ofTokens (tokens : List Token) : Reading (Option Document) := do
  if tokens.isEmpty then return none
  let fuel := 4 * tokens.length + 8
  let (root, s) ←
    if startsMarked tokens then do
      let (handles, tokens) ← directives false [] tokens
      match tokens with
      | .documentStart :: rest =>
        readOr fuel nestingLimit endsDocument .block ⟨rest, #[], [], handles ++ commonHandles⟩
      | _ => malformed
    else read fuel nestingLimit .block ⟨tokens, #[], [], commonHandles⟩
  checkEnd s.tokens
  return some ⟨s.nodes, root⟩

end Document

end Classpath.Yaml
