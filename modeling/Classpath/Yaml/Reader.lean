import Classpath.Value.Printer
import Classpath.Yaml.Meaning
import Classpath.Yaml.Merge

/-! # Reading YAML

A node becomes a value by its tag. The outermost node is made first; what a list or table holds is
made when its turn comes, in the order in which the lists and tables were met, so the first fault is
the one that stands least deep. Of two entries with the same key the later one wins, and a key must
be a value that can be a key. A document may hold itself, so its value is given to some depth only:
below it a list or table is empty.
-/

namespace Classpath.Yaml

/-- A value that holds no others. Values that are no numbers are told apart by a mark. -/
structure Plain where
  value : Value
  mark : Nat

/-- What has been made of a node. Others are named by their numbers. -/
inductive Part where
  | scalar (plain : Plain)
  | list (items : List Nat)
  | pairs (entries : List (Nat × Nat))
  | set (members : List Plain)
  | table (entries : List (Plain × Nat))

/-- Two keys that no look-up tells apart. -/
def Plain.same (a b : Plain) : Bool :=
  match a.value, b.value with
  | .float .nan, .float .nan => a.mark == b.mark
  | v, w => Value.same v w

/-- Put an entry into a table: a key that is there keeps its place. -/
def putEntry (entries : List (Plain × Nat)) (key : Plain) (node : Nat) : List (Plain × Nat) :=
  if entries.any fun entry => key.same entry.1 then
    entries.map fun entry => if key.same entry.1 then (entry.1, node) else entry
  else entries ++ [(key, node)]

/-- A document that is being read. -/
structure Making where
  nodes : Nodes
  /-- What has been made of the nodes so far. -/
  parts : Array (Option Part)
  /-- The lists and tables in the order in which they were met. -/
  met : Array Nat

namespace Making

/-- Before the first node. -/
def start (nodes : Nodes) : Making :=
  ⟨nodes, Array.replicate nodes.size none, #[]⟩

/-- Note what has been made of a node. -/
def note (m : Making) (node : Nat) (part : Part) : Making :=
  { m with parts := m.parts.setIfInBounds node (some part) }

/-- Begin a list or table, which is filled when its turn comes. -/
def await (m : Making) (node : Nat) (part : Part) : Making :=
  let m := m.note node part
  { m with met := m.met.push node }

/-- The value of a scalar, or of a table that stands for one. -/
def scalar (nodes : Nodes) (node : Nat) (tag : Tag) : Reading Plain := do
  let text ← nodes.textOf Nodes.followLimit node
  match tag, nodes[node]?.map Node.content with
  | .timestamp, some (.table _) => throw (.notSearchable "list")
  | tag, _ =>
    let value ← meaning tag text
    return ⟨value, if tag = .float && isNanWord text then 0 else node + 1⟩

/-- Make a node unless it has been made. -/
def make (m : Making) (node : Nat) : Reading Making :=
  match m.parts[node]?.join with
  | some _ => .ok m
  | none =>
    match m.nodes.tagOf node with
    | .list => .ok (m.await node (.list []))
    | .table => .ok (m.await node (.table []))
    | .set => .ok (m.await node (.set []))
    | .orderedPairs | .pairs => .ok (m.await node (.pairs []))
    | tag => (scalar m.nodes node tag).map fun plain => m.note node (.scalar plain)

/-- Make a node that is a key. -/
def makeKey (m : Making) (node : Nat) : Reading (Plain × Making) := do
  let m ← m.make node
  match m.parts[node]?.join with
  | some (.scalar plain) => return (plain, m)
  | _ => malformed

/-- Make the entries of a table, in order. -/
def makeEntries (m : Making) (made : List (Plain × Nat)) :
    List (Nat × Nat) → Reading (List (Plain × Nat) × Making)
  | [] => .ok (made, m)
  | (key, value) :: rest => do
    let (plain, m) ← m.makeKey key
    (← m.make value).makeEntries (putEntry made plain value) rest

/-- Make the keys and values of tables with one entry each. -/
def makePairs (m : Making) : List Nat → Reading (List (Nat × Nat) × Making)
  | [] => .ok ([], m)
  | node :: rest =>
    match m.nodes[node]?.map Node.content with
    | some (.table [(key, value)]) => do
      let (others, m) ← (← (← m.make key).make value).makePairs rest
      return ((key, value) :: others, m)
    | _ => malformed

/-- The entries of a table whose merge keys are taken out. -/
def tableEntries (m : Making) (node : Nat) : Reading (List (Plain × Nat) × Making) :=
  match m.nodes[node]?.map Node.content with
  | some (.table _) => do
    let nodes ← m.nodes.flatten Nodes.followLimit node
    { m with nodes }.makeEntries [] (nodes.entriesOf node)
  | _ => malformed

/-- The items of a list. -/
def listItems (m : Making) (node : Nat) : Reading (List Nat) :=
  match m.nodes[node]?.map Node.content with
  | some (.list items) => .ok items
  | _ => malformed

/-- Fill a list or table whose turn has come. -/
def fill (m : Making) (node : Nat) : Reading Making :=
  match m.parts[node]?.join with
  | some (.list _) => do
    let items ← m.listItems node
    return (← items.foldlM make m).note node (.list items)
  | some (.pairs _) => do
    let (entries, m) ← m.makePairs (← m.listItems node)
    return m.note node (.pairs entries)
  | some (.set _) => do
    let (entries, m) ← m.tableEntries node
    return m.note node (.set (entries.map (·.1)))
  | some (.table _) => do
    let (entries, m) ← m.tableEntries node
    return m.note node (.table entries)
  | _ => .ok m

/-- Fill the lists and tables from the `turn`-th on. Each of them is met only once, so the number of
nodes is fuel enough. -/
def run : Nat → Nat → Making → Reading Making
  | 0, _, m => .ok m
  | fuel + 1, turn, m =>
    match m.met[turn]? with
    | none => .ok m
    | some node => do run fuel (turn + 1) (← m.fill node)

end Making

/-! ## Values -/

/-- The value of a part whose nodes have the given values. -/
def Part.value (values : Array Value) : Option Part → Value
  | none => .null
  | some (.scalar plain) => plain.value
  | some (.list items) => .list (items.map fun i => values.getD i .null)
  | some (.pairs entries) =>
    .list (entries.map fun (i, j) => .tuple [values.getD i .null, values.getD j .null])
  | some (.set members) => .set (members.map Plain.value)
  | some (.table entries) =>
    .table (entries.map fun (key, i) => (key.value, values.getD i .null))

/-- A part without what it holds. -/
def Part.outline : Option Part → Value
  | some (.scalar plain) => plain.value
  | some (.list _) | some (.pairs _) => .list []
  | some (.set _) => .set []
  | some (.table _) => .table []
  | none => .null

/-- The values of all parts to some depth. -/
def valuesTo (parts : Array (Option Part)) : Nat → Array Value
  | 0 => parts.map Part.outline
  | depth + 1 =>
    let inner := valuesTo parts depth
    parts.map (Part.value inner)

/-- The value of a document to some depth. -/
def Document.value (depth : Nat) (d : Document) : Reading Value := do
  let m ← (Making.start d.nodes).make d.root
  let m ← Making.run d.nodes.size 0 m
  return (valuesTo m.parts depth).getD d.root .null

/-- The value of a YAML text to some depth; an empty text has none. -/
def read (depth : Nat) (s : String) : Except Fault Value := do
  match ← Document.ofTokens (← Token.ofText s) with
  | none => return .null
  | some document => document.value depth

end Classpath.Yaml
