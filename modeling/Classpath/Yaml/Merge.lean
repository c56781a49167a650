import Classpath.Yaml.Node

/-! # Keys with a meaning of their own

Two tags make a key of a table more than a key. What stands under a merge key are the entries of
other tables, which come before the entries beside it; of a list of tables the first comes last.
What stands under a default key is the text of the table where a scalar is wanted, and in a table
that is read as one the key is a text. Tables may be merged into themselves. The main statement says
that where no key is a merge key, nothing is merged.
-/

namespace Classpath.Yaml

/-- The nodes of a document by number. -/
abbrev Nodes := Array Node

namespace Nodes

/-- How far tables can be followed into each other. -/
def followLimit : Nat := 970

/-- The tag of a node. -/
def tagOf (nodes : Nodes) (node : Nat) : Tag :=
  (nodes[node]?.map Node.tag).getD .unknown

/-- The entries of a table; no other node has any. -/
def entriesOf (nodes : Nodes) (node : Nat) : List (Nat × Nat) :=
  match nodes[node]?.map Node.content with
  | some (.table entries) => entries
  | _ => []

/-- Give a table other entries. -/
def setEntries (nodes : Nodes) (node : Nat) (entries : List (Nat × Nat)) : Nodes :=
  nodes.modify node fun old => { old with content := .table entries }

/-- Make a text of a default key. -/
def retag (nodes : Nodes) (node : Nat) : Nodes :=
  nodes.modify node fun old => { old with tag := if old.tag = .default then .text else old.tag }

/-- The text of a scalar; a table stands for what is under its default key. -/
def textOf (nodes : Nodes) : Nat → Nat → Reading String
  | 0, _ => .error .tooDeep
  | room + 1, node =>
    match nodes[node]?.map Node.content with
    | some (.scalar text) => .ok text
    | some (.table entries) =>
      match entries.find? fun entry => nodes.tagOf entry.1 = .default with
      | some (_, value) => nodes.textOf room value
      | none => malformed
    | _ => malformed

/-- A step that takes the merge keys out of a table. -/
abbrev Flattening := Nodes → Nat → Reading Nodes

/-- The entries of some tables, the first table last. -/
def contributions (flatten : Flattening) (nodes : Nodes) :
    List Nat → Reading (List (Nat × Nat) × Nodes)
  | [] => .ok ([], nodes)
  | node :: rest => do
    match nodes[node]?.map Node.content with
    | some (.table _) =>
      let nodes ← flatten nodes node
      let first := nodes.entriesOf node
      let (others, nodes) ← contributions flatten nodes rest
      return (others ++ first, nodes)
    | _ => malformed

/-- The entries under a merge key: those of a table, or of a list of tables. -/
def contribution (flatten : Flattening) (nodes : Nodes) (value : Nat) :
    Reading (List (Nat × Nat) × Nodes) :=
  match nodes[value]?.map Node.content with
  | some (.list items) => contributions flatten nodes items
  | _ => contributions flatten nodes [value]

/-- Whether the key of an entry is no merge key. -/
def isOwn (nodes : Nodes) (entry : Nat × Nat) : Bool :=
  nodes.tagOf entry.1 ≠ .merge

/-- Take the merge keys out of a table one after another; `merged` are the entries they have given.
There are no more of them than the fuel. -/
def takeMerges (flatten : Flattening) (node : Nat) :
    Nat → Nodes → List (Nat × Nat) → Reading (List (Nat × Nat) × Nodes)
  | 0, nodes, merged => .ok (merged, nodes)
  | fuel + 1, nodes, merged =>
    let entries := nodes.entriesOf node
    match entries.dropWhile nodes.isOwn with
    | [] => .ok (merged, nodes)
    | (_, value) :: after => do
      let before := entries.takeWhile nodes.isOwn
      let (more, nodes) ← contribution flatten (nodes.setEntries node (before ++ after)) value
      takeMerges flatten node fuel nodes (merged ++ more)

/-- A table in which no key has a meaning of its own any more. -/
def flatten : Nat → Flattening
  | 0, _, _ => .error .tooDeep
  | room + 1, nodes, node => do
    let count := (nodes.entriesOf node).length
    let (merged, nodes) ← takeMerges (flatten room) node count nodes []
    let own := nodes.entriesOf node
    let nodes := own.foldl (fun nodes entry => nodes.retag entry.1) nodes
    return if merged.isEmpty then nodes else nodes.setEntries node (merged ++ own)

/-- Nothing is left where all that is dropped is all there is. -/
theorem dropWhile_of_all {α : Type} {p : α → Bool} (xs : List α) (all : xs.all p = true) :
    xs.dropWhile p = [] := by
  induction xs with
  | nil => rfl
  | cons x rest ih =>
    simp only [List.all_cons, Bool.and_eq_true] at all
    simp [all.1, ih all.2]

/-- Where no key is a merge key, nothing is merged. -/
theorem takeMerges_of_none {flatten : Flattening} {node fuel : Nat} {nodes : Nodes}
    {merged : List (Nat × Nat)} (plain : (nodes.entriesOf node).all nodes.isOwn = true) :
    takeMerges flatten node fuel nodes merged = .ok (merged, nodes) := by
  cases fuel with
  | zero => rfl
  | succ fuel =>
    have none_left : (nodes.entriesOf node).dropWhile nodes.isOwn = [] :=
      dropWhile_of_all _ plain
    simp [takeMerges, none_left]

end Nodes

end Classpath.Yaml
