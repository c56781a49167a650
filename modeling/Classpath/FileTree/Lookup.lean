import Classpath.Fault
import Classpath.FileTree.Basic

/-! # Looking a path up

A text is followed name by name from the working directory or the root. Links are followed, at most
forty of them; dots go up in the tree itself. Looking up tells where a path leads, whether or not
something stands there, or why it leads nowhere.
-/

namespace Classpath.FileTree

/-- The most links that one look-up follows. -/
def linkLimit : Nat := 40

/-- The most bytes of a name. -/
def nameLimit : Nat := 255

/-- The most bytes of a path, with the end mark. -/
def pathLimit : Nat := 4096

/-- What a look-up is after. -/
inductive Aim where
  /-- The last name itself, even if it is a link. -/
  | name
  /-- What the last name leads to. -/
  | target
  /-- The place of a file that is to be written, which no slash may follow. -/
  | newFile
deriving DecidableEq, Repr

/-- Follow names from a place. The last name need not exist. -/
def follow (t : FileTree) (aim : Aim) (links : Nat) (place : Place) :
    List String → Except FileFault Place
  | [] => .ok place
  | name :: rest =>
    match t.node? place with
    | none => .error .noEntry
    | some node =>
      if !node.isDirectory then .error .notDirectory
      else if name = "" || name = "." then t.follow aim links place rest
      else if name = ".." then t.follow aim links place.dropLast rest
      else if aim = .newFile && !rest.isEmpty && rest.all String.isEmpty then .error .isDirectory
      else if nameLimit < name.utf8ByteSize then .error .nameTooLong
      else
        match t.node? (place ++ [name]) with
        | some (.link target) =>
          if rest.isEmpty && aim = .name then .ok (place ++ [name])
          else
            match links with
            | 0 => .error .tooManyLinks
            | fewer + 1 =>
              let start := if Path.startOf target.toList = .here then place else []
              t.follow aim fewer start (Path.segments target ++ rest)
        | some _ => t.follow aim links (place ++ [name]) rest
        | none => if rest.isEmpty then .ok (place ++ [name]) else .error .noEntry
termination_by names => (links, names.length)

/-- The place that a text leads to. -/
def locate (t : FileTree) (aim : Aim) (workingDirectory : Path) (s : String) :
    Except FileFault Place :=
  if s.isEmpty then .error .noEntry
  else if pathLimit ≤ s.utf8ByteSize then .error .nameTooLong
  else
    let start := if Path.startOf s.toList = .here then workingDirectory.names else []
    t.follow aim linkLimit start (Path.segments s)

/-- The place that a text leads to and what stands there. -/
def status (t : FileTree) (workingDirectory : Path) (s : String) :
    Except FileFault (Place × Node) := do
  let place ← t.locate .target workingDirectory s
  match t.node? place with
  | some node => .ok (place, node)
  | none => .error .noEntry

/-- The status of a place, through links. -/
def statusAt (t : FileTree) (place : Place) : Except FileFault Node :=
  (t.status ⟨.root, []⟩ ("/" ++ String.intercalate "/" place)).map (·.2)

/-- A refusal that only says that nothing is there. -/
def absent : FileFault → Bool
  | .noEntry | .notDirectory | .tooManyLinks => true
  | _ => false

/-- Ask something of what a path leads to; where nothing is, the answer is no. -/
def ask (t : FileTree) (workingDirectory p : Path) (question : Node → Bool) :
    Except Fault Bool :=
  match t.status workingDirectory p.text with
  | .ok (_, node) => .ok (question node)
  | .error fault => if absent fault then .ok false else .error (.file fault p.text)

/-- Whether a path leads to a directory. -/
def isDirectory (t : FileTree) (workingDirectory p : Path) : Except Fault Bool :=
  t.ask workingDirectory p Node.isDirectory

/-- Whether a path leads to anything. -/
def exists? (t : FileTree) (workingDirectory p : Path) : Except Fault Bool :=
  t.ask workingDirectory p fun _ => true

/-- The bytes of the file that a path leads to. -/
def read (t : FileTree) (workingDirectory p : Path) : Except Fault (List UInt8) :=
  match t.status workingDirectory p.text with
  | .ok (_, .file content _) => .ok content.data
  | .ok (_, .directory) => .error (.file .isDirectory p.text)
  | .ok _ => .ok []
  | .error fault => .error (.file fault p.text)

/-- The place where a file may be written: something other than a directory stands there, or
nothing does and the directory above exists. -/
def writable (t : FileTree) (workingDirectory : Path) (s : String) : Except FileFault Place := do
  let place ← t.locate .newFile workingDirectory s
  match t.node? place with
  | some .directory => .error .isDirectory
  | _ => .ok place

/-- Write a file. -/
def write (t : FileTree) (workingDirectory p : Path) (content : Content) (modified : Int) :
    Except Fault FileTree :=
  match t.writable workingDirectory p.text with
  | .ok place => .ok (t.put place (.file content modified))
  | .error fault => .error (.file fault p.text)

/-- Make a directory where nothing stands. -/
def makeDirectory (t : FileTree) (workingDirectory : Path) (s : String) :
    Except FileFault (Place × FileTree) := do
  let place ← t.locate .name workingDirectory s
  match t.node? place with
  | some _ => .error .exists
  | none => .ok (place, t.put place .directory)

/-- Take away what a text names, without following a link; a directory is not taken away. -/
def unlink (t : FileTree) (workingDirectory : Path) (s : String) : Except FileFault FileTree := do
  let place ← t.locate .name workingDirectory s
  match t.node? place with
  | none => .error .noEntry
  | some .directory => .error .isDirectory
  | some _ => .ok (t.erase place)

/-- Take away a directory with all that is below it; anything else is left alone. -/
def removeTree (t : FileTree) (workingDirectory p : Path) : FileTree :=
  match t.locate .name workingDirectory p.text with
  | .ok place => if t.node? place = some .directory && !place.isEmpty then t.clear place else t
  | .error _ => t

/-- Make the missing directories that lead to a path. -/
def makeParents (t : FileTree) (workingDirectory p : Path) : FileTree :=
  let steps := (List.range p.names.length).map fun i => (⟨p.start, p.names.take i⟩ : Path)
  steps.foldl (fun tree step =>
    match tree.makeDirectory workingDirectory step.text with
    | .ok (_, larger) => larger
    | .error _ => tree) t

/-- Put a node where a path leads, making the directories on the way. -/
def plant (t : FileTree) (workingDirectory p : Path) (node : Node) : FileTree :=
  let t := t.makeParents workingDirectory p
  match t.locate .target workingDirectory p.text with
  | .ok place =>
    match t.node? place with
    | some .directory => t
    | _ => t.put place node
  | .error _ => t

/-- The path of the place that a path leads to; names that lead nowhere are kept. -/
def resolved (t : FileTree) (workingDirectory p : Path) : Path :=
  match t.locate .target workingDirectory p.text with
  | .ok place => ⟨.root, place⟩
  | .error _ => Path.absolute workingDirectory p

end Classpath.FileTree
