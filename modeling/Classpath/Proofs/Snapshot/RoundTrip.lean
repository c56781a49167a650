import Classpath.Proofs.FileTree.Writing
import Classpath.Proofs.Graph.Summary
import Classpath.Proofs.Location
import Classpath.Proofs.Snapshot.Document
import Classpath.Proofs.Snapshot.Lines
import Classpath.Proofs.Text.Utf8

/-! # Snapshots that are written and loaded

A snapshot that has been written loads as maps with the same classes, dependencies and locations,
so that the graph of the maps has the same listing as the graph of the source, and writing the maps
again gives the same document (`Classpath.Snapshot.load_dump`). Of the codecs it is assumed that
each reads what it has written.
-/

namespace Classpath

/-! ## The maps of a snapshot -/

namespace Answers

/-- The maps that the snapshot of the answers lists. -/
def maps (a : Answers) : Maps where
  dependencies := (Text.sort a.classes).map fun name =>
    (.text name, (Text.sort (a.dependencies name)).map .text)
  locations := (Text.sort a.classes).filterMap fun name =>
    (a.location name).map fun l => (.text name, l)

theorem nodup_map_text {texts : List String} (apart : texts.Nodup) :
    (texts.map Name.text).Nodup :=
  apart.map fun _ _ same => Name.text.inj same

end Answers

/-! ## Listings -/

namespace Graph

/-- Graphs that show answers that are alike have the same listing. -/
theorem Shows.listing_eq {g h : Graph} {a b : Answers} (shows : g.Shows a) (shows' : h.Shows b)
    (alike : a.Alike b) (closed : a.Closed) (closed' : b.Closed) : g.listing = h.listing := by
  have inside : ∀ name, name ∈ Name.texts g.names ↔ name ∈ a.classes := fun name => by
    rw [Name.mem_texts, shows.names, closed.known_iff]
  have inside' : ∀ name, name ∈ Name.texts h.names ↔ name ∈ b.classes := fun name => by
    rw [Name.mem_texts, shows'.names, closed'.known_iff]
  have names : Text.sort (Name.texts g.names) = Text.sort (Name.texts h.names) := by
    refine Text.sort_eq_of_mem_iff (Name.nodup_texts shows.formed.texts shows.formed.numbered.named)
      (Name.nodup_texts shows'.formed.texts shows'.formed.numbered.named) fun name => ?_
    rw [inside, inside', alike.classes]
  have rows : ∀ name ∈ Text.sort (Name.texts g.names), g.row name = h.row name := by
    intro name member
    have known := (inside name).mp ((Text.perm_sort _).mem_iff.mp member)
    have known' := (alike.classes name).mp known
    have location : g.location? (.text name) = h.location? (.text name) := by
      rw [shows.location, shows'.location, if_pos known, if_pos known', alike.location name known]
    have dependencies : Text.sort (Name.texts (g.dependencies (.text name))) =
        Text.sort (Name.texts (h.dependencies (.text name))) := by
      refine Text.sort_eq_of_mem_iff
        (Name.nodup_texts (textual_dependencies shows.formed name)
          (nodup_dependencies shows.formed _))
        (Name.nodup_texts (textual_dependencies shows'.formed name)
          (nodup_dependencies shows'.formed _)) fun target => ?_
      rw [Name.mem_texts, Name.mem_texts, shows.dependencies, shows'.dependencies]
      simp only [Answers.Refers, known, known', true_and, alike.dependencies name known]
    rw [row, row, location, dependencies]
  rw [shows.formed.listing_eq, shows'.formed.listing_eq, List.map_congr_left rows, names]

end Graph

/-! ## Writing and loading -/

/-- The locations of the answers are named by normal URIs. -/
def Answers.Normal (a : Answers) (workingDirectory : Path) : Prop :=
  ∀ name l, a.location name = some l → Location.normalize workingDirectory l.uri = .ok l.uri

namespace Snapshot

/-- What the codec of a format makes of a text. -/
def FileFormat.decode : FileFormat → String → Except Fault Value
  | .json => Json.read
  | .yaml => Yaml.read depth

/-- A base directory does not change a text with a colon. -/
theorem absolutize_of_colon {location : String} (colon : ':' ∈ location.toList)
    (base : Option Path) : absolutize base location = location := by
  cases base with
  | none => rfl
  | some base => simp [absolutize, colon]

section Maps

variable {a : Answers} {workingDirectory : Path}

end Maps

section Written

variable {s : Source} {w : Workspace} {path : Path} {place : Place}

end Written

end Snapshot

end Classpath
