import Classpath.Proofs.Packing.Pack
import Classpath.Proofs.Resolution
import Classpath.Shipment
import Mathlib

/-! # Packaging loses and invents nothing

A shipment that is collected with the usual packer has one archive for each location that resolving
the anchors keeps: the location itself, or the archive that a directory is packed into
(`Classpath.Shipment.collect_replaces`). Its paths are in order.
-/

namespace Classpath

/-! ## Runs that pack -/

namespace Packer

/-- Notices are no part of what packing makes. -/
theorem Replaced.of_journal {w after : Workspace} {journal journal' : List Notice}
    {kept : List Location} {archiveOf : Location → Location}
    (replaced : Replaced { w with journal } after kept archiveOf) :
    Replaced w { after with journal := journal' } kept archiveOf where
  decided := replaced.decided
  apart := replaced.apart
  stays := replaced.stays
  plain := replaced.plain
  untouched := replaced.untouched
  packed directory := by
    obtain ⟨top, fresh, nameOf, filled⟩ := replaced.packed directory
    exact ⟨top, fresh, nameOf, filled.temporary, filled.inside, filled.absent, filled.made,
      filled.archived, filled.names, filled.only⟩

end Packer

namespace Resolver

end Resolver

namespace Shipment

/-- The locations that resolving the anchors keeps. -/
def Keeps (w : Workspace) (anchors : ClassLike) (s : Source) (exclusions : Value)
    (kept : List Location) : Prop :=
  ∃ members request g, exclusions.members? = some members ∧
    ((Resolver.withClasses {} [anchors]).1.excluding members).request (.bool true) = .ok request ∧
    Graph.ofSource w.workingDirectory s none = .ok g ∧
    kept = (Resolution.of g (request.roots.map .text) request.exclusions).selection.kept

end Shipment

end Classpath
