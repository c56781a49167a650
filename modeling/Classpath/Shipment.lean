import Classpath.Resolver

/-! # Shipments

A shipment is a named list of archives in the order in which they are to be deployed. Collecting one
resolves anchor classes and orders the kept locations by path. Deploying hands over all paths in a
single call.
-/

namespace Classpath

/-- Archives to deploy under one name. -/
structure Shipment where
  name : Value
  archives : List Location

namespace Shipment

/-- A shipment needs a name. -/
def make (name : Value) (archives : List Location) : Except Fault Shipment :=
  if name.isEmptyLike then .error .namelessShipment else .ok ⟨name, archives⟩

/-- The paths of the archives, in order. -/
def paths (s : Shipment) : Except Fault (List String) :=
  s.archives.mapM Location.pathText

/-- Whether there is nothing to deploy. -/
def isEmpty (s : Shipment) : Bool :=
  s.archives.isEmpty

/-- The calls that deploying makes: one with all paths. -/
def deploy (s : Shipment) : Except Fault (List (List String)) :=
  s.paths.map fun paths => [paths]

/-- Put locations in the order of their paths. -/
def byPath (locations : List Location) : Except Fault (List Location) := do
  let keyed ← locations.mapM fun l => l.pathText.map ((·, l))
  return (Text.sortOn (·.1) keyed).map (·.2)

/-- Resolve anchors and gather what they need. -/
def collect (packer : Packer) (name : Value) (anchors : ClassLike) (s : Source)
    (exclusions pack : Value) : Action Shipment := do
  let (resolver, fault) := Resolver.withClasses { packer } [anchors]
  match fault with
  | some fault => Action.refuse fault
  | none =>
    let exclusions ←
      match exclusions.members? with
      | some members => pure members
      | none => Action.refuse (.notExclusions exclusions.kind)
    let outcome ← (resolver.excluding exclusions).process s pack
    let archives ← Action.ofFault (byPath outcome.locations)
    Action.ofFault (make name archives)

end Shipment

end Classpath
