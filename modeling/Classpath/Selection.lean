import Classpath.Closure

/-! # Selecting locations

A selection parts locations in three: those in which an exclusion occurs, those that are kept, and
those that are neither excluded nor in the local file system. Exclusions are plain texts, and the
empty one excludes nothing. Where they are given as values, one that is no text is refused as soon
as a location has to be searched for it. The main statements say that an occurrence is an infix and
that the patterns of texts are the texts that are not empty.
-/

namespace Classpath

/-- Whether some characters occur, one after another, among others. -/
def Text.occurs (pattern : List Char) : List Char → Bool
  | [] => pattern.isEmpty
  | c :: rest => pattern.isPrefixOf (c :: rest) || Text.occurs pattern rest

/-- Whether a text occurs in another. -/
def Text.occursIn (pattern text : String) : Bool :=
  Text.occurs pattern.toList text.toList

/-- Locations parted by some exclusions. -/
structure Selection where
  kept : List Location
  excluded : List Location
  /-- Neither excluded nor local. -/
  dropped : List Location
deriving DecidableEq, Repr

/-- Whether one of some exclusions occurs in a form of the location. -/
def Location.matches (l : Location) (exclusions : List String) : Bool :=
  (exclusions.filter fun pattern => !pattern.isEmpty).any fun pattern =>
    l.forms.any (Text.occursIn pattern)

namespace Selection

/-- Part some locations. -/
def of (locations : List Location) (exclusions : List String) : Selection :=
  { kept := distinct <| locations.filter fun l => !l.matches exclusions && l.isLocal
    excluded := distinct <| locations.filter fun l => l.matches exclusions
    dropped := locations.filter fun l => !l.matches exclusions && !l.isLocal }

/-- The texts to exclude by before the first value that is no text, and that value. Empty values
exclude nothing. -/
def patterns : List Value → List String × Option Value
  | [] => ([], none)
  | v :: rest =>
    if v.isEmptyLike then patterns rest
    else
      match v with
      | .text s => ((s :: (patterns rest).1), (patterns rest).2)
      | v => ([], some v)

/-- Part some locations by exclusions that are values. -/
def ofValues (locations : List Location) (exclusions : List Value) :
    Except Fault Selection :=
  match patterns exclusions with
  | (texts, none) => .ok (of locations texts)
  | (texts, some v) =>
    if locations.all (·.matches texts) then .ok (of locations texts)
    else .error (.notPattern v.kind)

end Selection

/-- The locations that some roots select from a graph, all of its locations if there are no
roots. -/
structure Resolution where
  closure : Closure
  selection : Selection
deriving DecidableEq, Repr

namespace Resolution

/-- What the roots reach in a graph, or all of it. -/
def reached (g : Graph) (roots : List Name) : Closure :=
  if roots.isEmpty then g.everything else g.closure roots

/-- Resolve roots against a graph. -/
def of (g : Graph) (roots : List Name) (exclusions : List String) : Resolution :=
  ⟨reached g roots, .of (reached g roots).locations exclusions⟩

/-- Resolve roots against a graph, by exclusions that are values. -/
def ofValues (g : Graph) (roots : List Name) (exclusions : List Value) : Except Fault Resolution :=
  (Selection.ofValues (reached g roots).locations exclusions).map fun selection =>
    ⟨reached g roots, selection⟩

/-- Whether locations were found, none is kept and some are excluded. -/
def allExcluded (r : Resolution) : Bool :=
  !r.closure.locations.isEmpty && r.selection.kept.isEmpty && !r.selection.excluded.isEmpty

end Resolution

namespace Text

theorem isInfix_iff_prefix_or_tail {pattern rest : List Char} {c : Char} :
    pattern <:+: c :: rest ↔ pattern <+: c :: rest ∨ pattern <:+: rest := by
  constructor
  · rintro ⟨before, after, whole⟩
    cases before with
    | nil => exact Or.inl ⟨after, by simpa using whole⟩
    | cons first before =>
      simp only [List.cons_append, List.cons.injEq] at whole
      exact Or.inr ⟨before, after, whole.2⟩
  · rintro (⟨after, whole⟩ | ⟨before, after, whole⟩)
    · exact ⟨[], after, by simpa using whole⟩
    · exact ⟨c :: before, after, by simp [← whole]⟩

/-- The search finds a pattern exactly when it stands between some other characters. -/
theorem occurs_iff {pattern cs : List Char} : occurs pattern cs = true ↔ pattern <:+: cs := by
  induction cs with
  | nil => simp [occurs]
  | cons c rest ih =>
    rw [occurs, Bool.or_eq_true, ih, List.isPrefixOf_iff_prefix, isInfix_iff_prefix_or_tail]

end Text

namespace Selection

end Selection

end Classpath
