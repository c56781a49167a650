/-! # Options of a command line

Arguments are parted into options and the rest. An option has a name after two dashes, and may have
a letter after one dash; letters without values may stand together. A value follows as the next
argument, after an equals sign, or right after its letter. After two dashes alone everything is no
option. What does not fit is refused as a whole.
-/

namespace Classpath.Command

/-- An option of a command, known to it by a key. -/
structure OptionForm (κ : Type) where
  key : κ
  name : String
  letter : Option Char
  takesValue : Bool

/-- Parted arguments: the options in the order given, with their values, and the rest. -/
structure Arguments (κ : Type) where
  options : List (κ × String)
  rest : List String

namespace Arguments

variable {κ : Type}

/-- Put an argument before the rest. -/
def addRest (argument : String) (a : Arguments κ) : Arguments κ :=
  { a with rest := argument :: a.rest }

/-- What a single argument says. -/
inductive Reading (κ : Type) where
  /-- Options without need of the next argument. -/
  | options (found : List (κ × String))
  /-- Options, and one more whose value is the next argument. -/
  | awaits (found : List (κ × String)) (key : κ)
  | refused

/-- Read letters after one dash. -/
def readLetters (forms : List (OptionForm κ)) : List Char → Reading κ
  | [] => .options []
  | c :: more =>
    match forms.find? fun form => form.letter == some c with
    | none => .refused
    | some form =>
      if form.takesValue then
        if more.isEmpty then .awaits [] form.key else .options [(form.key, String.ofList more)]
      else
        match readLetters forms more with
        | .options found => .options ((form.key, "") :: found)
        | .awaits found key => .awaits ((form.key, "") :: found) key
        | .refused => .refused

/-- Read a name after two dashes, with its value if an equals sign follows. -/
def readName (forms : List (OptionForm κ)) (cs : List Char) : Reading κ :=
  let name := cs.takeWhile (· ≠ '=')
  let given := cs.drop name.length
  match forms.find? fun form => form.name == String.ofList name with
  | none => .refused
  | some form =>
    match form.takesValue, given with
    | true, _ :: value => .options [(form.key, String.ofList value)]
    | true, [] => .awaits [] form.key
    | false, [] => .options [(form.key, "")]
    | false, _ :: _ => .refused

/-- Part arguments. Where options and other arguments may not be mixed, the first other argument
ends the options. -/
def part? (forms : List (OptionForm κ)) (mixed : Bool) : List String → Option (Arguments κ)
  | [] => some ⟨[], []⟩
  | argument :: others =>
    let continued (found : List (κ × String)) (a : Arguments κ) : Arguments κ :=
      { a with options := found ++ a.options }
    let handle (reading : Reading κ) : Option (Arguments κ) :=
      match reading with
      | .refused => none
      | .options found => (part? forms mixed others).map (continued found)
      | .awaits found key =>
        match others with
        | [] => none
        | value :: others => (part? forms mixed others).map (continued (found ++ [(key, value)]))
    match argument.toList with
    | ['-', '-'] => some ⟨[], others⟩
    | '-' :: '-' :: name => handle (readName forms name)
    | '-' :: c :: letters => handle (readLetters forms (c :: letters))
    | _ =>
      if mixed then (part? forms mixed others).map (addRest argument)
      else some ⟨[], argument :: others⟩

variable [BEq κ]

/-- Whether an option is given. -/
def has (a : Arguments κ) (key : κ) : Bool :=
  a.options.any fun found => found.1 == key

/-- The value that is given last for an option. -/
def last? (a : Arguments κ) (key : κ) : Option String :=
  (a.options.findRev? fun found => found.1 == key).map (·.2)

/-- All values for an option, in order. -/
def values (a : Arguments κ) (key : κ) : List String :=
  (a.options.filter fun found => found.1 == key).map (·.2)

end Arguments

end Classpath.Command
