import Classpath.Fault
import Classpath.Number.Decimal
import Classpath.Toml.Text

/-! # Scalars of TOML

Numbers, truth values, dates and times. Digits may be grouped by single underscores between them. A
whole number may be given in base two, eight or sixteen, and in base ten up to a number of digits. A
fraction of a second counts up to six digits.
-/

namespace Classpath.Toml

/-- Digits of a class with single underscores between them, at the front. -/
def grouped (isDigit : Char → Bool) : List Char → List Char × List Char
  | '_' :: c :: rest =>
    if isDigit c then
      let (more, after) := grouped isDigit rest
      (c :: more, after)
    else ([], '_' :: c :: rest)
  | c :: rest =>
    if isDigit c then
      let (more, after) := grouped isDigit rest
      (c :: more, after)
    else ([], c :: rest)
  | [] => ([], [])

/-- Grouped digits that start with a digit; none at the front otherwise. -/
def digits (isDigit : Char → Bool) (cs : List Char) : List Char × List Char :=
  if (cs.head?.map isDigit).getD false then grouped isDigit cs else ([], cs)

/-- A whole number in base two, eight or sixteen. -/
def based : List Char → Option (Value × List Char)
  | '0' :: mark :: rest => do
    let base ← if mark = 'x' then some 16 else if mark = 'o' then some 8
      else if mark = 'b' then some 2 else none
    let (ds, rest) := digits (fun c => (Text.digitIn? base c).isSome) rest
    let n ← Text.readNat? base ds
    return (.int n, rest)
  | _ => none

/-- A point with digits after it. -/
def fraction (cs : List Char) : List Char × List Char :=
  match cs with
  | '.' :: rest =>
    let (ds, after) := digits Text.isDigit rest
    if ds.isEmpty then ([], cs) else (ds, after)
  | cs => ([], cs)

/-- An exponent. -/
def exponent (cs : List Char) : Option Int × List Char :=
  match cs with
  | e :: rest =>
    if e = 'e' || e = 'E' then
      let (negative, rest) := Text.takeSign rest
      let (ds, after) := digits Text.isDigit rest
      match Text.readNat? 10 ds with
      | some n => (some (Text.signed negative n), after)
      | none => (none, cs)
    else (none, cs)
  | [] => (none, cs)

/-- A number in base ten. A zero in front stands alone, and a whole number may be too long. -/
def decimal (cs : List Char) : Option (Except Fault Value × List Char) := do
  let (negative, cs) := Text.takeSign cs
  let (whole, cs) :=
    match cs with
    | '0' :: rest => (['0'], rest)
    | cs => digits Text.isDigit cs
  let n ← Text.readNat? 10 whole
  let (part, cs) := fraction cs
  let (power, cs) := exponent cs
  if part.isEmpty && power.isNone then
    if Text.digitLimit < whole.length then return (.error (.longNumeral whole.length), cs)
    else return (.ok (.int (Text.signed negative n)), cs)
  else
    let all ← Text.readNat? 10 (whole ++ part)
    return (.ok (.float (.ofDecimal negative all (power.getD 0 - part.length))), cs)

/-- A word for infinity or for no number, or a truth value. -/
def word (cs : List Char) : Option (Value × List Char) :=
  let words : List (String × Value) :=
    [("true", .bool true), ("false", .bool false), ("inf", .float (.infinite false)),
      ("+inf", .float (.infinite false)), ("-inf", .float (.infinite true)),
      ("nan", .float .nan), ("+nan", .float .nan), ("-nan", .float .nan)]
  (words.find? fun entry => entry.1.toList.isPrefixOf cs).map fun entry =>
    (entry.2, cs.drop entry.1.length)

/-! ## Dates and times -/

/-- A number of exactly so many digits, up to a greatest. -/
def number (width greatest : Nat) (cs : List Char) : Option (Nat × List Char) := do
  let ds := cs.take width
  let n ← Text.readNat? 10 ds
  if ds.length = width && n ≤ greatest then some (n, cs.drop width) else none

/-- Pass a mark. -/
def pass (mark : Char) : List Char → Option (List Char)
  | c :: rest => if c = mark then some rest else none
  | [] => none

/-- A time of day. -/
def clock (cs : List Char) : Option (Clock × List Char) := do
  let (hour, cs) ← number 2 23 cs
  let (minute, cs) ← number 2 59 (← pass ':' cs)
  let (second, cs) ← number 2 59 (← pass ':' cs)
  let (part, cs) :=
    match cs with
    | '.' :: rest =>
      let (ds, after) := rest.span Text.isDigit
      if ds.isEmpty then ([], cs) else (ds, after)
    | cs => ([], cs)
  let micros := (part ++ List.replicate 6 '0').take 6
  return (⟨hour, minute, second, (Text.readNat? 10 micros).getD 0⟩, cs)

/-- An offset from universal time, in seconds; none if no offset is there. -/
def offset (cs : List Char) : Option Int × List Char :=
  match cs with
  | c :: rest =>
    if c = 'Z' || c = 'z' then (some 0, rest)
    else if c = '+' || c = '-' then
      let east : Option (Nat × List Char) := do
        let (hours, rest) ← number 2 23 rest
        let (minutes, rest) ← number 2 59 (← pass ':' rest)
        return (hours * 3600 + minutes * 60, rest)
      match east with
      | some (seconds, rest) => (some (Text.signed (c = '-') seconds), rest)
      | none => (none, cs)
    else (none, cs)
  | [] => (none, cs)

/-- A date in digits, which need not exist. -/
def date (cs : List Char) : Option (Date × List Char) := do
  let (year, cs) ← number 4 9999 cs
  let (month, cs) ← number 2 12 (← pass '-' cs)
  let (day, cs) ← number 2 31 (← pass '-' cs)
  if month = 0 || day = 0 then none else return (⟨year, month, day⟩, cs)

/-- A date, with a time if one follows. -/
def moment (cs : List Char) : Option (Moment × List Char) := do
  let (day, cs) ← date cs
  let timed : Option (Clock × List Char) :=
    match cs with
    | c :: rest => if c = 'T' || c = 't' || c = ' ' then clock rest else none
    | [] => none
  match timed with
  | some (time, cs) =>
    let (east, cs) := offset cs
    return (.dateTime day time east, cs)
  | none => return (.date day, cs)

/-- Whether the date of a moment exists. -/
def exists? : Moment → Bool
  | .date day | .dateTime day .. => day.valid
  | .time _ => true

/-- The fault of a text that is no TOML. -/
def refused : Fault := .malformed .toml

/-- What has to be there. -/
def need {α : Type} : Option α → Except Fault α
  | some a => .ok a
  | none => .error refused

/-- A number, or a word for one. -/
def number? (cs : List Char) : Except Fault (Value × List Char) :=
  match based cs, decimal cs with
  | some found, _ => .ok found
  | none, some (v, rest) => v.map (·, rest)
  | none, none => need (word cs)

/-- A scalar other than a text. -/
def scalar (cs : List Char) : Except Fault (Value × List Char) :=
  match word (cs.take 5) with
  | some (.bool b, _) => .ok (.bool b, cs.drop (if b then 4 else 5))
  | _ =>
    match moment cs with
    | some (m, rest) => if exists? m then .ok (.moment m, rest) else .error refused
    | none =>
      match clock cs with
      | some (time, rest) => .ok (.moment (.time time), rest)
      | none => number? cs

end Classpath.Toml
