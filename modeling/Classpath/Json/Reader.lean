import Classpath.Fault
import Classpath.Json.Token

/-! # Reading JSON

A text holds one value. Of two entries with the same key the later one wins and takes the place of
the earlier. Whole numbers have a greatest number of digits, and lists and tables a greatest depth;
the first fault of a text counts. Reading goes on only while tokens are left, so their number bounds
it.
-/

namespace Classpath.Json

/-- How much is read. -/
structure Limits where
  /-- The most digits of a whole number. -/
  digits : Nat
  /-- How many lists and tables may lie inside each other. -/
  depth : Nat

/-- The usual limits. -/
def Limits.usual : Limits := ⟨Text.digitLimit, 988⟩

/-- The fault of a text that is no JSON. -/
def refused : Fault := .malformed .json

mutual

/-- A value at the front of some tokens, and the tokens after it; `room` more collections may lie
inside each other. -/
def readValue (limits : Limits) : Nat → Nat → List Token → Except Fault (Value × List Token)
  | 0, _, _ => .error refused
  | fuel + 1, room, tokens =>
    match tokens with
    | .text s :: rest => .ok (.text s, rest)
    | .scalar v :: rest => .ok (v, rest)
    | .whole n digits :: rest =>
      if limits.digits < digits then .error (.longNumeral digits) else .ok (.int n, rest)
    | .mark '[' :: rest =>
      match room, rest with
      | 0, _ => .error .tooDeep
      | _, .mark ']' :: rest => .ok (.list [], rest)
      | room + 1, rest =>
        (readItems limits fuel room rest).map fun (items, rest) => (.list items, rest)
    | .mark '\x7b' :: rest =>
      match room, rest with
      | 0, _ => .error .tooDeep
      | _, .mark '\x7d' :: rest => .ok (.table [], rest)
      | room + 1, rest =>
        (readEntries limits fuel room rest).map fun (entries, rest) =>
          (.table (Value.tableOf entries), rest)
    | _ => .error refused

/-- The items of a list up to its end, and the tokens after it. -/
def readItems (limits : Limits) : Nat → Nat → List Token → Except Fault (List Value × List Token)
  | 0, _, _ => .error refused
  | fuel + 1, room, tokens => do
    let (item, rest) ← readValue limits fuel room tokens
    match rest with
    | .mark ']' :: rest => return ([item], rest)
    | .mark ',' :: rest =>
      let (items, rest) ← readItems limits fuel room rest
      return (item :: items, rest)
    | _ => throw refused

/-- The entries of a table up to its end, and the tokens after it. -/
def readEntries (limits : Limits) :
    Nat → Nat → List Token → Except Fault (List (Value × Value) × List Token)
  | 0, _, _ => .error refused
  | fuel + 1, room, .text key :: .mark ':' :: tokens => do
    let (value, rest) ← readValue limits fuel room tokens
    match rest with
    | .mark '\x7d' :: rest => return ([(.text key, value)], rest)
    | .mark ',' :: rest =>
      let (entries, rest) ← readEntries limits fuel room rest
      return ((.text key, value) :: entries, rest)
    | _ => throw refused
  | _, _, _ => .error refused

end

/-- The value of a JSON text within some limits. -/
def readWithin (limits : Limits) (s : String) : Except Fault Value := do
  let tokens := Token.ofText s
  match ← readValue limits (2 * tokens.length + 2) limits.depth tokens with
  | (v, []) => return v
  | _ => throw refused

/-- The value of a JSON text. -/
def read (s : String) : Except Fault Value :=
  readWithin .usual s

end Classpath.Json
