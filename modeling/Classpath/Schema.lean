import Classpath.Fault

/-! # Typed parts of a document

Reading a record from a value checks each part on its own and reports every invalid part, in the
order of the fields and items. A part of a related kind is accepted where its meaning is clear: a
whole number may be given as a text or without a fraction, and a truth value by the usual words.
-/

namespace Classpath

/-- A part that was read, or the parts that are invalid. -/
abbrev Checked (α : Type) := Except (List Issue) α

namespace Checked

/-- Refuse a part. -/
def refuse {α : Type} (defect : Defect) : Checked α :=
  .error [⟨[], defect⟩]

/-- Say where a part stands. -/
def under {α : Type} (step : Step) (part : Checked α) : Checked α :=
  part.mapError (·.map fun issue => { issue with place := step :: issue.place })

/-- Read two parts, and report the invalid parts of both. -/
def both {α β : Type} : Checked α → Checked β → Checked (α × β)
  | .ok a, .ok b => .ok (a, b)
  | .ok _, .error issues => .error issues
  | .error issues, .ok _ => .error issues
  | .error issues, .error more => .error (issues ++ more)

/-- Read parts one after another, and report the invalid parts of all. -/
def all {α β : Type} (read : α → Checked β) : List α → Checked (List β)
  | [] => .ok []
  | x :: rest => (both (read x) (all read rest)).map fun (y, ys) => y :: ys

end Checked

namespace Schema

open Checked

/-- A text, or bytes that are one. -/
def text : Value → Checked String
  | .text s => .ok s
  | .bytes data =>
    match Text.ofUtf8? data with
    | some cs => .ok (String.ofList cs)
    | none => refuse .notUnicode
  | _ => refuse .notText

/-! ## Whole numbers given as texts -/

/-- Drop the zeros before a numeral, and underscores among them. A minus after them starts the
numeral anew; the last of them is kept where nothing or a point follows. A numeral with a minus
stays, and one that starts with neither digit nor minus is refused. -/
def dropZeros : List Char → Option (List Char)
  | [] => none
  | c :: rest =>
    if c = '0' then
      let zeros := rest.takeWhile fun d => d = '0' || d = '_'
      let last := (c :: zeros).getLast?.getD c
      match rest.drop zeros.length with
      | [] => some [last]
      | d :: after =>
        if d = '.' then some (last :: d :: after)
        else if Text.isDigit d || d = '-' then some (d :: after)
        else none
    else if Text.isDigit c || c = '-' then some (c :: rest)
    else none

/-- Drop a fraction of zeros. -/
def dropFraction (cs : List Char) : List Char :=
  let whole := cs.takeWhile (· ≠ '.')
  match cs.drop whole.length with
  | _ :: fraction => if !fraction.isEmpty && fraction.all (· = '0') then whole else cs
  | [] => cs

/-- Read digits, with any underscores after the first digit. -/
def readDigits? (cs : List Char) : Option Nat :=
  if cs.head? = some '_' then none else Text.readNat? 10 (cs.filter (· ≠ '_'))

/-- Read the numeral that is left when blanks, a plus, needless zeros and a fraction are gone. -/
def readSigned? : List Char → Option Int
  | '-' :: digits => (readDigits? digits).map (Text.signed true)
  | digits => (readDigits? digits).map (Text.signed false)

/-- Read a numeral: blanks around it, a sign, needless zeros and a fraction of zeros. -/
def readNumeral? (cs : List Char) : Option Int :=
  match Text.trimEnds Text.isSpace cs with
  | '+' :: '-' :: _ => none
  | '+' :: rest | rest => (dropZeros rest).bind fun digits => readSigned? (dropFraction digits)

/-- The whole number that a text gives. A text of too many bytes is not read. -/
def integerOfText (s : String) : Checked Int :=
  if s.toList.any fun c => (Text.surrogate? c).isSome then refuse .notUnicode
  else if Text.digitLimit < s.utf8ByteSize then refuse .integerTooLarge
  else
    match readNumeral? s.toList with
    | some n => .ok n
    | none => refuse .notIntegerText

/-! ## Scalars -/

/-- The least whole number that is too large for a signed word of 64 bits. -/
def wordLimit : Int := 0x8000000000000000

/-- Whether a whole number fits into a signed word. -/
def fitsWord (n : Int) : Bool :=
  -wordLimit ≤ n && n < wordLimit

/-- Whether a number without a fraction is small enough to be read as a whole number. -/
def isMachineSized (n : Int) : Bool :=
  -wordLimit < n && n < wordLimit

/-- A whole number. -/
def integer : Value → Checked Int
  | .int n => .ok n
  | .bool b => .ok (if b then 1 else 0)
  | .float x =>
    match x, x.toInt? with
    | .finite .., some n => if isMachineSized n then .ok n else refuse .integerTooLarge
    | .finite .., none => refuse .fraction
    | _, _ => refuse .notFinite
  | .text s => integerOfText s
  | .bytes data =>
    match Text.ofUtf8? data with
    | some cs => integerOfText (String.ofList cs)
    | none => refuse .notIntegerText
  | _ => refuse .notInteger

/-- The truth value of a word, in any case of its letters. -/
def truthOfWord? (s : String) : Option Bool :=
  let word := s.toList.map fun c =>
    if 'A' ≤ c && c ≤ 'Z' then Char.ofNat (c.toNat + 32) else c
  let word := String.ofList word
  if ["1", "on", "t", "true", "y", "yes"].contains word then some true
  else if ["0", "off", "f", "false", "n", "no"].contains word then some false
  else none

/-- A truth value. -/
def truth : Value → Checked Bool
  | .bool b => .ok b
  | .text s =>
    match truthOfWord? s with
    | some b => .ok b
    | none => refuse .notTruthText
  | .int n =>
    if n = 0 then .ok false
    else if n = 1 then .ok true
    else if fitsWord n then refuse .notTruthText
    else refuse .notTruth
  | .float x =>
    match x.toInt? with
    | some n =>
      if n = 0 then .ok false
      else if n = 1 then .ok true
      else if isMachineSized n then refuse .notTruthText
      else refuse .notTruth
    | none => refuse .notTruth
  | _ => refuse .notTruth

/-- A list whose items are read by a rule. -/
def list {α : Type} (item : Value → Checked α) : Value → Checked (List α)
  | .list items | .tuple items | .set items =>
    all (fun (v, i) => under (.item (i : Nat)) (item v)) items.zipIdx
  | _ => refuse .notList

/-- A field of a table, which takes a value of its own when it is missing. -/
def field {α : Type} (entries : List (Value × Value)) (name : String) (missing : α)
    (read : Value → Checked α) : Checked α :=
  match Value.field? entries name with
  | some v => under (.field name) (read v)
  | none => .ok missing

end Schema

end Classpath
