import Classpath.Value.Order
import Classpath.Value.Printer

/-! # Names of classes

A name is usually a text, but the answers of a source and the keys of a table may hold any value
that can be looked up. Two names are the same when a look-up does not tell them apart, as a number
and the truth value that counts as it; of names that are the same the first one stays. The main
statements say that a text is the same as no other name, and that choosing among names gives one of
them or leaves the name as it is.
-/

namespace Classpath

/-- The name of a class. -/
inductive Name where
  | text (s : String)
  | null
  | bool (b : Bool)
  | int (n : Int)
  | float (x : Binary64)
  | bytes (data : List UInt8)
  | moment (m : Moment)
deriving DecidableEq, Repr

namespace Name

instance : Coe String Name := ⟨.text⟩

/-- A name as a value. -/
def toValue : Name → Value
  | .text s => .text s
  | .null => .null
  | .bool b => .bool b
  | .int n => .int n
  | .float x => .float x
  | .bytes data => .bytes data
  | .moment m => .moment m

/-- The name in a message. -/
def shown (n : Name) : String :=
  n.toValue.shown

/-- The text of a name that is one. -/
def asText? : Name → Option String
  | .text s => some s
  | _ => none

/-- Two names that no look-up tells apart. -/
def same (a b : Name) : Bool :=
  a == b || Value.same a.toValue b.toValue

/-- The first of some names that is the same as a name, or the name itself where there is none. -/
def among (names : List Name) (n : Name) : Name :=
  (names.find? (same n)).getD n

/-- Distinct names, the first of those that are the same. -/
def distinct (names : List Name) : List Name :=
  names.foldl (fun seen n => if seen.any (same n) then seen else seen ++ [n]) []

/-- Names in order. -/
def sort (names : List Name) : Except Fault (List Name) :=
  match names.mapM asText? with
  | some texts => .ok ((Text.sort texts).map .text)
  | none => Sorting.sort (fun a b => Value.less a.toValue b.toValue) names

/-! ## Small facts -/

@[simp] theorem same_self (n : Name) : same n n = true := by
  simp [same]

/-- A text is the same as no other name. -/
@[simp] theorem same_text_iff {s : String} {n : Name} : same (.text s) n = true ↔ .text s = n := by
  constructor
  · intro alike
    rcases Bool.or_eq_true_iff.mp alike with equal | equal
    · exact eq_of_beq equal
    · cases n <;> simp [toValue, Value.same, Value.sameScalar, Value.asInt?] at equal
      rw [equal]
  · rintro rfl
    simp

/-- What is chosen among names is one of them or the name itself. -/
theorem among_mem_or_eq (names : List Name) (n : Name) :
    n.among names ∈ names ∨ n.among names = n := by
  unfold among
  cases found : names.find? (same n) with
  | none => exact Or.inr rfl
  | some first => exact Or.inl (List.mem_of_find?_eq_some found)

/-- A text is not replaced by another name. -/
@[simp] theorem among_text (names : List Name) (s : String) : among names (.text s) = .text s := by
  unfold among
  cases found : names.find? (same (.text s)) with
  | none => rfl
  | some first => exact (same_text_iff.mp (List.find?_some found)).symm

end Name

namespace Value

/-- The name that a value stands for. -/
def asName : Value → Except Fault Name
  | .text s => .ok (.text s)
  | .null => .ok .null
  | .bool b => .ok (.bool b)
  | .int n => .ok (.int n)
  | .float x => .ok (.float x)
  | .bytes data => .ok (.bytes data)
  | .moment m => .ok (.moment m)
  | v => .error (.unhashable v.kind)

/-- The names that the members of a value stand for, in order. -/
def asNames (v : Value) : Except Fault (List Name) :=
  match v.members? with
  | none => .error (.notIterable v.kind)
  | some members => members.mapM asName

@[simp] theorem asName_toValue (n : Name) : asName n.toValue = .ok n := by
  cases n <;> rfl

end Value

end Classpath
