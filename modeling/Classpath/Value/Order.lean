import Classpath.Fault
import Classpath.Sorting
import Classpath.Text.Order

/-! # The order of values

Two texts have an order, two numbers, two dates, two times of day and two lists. Values of other
kinds, or of different kinds, have none, and putting them in order is refused. A sequence is sorted
as texts when all of its members are texts.
-/

namespace Classpath.Value

/-- A number as a quotient of whole numbers. The denominator is zero for a number without bound. -/
def quotient? : Value → Option (Int × Nat)
  | .int n => some (n, 1)
  | .bool b => some (if b then 1 else 0, 1)
  | .float (.infinite negative) => some (if negative then -1 else 1, 0)
  | .float x => x.ratio?
  | _ => none

/-- Whether a number is less than another. -/
def lessNumber (a b : Value) : Bool :=
  match quotient? a, quotient? b with
  | some (p, q), some (r, s) => if q = 0 && s = 0 then p < r else p * s < r * q
  | _, _ => false

/-- Whether a moment is before another. Dates with a time of day need an offset both or neither. -/
def lessMoment (a b : Moment) : Except Fault Bool :=
  match a, b with
  | .date d, .date d' => .ok (decide (d.fields < d'.fields))
  | .time c, .time c' => .ok (decide (c.fields < c'.fields))
  | .dateTime d c none, .dateTime d' c' none =>
    .ok (decide (d.fields ++ c.fields < d'.fields ++ c'.fields))
  | .dateTime d c (some o), .dateTime d' c' (some o') =>
    .ok (decide (Moment.instant d c o < Moment.instant d' c' o'))
  | .dateTime .., .dateTime .. =>
    .error (.incomparable "can't compare offset-naive and offset-aware datetimes")
  | .date _, .dateTime .. | .dateTime .., .date _ =>
    .error (.incomparable "can't compare datetime.datetime to datetime.date")
  | a, b => .error (.unordered "<" (kind (.moment a)) (kind (.moment b)))

mutual

/-- Whether a value is less than another. -/
def less : Value → Value → Except Fault Bool
  | .text s, .text t => .ok (!Text.le t s)
  | .bytes data, .bytes data' => .ok (decide (data < data'))
  | .moment m, .moment m' => lessMoment m m'
  | .list xs, .list ys => lessItems xs ys
  | .tuple xs, .tuple ys => lessItems xs ys
  | a, b =>
    if a.isNumber && b.isNumber then .ok (lessNumber a b)
    else .error (.unordered "<" a.kind b.kind)

/-- Whether a list is before another: the first members that differ decide, or else the length. -/
def lessItems : List Value → List Value → Except Fault Bool
  | [], [] => .ok false
  | [], _ :: _ => .ok true
  | _ :: _, [] => .ok false
  | x :: xs, y :: ys => if same x y then lessItems xs ys else less x y

end

/-- Values in order. -/
def sort (values : List Value) : Except Fault (List Value) :=
  match values.mapM asText? with
  | some texts => .ok ((Text.sort texts).map .text)
  | none => Sorting.sort less values

end Classpath.Value
