import Classpath.Text.Numeral

/-! # Binary floating point numbers of double precision

A number is kept as its sign, mantissa and exponent, so that every operation is exact arithmetic on
whole numbers followed by one rounding. The decimal form is the shortest that reads back, and of
those the nearest.
-/

namespace Classpath

/-- A number of the binary64 format. In `finite` the value is `mantissa * 2 ^ exponent`; the
mantissa is below `2 ^ 53`, and at least `2 ^ 52` unless the exponent is `-1074`. -/
inductive Binary64 where
  | nan
  | infinite (negative : Bool)
  | finite (negative : Bool) (mantissa : Nat) (exponent : Int)
deriving DecidableEq, Repr, Inhabited

namespace Binary64

/-- The least exponent. -/
def leastExponent : Int := -1074

/-- The greatest exponent. -/
def greatestExponent : Int := 971

/-- The quotient rounded to the nearest whole number, a half to the even neighbour. -/
def roundQuotient (num den : Nat) : Nat :=
  let quotient := num / den
  let rest := 2 * (num % den)
  if rest < den || (rest == den && quotient % 2 == 0) then quotient else quotient + 1

/-- The mantissa of `num / den` on the grid of an exponent, rounded. -/
def mantissaAt (num den : Nat) (exponent : Int) : Nat :=
  if exponent ≥ 0 then roundQuotient num (den * Nat.pow 2 exponent.toNat)
  else roundQuotient (num * Nat.pow 2 (-exponent).toNat) den

/-- The number nearest to a quotient of whole numbers. -/
def ofRatio (negative : Bool) (num den : Nat) : Binary64 :=
  if num = 0 || den = 0 then .finite negative 0 leastExponent
  else
    let guess := (Nat.log2 num : Int) - (Nat.log2 den : Int)
    -- the quotient lies between `2 ^ (guess - 1)` and `2 ^ (guess + 1)`
    let low := guess - 53
    let exponent :=
      if mantissaAt num den low < Nat.pow 2 53 then low else low + 1
    let exponent := max exponent leastExponent
    let mantissa := mantissaAt num den exponent
    let (mantissa, exponent) :=
      if mantissa < Nat.pow 2 53 then (mantissa, exponent) else (mantissa / 2, exponent + 1)
    if exponent > greatestExponent then .infinite negative else .finite negative mantissa exponent

/-- The number nearest to `digits * 10 ^ power`. -/
def ofDecimal (negative : Bool) (digits : Nat) (power : Int) : Binary64 :=
  if digits = 0 then .finite negative 0 leastExponent
  else
    let size : Int := (Nat.toDigits 10 digits).length
    if power + size > 400 then .infinite negative
    else if power + size < -400 then .finite negative 0 leastExponent
    else if power ≥ 0 then ofRatio negative (digits * Nat.pow 10 power.toNat) 1
    else ofRatio negative digits (Nat.pow 10 (-power).toNat)

/-- The number nearest to a whole number. -/
def ofInt (n : Int) : Binary64 :=
  ofRatio (decide (n < 0)) n.natAbs 1

/-- The whole part, toward zero; none for a number that is not finite. -/
def truncate? : Binary64 → Option Int
  | .finite negative mantissa exponent =>
    let magnitude :=
      if exponent ≥ 0 then mantissa * Nat.pow 2 exponent.toNat
      else mantissa / Nat.pow 2 (-exponent).toNat
    some (if negative then -(magnitude : Int) else magnitude)
  | _ => none

/-- The whole number that a number is equal to, if there is one. -/
def toInt? : Binary64 → Option Int
  | x@(.finite _ mantissa exponent) =>
    if exponent ≥ 0 || mantissa % Nat.pow 2 (-exponent).toNat == 0 then x.truncate? else none
  | _ => none

/-- A finite number as a quotient of whole numbers. -/
def ratio? : Binary64 → Option (Int × Nat)
  | .finite negative mantissa exponent =>
    let value : Int := if negative then -(mantissa : Int) else mantissa
    some (value * Nat.pow 2 exponent.toNat, Nat.pow 2 (-exponent).toNat)
  | _ => none

/-- The product with a positive whole number, rounded. -/
def scale (x : Binary64) (n : Nat) : Binary64 :=
  match x with
  | .finite negative .. =>
    match x.ratio? with
    | some (num, den) => ofRatio negative (num.natAbs * n) den
    | none => x
  | x => x

/-- The sum, rounded. Two infinities with different signs have none. -/
def plus (x y : Binary64) : Binary64 :=
  match x, y with
  | .nan, _ => .nan
  | _, .nan => .nan
  | .infinite n, .infinite n' => if n = n' then x else .nan
  | .infinite _, _ => x
  | _, .infinite _ => y
  | x, y =>
    match x.ratio?, y.ratio? with
    | some (a, b), some (c, d) =>
      let sum := a * d + c * b
      ofRatio (decide (sum < 0)) sum.natAbs (b * d)
    | _, _ => .nan

/-- Numeric equality: no `nan` is equal to anything, and both zeros are equal. -/
def same : Binary64 → Binary64 → Bool
  | .finite n m e, .finite n' m' e' => m == m' && (m == 0 || (n == n' && e == e'))
  | .infinite n, .infinite n' => n == n'
  | _, _ => false

/-- Whether a number is different from zero. -/
def nonzero : Binary64 → Bool
  | .finite _ mantissa _ => mantissa != 0
  | _ => true

/-! ## Decimal form -/

/-- The interval of the quotients that round to a positive finite number, as numerators over the
common denominator `den`, with the value itself in the middle. -/
structure Rounding where
  low : Nat
  value : Nat
  high : Nat
  den : Nat
  /-- Whether the ends round to the number too. -/
  closed : Bool

/-- The rounding interval of a number. The lower half is narrower at a power of two. -/
def rounding (mantissa : Nat) (exponent : Int) : Rounding :=
  let narrow := mantissa == Nat.pow 2 52 && exponent > leastExponent
  let up := if exponent ≥ 0 then Nat.pow 2 exponent.toNat else 1
  let den := if exponent ≥ 0 then 4 else 4 * Nat.pow 2 (-exponent).toNat
  { low := (4 * mantissa - (if narrow then 1 else 2)) * up
    value := 4 * mantissa * up
    high := (4 * mantissa + 2) * up
    den
    closed := mantissa % 2 == 0 }

/-- Whether `digits * 10 ^ power` lies in a rounding interval. -/
def Rounding.holds (r : Rounding) (digits : Nat) (power : Int) : Bool :=
  let point := if power ≥ 0 then digits * Nat.pow 10 power.toNat * r.den else digits * r.den
  let scale := if power ≥ 0 then 1 else Nat.pow 10 (-power).toNat
  if r.closed then r.low * scale ≤ point && point ≤ r.high * scale
  else r.low * scale < point && point < r.high * scale

/-- The neighbours of the value on the grid of a power of ten, with twice the rest above the lower
one and the width of the grid, over a common denominator. -/
def Rounding.below (r : Rounding) (power : Int) : Nat × Nat × Nat :=
  let num := if power ≥ 0 then r.value else r.value * Nat.pow 10 (-power).toNat
  let den := if power ≥ 0 then r.den * Nat.pow 10 power.toNat else r.den
  (num / den, 2 * (num % den), den)

/-- The neighbour on a grid that reads back, the nearer if both do, a tie to the even one. -/
def Rounding.onGrid? (r : Rounding) (power : Int) : Option Nat :=
  let (lower, rest, width) := r.below power
  let lowerHolds := r.holds lower power
  let upperHolds := r.holds (lower + 1) power
  if lowerHolds && upperHolds then
    some (if rest < width || (rest == width && lower % 2 == 0) then lower else lower + 1)
  else if lowerHolds then some lower
  else if upperHolds then some (lower + 1)
  else none

/-- The least whole number `k` with value below `10 ^ k`, searched upward from a lower bound. -/
def Rounding.magnitude (r : Rounding) : Nat → Int → Int
  | 0, k => k
  | fuel + 1, k =>
    let small :=
      if k ≥ 0 then r.value < r.den * Nat.pow 10 k.toNat
      else r.value * Nat.pow 10 (-k).toNat < r.den
    if small then k else r.magnitude fuel (k + 1)

/-- Digits and power of ten of the shortest decimal that reads back. -/
def shortest (mantissa : Nat) (exponent : Int) : Nat × Int :=
  let r := rounding mantissa exponent
  let bits : Int := (Nat.log2 mantissa : Int) + exponent
  let magnitude := r.magnitude 5 (bits * 30103 / 100000 - 1)
  let grids := (List.range 17).map fun count => magnitude - (count + 1 : Nat)
  (grids.findSome? fun power => (r.onGrid? power).map (·, power)).getD (0, 0)

/-- Drop the zeros at the end of a digit list. -/
def withoutTrailingZeros (digits : List Char) : List Char :=
  (digits.reverse.dropWhile (· == '0')).reverse

/-- The decimal form: positional from `1e-4` up to below `1e16`, with `.0` after a whole number,
and otherwise with an exponent of at least two digits. -/
def text : Binary64 → String
  | .nan => "nan"
  | .infinite negative => if negative then "-inf" else "inf"
  | .finite negative mantissa exponent =>
    let sign := if negative then "-" else ""
    if mantissa = 0 then sign ++ "0.0"
    else
      let (digits, power) := shortest mantissa exponent
      let all := Nat.toDigits 10 digits
      let point : Int := power + all.length
      let shown := withoutTrailingZeros all
      if -4 < point && point ≤ 16 then
        if point ≤ 0 then
          sign ++ "0." ++ String.ofList (List.replicate (-point).toNat '0' ++ shown)
        else
          let whole := shown.take point.toNat
          let fraction := shown.drop point.toNat
          sign ++ String.ofList (whole ++ List.replicate (point.toNat - whole.length) '0') ++ "." ++
            (if fraction.isEmpty then "0" else String.ofList fraction)
      else
        let scale := point - 1
        sign ++ String.ofList (shown.take 1) ++
          (if shown.length ≤ 1 then "" else "." ++ String.ofList (shown.drop 1)) ++ "e" ++
          (if scale < 0 then "-" else "+") ++ Text.padded 2 scale.natAbs

end Binary64

end Classpath
