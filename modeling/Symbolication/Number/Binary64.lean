/-!
# Symbolication.Number.Binary64

Double-precision numbers, as exact multiples of powers of two. A decimal is read
by rounding its exact value to the nearest number, a tie going to the even
mantissa, and a number is written with the fewest digits that are read back as
the same number.

* `Binary64.ofDecimal`: the nearest number to `digits · 10 ^ exponent`;
* `Binary64.text`: positional notation for exponents from −4 to 15, scientific
  notation beyond, always with a point or an exponent.
-/

namespace Symbolication.Number

/-- A double-precision number. -/
inductive Binary64 where
  | nan
  | infinite (negative : Bool)
  /-- The number `mantissa · 2 ^ exponent`, with its sign. -/
  | finite (negative : Bool) (mantissa : Nat) (exponent : Int)
deriving DecidableEq, Repr

namespace Binary64

/-- The exponent of the numbers nearest to zero. -/
def leastExponent : Int := -1074

/-- The least number of a full mantissa, which has 53 bits. -/
def fullMantissa : Nat := 0x10000000000000

/-- The fraction `num / den · 2 ^ (-e)` as a fraction of natural numbers. -/
def scaleDown (num den : Nat) (e : Int) : Nat × Nat :=
  (num <<< (-e).toNat, den <<< e.toNat)

/-- The quotient rounded to the nearest integer, a tie going to the even one. -/
def roundQuotient (num den : Nat) : Nat :=
  let q := num / den
  let r := num % den
  if 2 * r < den then q
  else if den < 2 * r then q + 1
  else if q % 2 == 0 then q
  else q + 1

/-- The exponent at which `num / den` has a mantissa of 53 bits, or the least one. -/
def exponentOf (num den : Nat) : Int :=
  let e : Int := (num.log2 : Int) - (den.log2 : Int) - 52
  let (n, d) := scaleDown num den e
  max leastExponent (if n / d < fullMantissa then e - 1 else e)

/-- The number nearest to the positive fraction `num / den`. -/
def ofFraction (negative : Bool) (num den : Nat) : Binary64 :=
  let e := exponentOf num den
  let (n, d) := scaleDown num den e
  let m := roundQuotient n d
  let (m, e) := if m == 2 * fullMantissa then (fullMantissa, e + 1) else (m, e)
  if 971 < e then .infinite negative else .finite negative m e

/-- The number nearest to `digits · 10 ^ exponent`. Exponents far out of range are settled without
building the power of ten. -/
def ofDecimal (negative : Bool) (digits : Nat) (exponent : Int) : Binary64 :=
  let size : Int := (Nat.toDigits 10 digits).length
  if digits == 0 || exponent + size < -330 then .finite negative 0 leastExponent
  else if 310 < exponent + size then .infinite negative
  else if exponent < 0 then ofFraction negative digits (Nat.pow 10 (-exponent).toNat)
  else ofFraction negative (digits * Nat.pow 10 exponent.toNat) 1

/-- Whether the number is zero, of either sign. -/
def isZero : Binary64 → Bool
  | finite _ mantissa _ => mantissa == 0
  | _ => false

/-! ## The fewest digits -/

/-- Compares `a · 10 ^ i` with `n · 2 ^ j`. -/
def compareScaled (a : Nat) (i : Int) (n : Nat) (j : Int) : Ordering :=
  compare ((a * Nat.pow 10 i.toNat) <<< (-j).toNat) ((n * Nat.pow 10 (-i).toNat) <<< j.toNat)

/-- Whether `digits · 10 ^ scale` lies among the reals that are rounded to `m · 2 ^ e`: from
half-way to the neighbour below, which is nearer below a power of two, to half-way to the
neighbour above. The ends belong to the numbers with even mantissas. -/
def readsBack (m : Nat) (e : Int) (digits : Nat) (scale : Int) : Bool :=
  let low := if m == fullMantissa && leastExponent < e then 4 * m - 1 else 4 * m - 2
  let fromLow := compareScaled digits scale low (e - 2)
  let fromHigh := compareScaled digits scale (4 * m + 2) (e - 2)
  (fromLow == .gt || (m % 2 == 0 && fromLow == .eq)) &&
    (fromHigh == .lt || (m % 2 == 0 && fromHigh == .eq))

/-- The integer part of `m · 2 ^ e / 10 ^ scale`. -/
def floorScaled (m : Nat) (e scale : Int) : Nat :=
  ((m * Nat.pow 10 (-scale).toNat) <<< e.toNat) / (Nat.pow 10 scale.toNat <<< (-e).toNat)

/-- The nearest of the multiples of `10 ^ scale` that are read back as `m · 2 ^ e`; on a tie the
even one. -/
def onGrid? (m : Nat) (e scale : Int) : Option Nat :=
  let below := floorScaled m e scale
  let above := below + 1
  match readsBack m e below scale, readsBack m e above scale with
  | false, false => none
  | true, false => some below
  | false, true => some above
  | true, true =>
    match compareScaled (below + above) scale (2 * m) e with
    | .gt => some below
    | .lt => some above
    | .eq => some (if below % 2 == 0 then below else above)

/-- The least `k` with `m · 2 ^ e < 10 ^ k`, sought upwards from `k` for at most `steps` steps. -/
def magnitudeFrom (m : Nat) (e k : Int) : Nat → Int
  | 0 => k
  | steps + 1 => if compareScaled 1 k m e == .gt then k else magnitudeFrom m e (k + 1) steps

/-- The first grid of at most 17 digits that holds a number read back as `m · 2 ^ e`. -/
def shortest (m : Nat) (e : Int) : Nat × Int :=
  -- 1233 / 4096 is just below the decimal logarithm of two
  let k := magnitudeFrom m e (Int.fdiv (((m.log2 : Int) + e) * 1233) 4096 - 1) 8
  let found := (List.range 17).findSome? fun (i : Nat) =>
    let scale := k - (i : Int) - 1
    (onGrid? m e scale).map (·, scale)
  found.getD ((m * Nat.pow 5 (-e).toNat) <<< e.toNat, min e 0)

/-- The decimal without the zeros its digits end in. -/
def dropZeros (digits : List Char) (scale : Int) : List Char × Int :=
  let kept := (digits.reverse.dropWhile (· == '0')).reverse
  (kept, scale + (digits.length - kept.length : Nat))

/-- The text of an exponent: its sign and at least two digits. -/
def exponentText (e : Int) : String :=
  let digits := toString e.natAbs
  let digits := if digits.length < 2 then "0" ++ digits else digits
  (if e < 0 then "-" else "+") ++ digits

/-- The decimal `digits · 10 ^ scale`, laid out. -/
def layOut (digits : List Char) (scale : Int) : String :=
  let lead : Int := scale + digits.length - 1
  if lead < -4 || 16 ≤ lead then
    let fraction := digits.drop 1
    let mantissa := if fraction.isEmpty then digits else digits.take 1 ++ '.' :: fraction
    String.ofList mantissa ++ "e" ++ exponentText lead
  else if lead < 0 then
    "0." ++ String.ofList (List.replicate (-lead - 1).toNat '0' ++ digits)
  else if 0 ≤ scale then
    String.ofList (digits ++ List.replicate scale.toNat '0') ++ ".0"
  else
    let whole := (lead + 1).toNat
    String.ofList (digits.take whole ++ '.' :: digits.drop whole)

/-- The text of a number, given the name of infinity and the text of what is no number. -/
def textWith (nanText infinityText : String) : Binary64 → String
  | nan => nanText
  | infinite negative => if negative then "-" ++ infinityText else infinityText
  | finite negative m e =>
    let body :=
      if m == 0 then "0.0"
      else
        let (digits, scale) := shortest m e
        let (digits, scale) := dropZeros (Nat.toDigits 10 digits) scale
        layOut digits scale
    if negative then "-" ++ body else body

/-- The text of a number in a message. -/
def text (x : Binary64) : String :=
  x.textWith "nan" "inf"

end Binary64

end Symbolication.Number
