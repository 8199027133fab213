import CallBridge.Binary.Format

/-!
# Shortest decimals

The decimal text of a floating-point pattern: the fewest digits that read back to
the same pattern, of these the nearest to the value, written without an exponent.
All comparisons are exact, on natural numbers over a common denominator.
-/

namespace CallBridge

/-- A positive number with the reals that round to it, over one denominator: `value / unit` lies
    between `low / unit` and `high / unit`. -/
structure Rounding where
  value : Nat
  low : Nat
  high : Nat
  unit : Nat
  /-- Whether the two ends round to the value as well. -/
  closed : Bool

/-- The decimal number `digits * 10 ^ exponent`. -/
structure Decimal where
  digits : Nat
  exponent : Int
  deriving DecidableEq, Repr

namespace BinaryFormat

/-- The reals that round to `m * 2 ^ q`: half way to either neighbour. The neighbour below a power
    of two is half as far away, unless that power is the smallest one with full precision. -/
def rounding (f : BinaryFormat) (m : Nat) (q : Int) : Rounding :=
  let below := if m = 1 <<< f.fraction ∧ f.minExponent < q then 1 else 2
  let shift := (q - 2).toNat
  { value := (4 * m) <<< shift
    low := (4 * m - below) <<< shift
    high := (4 * m + 2) <<< shift
    unit := 1 <<< (2 - q).toNat
    closed := m % 2 = 0 }

end BinaryFormat

namespace Rounding

/-- The number of decimal digits of a positive natural number. -/
def digitCount (n : Nat) : Nat :=
  (Nat.toDigits 10 n).length

/-- The least `k` with the value below `10 ^ k`. -/
def scale (r : Rounding) : Int :=
  if r.unit ≤ r.value then digitCount (r.value / r.unit)
  else 1 - digitCount ((r.unit - 1) / r.value)

/-- Whether `digits * 10 ^ exponent` rounds to the value. -/
def readsBack (r : Rounding) (d : Decimal) : Bool :=
  let shift := Nat.pow 10 (-d.exponent).toNat
  let x := d.digits * Nat.pow 10 d.exponent.toNat * r.unit
  if r.closed then decide (r.low * shift ≤ x ∧ x ≤ r.high * shift)
  else decide (r.low * shift < x ∧ x < r.high * shift)

/-- The nearest decimal with the given exponent that reads back, if any does. Of two equally near
    ones it is the larger. -/
def atExponent? (r : Rounding) (exponent : Int) : Option Decimal :=
  let n := r.value * Nat.pow 10 (-exponent).toNat
  let d := r.unit * Nat.pow 10 exponent.toNat
  let below : Decimal := ⟨n / d, exponent⟩
  let above : Decimal := ⟨n / d + 1, exponent⟩
  match r.readsBack below, r.readsBack above with
  | true, true => if 2 * (n % d) < d then some below else some above
  | true, false => some below
  | false, true => some above
  | false, false => none

/-- The shortest decimal that reads back, looking at up to `limit` digits, and all digits of the
    value if none of these does. -/
def shortest (r : Rounding) (limit : Nat) : Decimal :=
  match (List.range limit).findSome? fun i => r.atExponent? (r.scale - (i + 1 : Nat)) with
  | some d => d
  | none => ⟨r.value * Nat.pow 5 r.unit.log2, -r.unit.log2⟩

end Rounding

namespace Decimal

/-- Moves zeros at the end of a fraction out of the digits. -/
def trim (d : Decimal) : Decimal :=
  go d.exponent.natAbs d
where
  go : Nat → Decimal → Decimal
  | 0, d => d
  | n + 1, d =>
    if d.exponent < 0 ∧ d.digits % 10 = 0 then go n ⟨d.digits / 10, d.exponent + 1⟩ else d

/-- The number in positional notation, with a point only if there is a fraction. -/
def text (d : Decimal) : String :=
  let d := d.trim
  let digits := Nat.toDigits 10 d.digits
  if 0 ≤ d.exponent then
    String.ofList (digits ++ List.replicate d.exponent.toNat '0')
  else
    let places := d.exponent.natAbs
    let padded := List.replicate (places + 1 - digits.length) '0' ++ digits
    let whole := padded.length - places
    String.ofList (padded.take whole ++ '.' :: padded.drop whole)

end Decimal

namespace BinaryFormat

/-- The text of a pattern. Seventeen digits are enough for either format. -/
def text (f : BinaryFormat) (bits : Nat) : String :=
  match f.decode bits with
  | .nan .. => "NaN"
  | .infinite negative => (if negative then "-" else "") ++ "inf"
  | .finite negative m q =>
    (if negative then "-" else "") ++
      (if m = 0 then "0" else ((f.rounding m q).shortest 17).text)

end BinaryFormat

end CallBridge
