/-!
# Binary floating-point formats

Floating-point values are handled as the bit patterns of a binary interchange
format, so that every pattern, the payload of a NaN included, is a value of its
own. A finite pattern stands for `m * 2 ^ q`; all arithmetic on it is exact, and
rounding is to nearest with ties to even.
-/

namespace CallBridge

/-- The widths of the fraction and exponent fields of a format. The sign is one more bit above
    them. -/
structure BinaryFormat where
  fraction : Nat
  exponent : Nat

namespace BinaryFormat

def single : BinaryFormat := ⟨23, 8⟩

def double : BinaryFormat := ⟨52, 11⟩

/-- The exponent `q` of the smallest positive value `2 ^ q`. -/
def minExponent (f : BinaryFormat) : Int :=
  2 - (1 <<< (f.exponent - 1) : Nat) - f.fraction

/-- The pattern of positive infinity. -/
def infinity (f : BinaryFormat) : Nat :=
  (1 <<< f.exponent - 1) <<< f.fraction

/-- The bit that marks a NaN as quiet: the highest bit of the fraction. -/
def quietBit (f : BinaryFormat) : Nat :=
  1 <<< (f.fraction - 1)

def signBit (f : BinaryFormat) : Nat :=
  1 <<< (f.fraction + f.exponent)

end BinaryFormat

/-- What a bit pattern stands for. -/
inductive BinaryValue where
  | nan (negative : Bool) (payload : Nat)
  | infinite (negative : Bool)
  /-- The value `m * 2 ^ q`, or its negation. -/
  | finite (negative : Bool) (m : Nat) (q : Int)
  deriving DecidableEq, Repr

namespace BinaryFormat

-- ---------------------------------------------------------------------------
-- Reading patterns
-- ---------------------------------------------------------------------------

def decode (f : BinaryFormat) (bits : Nat) : BinaryValue :=
  let fraction := bits % (1 <<< f.fraction)
  let exponent := (bits >>> f.fraction) % (1 <<< f.exponent)
  let negative := bits.testBit (f.fraction + f.exponent)
  if exponent = 1 <<< f.exponent - 1 then
    if fraction = 0 then .infinite negative else .nan negative fraction
  else if exponent = 0 then .finite negative fraction f.minExponent
  else .finite negative (fraction + 1 <<< f.fraction) (f.minExponent + (exponent - 1 : Nat))

def isNaN (f : BinaryFormat) (bits : Nat) : Bool :=
  match f.decode bits with
  | .nan .. => true
  | _ => false

/-- Equality of values: a NaN differs from everything, and the two zeros are equal. -/
def equal (f : BinaryFormat) (a b : Nat) : Bool :=
  match f.decode a, f.decode b with
  | .nan .., _ => false
  | _, .nan .. => false
  | .finite _ 0 _, .finite _ 0 _ => true
  | x, y => x == y

-- ---------------------------------------------------------------------------
-- Writing patterns
-- ---------------------------------------------------------------------------

/-- The quotient `n / d` rounded to nearest, a half going to the even neighbour. -/
def roundDiv (n d : Nat) : Nat :=
  let q := n / d
  let r := n % d
  if 2 * r < d then q
  else if 2 * r = d then q + q % 2
  else q + 1

/-- Rounding never moves a quotient by more than half. -/
theorem roundDiv_near (n d : Nat) (h : 0 < d) :
    2 * n ≤ 2 * (roundDiv n d * d) + d ∧ 2 * (roundDiv n d * d) ≤ 2 * n + d := by
  have hn : d * (n / d) + n % d = n := Nat.div_add_mod n d
  have hr : n % d < d := Nat.mod_lt n h
  have hc : d * (n / d) = n / d * d := Nat.mul_comm ..
  unfold roundDiv
  simp only
  split
  · omega
  · split
    · cases Nat.mod_two_eq_zero_or_one (n / d) with
      | inl he =>
        rw [he]
        simp only [Nat.add_zero]
        omega
      | inr ho =>
        rw [ho, Nat.add_mul]
        omega
    · rw [Nat.add_mul]
      omega

/-- The pattern of the value nearest to `m * 2 ^ q`, infinity if that is too large. -/
def roundMagnitude (f : BinaryFormat) (m : Nat) (q : Int) : Nat :=
  if m = 0 then 0
  else
    -- the exponent of the last place that a result of this size has
    let last := max (q + m.log2 - f.fraction) f.minExponent
    let digits :=
      if last ≤ q then m <<< (q - last).toNat else roundDiv m (1 <<< (last - q).toNat)
    min (digits + (last - f.minExponent).toNat <<< f.fraction) f.infinity

def withSign (f : BinaryFormat) (negative : Bool) (magnitude : Nat) : Nat :=
  if negative then magnitude + f.signBit else magnitude

/-- The pattern of an integer. -/
def ofInt (f : BinaryFormat) (n : Int) : Nat :=
  f.withSign (decide (n < 0)) (f.roundMagnitude n.natAbs 0)

/-- The pattern in format `g` of a pattern of format `f`. A NaN keeps its sign and the leading bits
    of its payload and becomes quiet. -/
def convert (f g : BinaryFormat) (bits : Nat) : Nat :=
  match f.decode bits with
  | .nan negative payload =>
    let moved := payload <<< g.fraction >>> f.fraction
    g.withSign negative (g.infinity + (moved ||| g.quietBit))
  | .infinite negative => g.withSign negative g.infinity
  | .finite negative m q => g.withSign negative (g.roundMagnitude m q)

/-- The value rounded toward zero and cut off at `lo` and `hi`. A NaN is zero. -/
def truncate (f : BinaryFormat) (lo hi : Int) (bits : Nat) : Int :=
  match f.decode bits with
  | .nan .. => 0
  | .infinite negative => if negative then lo else hi
  | .finite negative m q =>
    let magnitude := if 0 ≤ q then m <<< q.toNat else m >>> (-q).toNat
    max lo (min hi (if negative then -(magnitude : Int) else magnitude))

end BinaryFormat

end CallBridge
