import CallBridge.Binary.Shortest
import CallBridge.Prim
import CallBridge.Text.Quoted

/-!
# Primitive values

A datum is a value of a primitive kind. Floating-point data are bit patterns. A
datum can be *converted* to another kind, keeping its value as far as the kind
can hold it, or *reinterpreted*, which reads its slot bits as another kind.
-/

namespace CallBridge

/-- A value of a primitive kind. -/
inductive Datum where
  | boolean (value : Bool)
  | byte (value : Int8)
  | char (value : UInt16)
  | short (value : Int16)
  | int (value : Int32)
  | long (value : Int64)
  | float (bits : UInt32)
  | double (bits : UInt64)
  deriving DecidableEq

namespace Datum

def kind : Datum → Prim
  | boolean _ => .boolean
  | byte _ => .byte
  | char _ => .char
  | short _ => .short
  | int _ => .int
  | long _ => .long
  | float _ => .float
  | double _ => .double

-- ---------------------------------------------------------------------------
-- Numeric views
-- ---------------------------------------------------------------------------

/-- The integer a datum stands for. A floating-point datum is rounded toward zero and cut off at
    the ends of the 64-bit range; a NaN is zero. -/
def toInt : Datum → Int
  | boolean b => if b then 1 else 0
  | byte v => v.toInt
  | char v => v.toNat
  | short v => v.toInt
  | int v => v.toInt
  | long v => v.toInt
  | float bits => BinaryFormat.single.truncate Int64.minValue.toInt Int64.maxValue.toInt bits.toNat
  | double bits => BinaryFormat.double.truncate Int64.minValue.toInt Int64.maxValue.toInt bits.toNat

/-- The double-precision pattern nearest to the datum. -/
def toDouble : Datum → UInt64
  | float bits => UInt64.ofNat (BinaryFormat.single.convert .double bits.toNat)
  | double bits => bits
  | d => UInt64.ofNat (BinaryFormat.double.ofInt d.toInt)

/-- The datum of an integral kind with the low bits of `n`; a boolean keeps one bit. The floating
    kinds take the nearest pattern. -/
def ofInt (kind : Prim) (n : Int) : Datum :=
  match kind with
  | .boolean => boolean (decide (n % 2 = 1))
  | .byte => byte (Int8.ofInt n)
  | .char => char (UInt16.ofInt n)
  | .short => short (Int16.ofInt n)
  | .int => int (Int32.ofInt n)
  | .long => long (Int64.ofInt n)
  | .float => float (UInt32.ofNat (BinaryFormat.single.ofInt n))
  | .double => double (UInt64.ofNat (BinaryFormat.double.ofInt n))

-- ---------------------------------------------------------------------------
-- Changing the kind
-- ---------------------------------------------------------------------------

/-- Converts a datum to another kind. Integral kinds keep the low bits; every conversion to a
    floating kind goes through double precision. -/
def convert (d : Datum) (kind : Prim) : Datum :=
  if d.kind = kind then d
  else
    match kind with
    | .float => float (UInt32.ofNat (BinaryFormat.double.convert .single d.toDouble.toNat))
    | .double => double d.toDouble
    | _ => ofInt kind d.toInt

/-- The bits a datum leaves in its slots. Integral data of one slot travel as a 32-bit word. -/
def slotBits : Datum → UInt64
  | float bits => bits.toUInt64
  | double bits => bits
  | long v => v.toUInt64
  | d => (Int32.ofInt d.toInt).toUInt32.toUInt64

/-- Reads the slot bits of a datum as another kind. -/
def reinterpret (d : Datum) (kind : Prim) : Datum :=
  match kind with
  | .float => float d.slotBits.toUInt32
  | .double => double d.slotBits
  | .long => long d.slotBits.toInt64
  | _ => ofInt kind d.slotBits.toUInt32.toInt32.toInt

-- ---------------------------------------------------------------------------
-- Equality of values and text
-- ---------------------------------------------------------------------------

/-- Whether two data are equal as numbers of one kind: a NaN is unequal to everything and the two
    zeros are equal. -/
def equal : Datum → Datum → Bool
  | float a, float b => BinaryFormat.single.equal a.toNat b.toNat
  | double a, double b => BinaryFormat.double.equal a.toNat b.toNat
  | a, b => a == b

/-- A 16-bit character in single quotes; half of a surrogate pair is written as its code. -/
def charText (v : UInt16) : String :=
  let body :=
    if 0xD800 ≤ v ∧ v ≤ 0xDFFF then Text.codePointEscape 4 v.toNat else [Char.ofNat v.toNat]
  "'" ++ String.ofList body ++ "'"

def text : Datum → String
  | boolean b => if b then "true" else "false"
  | byte v => toString v.toInt
  | char v => charText v
  | short v => toString v.toInt
  | int v => toString v.toInt
  | long v => toString v.toInt ++ "L"
  | float bits => BinaryFormat.single.text bits.toNat ++ "f"
  | double bits => BinaryFormat.double.text bits.toNat

end Datum

end CallBridge
