import CallBridge.Step.Basic

/-!
# Descriptor words

A step packed into one 64-bit word. From the high end the fields are the argument
position (32 bits, all ones for none), the stack move in units of the host
(12 bits, signed), the source tag, the destination tag and the operation (4 bits
each), and the destination slot of a moved argument (8 bits).
-/

namespace CallBridge

/-- A packed step. -/
structure Descriptor where
  bits : BitVec 64
  deriving DecidableEq

namespace Descriptor

/-- Lays the six fields side by side. -/
def pack (arg : BitVec 32) (move : BitVec 12) (source dest op : BitVec 4) (info : BitVec 8) :
    Descriptor where
  bits := arg ++ move ++ source ++ dest ++ op ++ info

/-- The recorded argument position. A position with its high bit set reads as none. -/
def argPos? (d : Descriptor) : Option Nat :=
  let pos := d.bits.extractLsb' 32 32
  if pos.msb then none else some pos.toNat

def op? (d : Descriptor) : Option Op :=
  Op.ofCode? (d.bits.extractLsb' 8 4).toNat

def sourceTag? (d : Descriptor) : Option Tag :=
  Tag.ofCode? (d.bits.extractLsb' 16 4).toNat

def destTag? (d : Descriptor) : Option Tag :=
  Tag.ofCode? (d.bits.extractLsb' 12 4).toNat

/-- The low eight bits: the destination slot of a moved argument. -/
def info (d : Descriptor) : Nat :=
  (d.bits.extractLsb' 0 8).toNat

/-- The stack move as recorded, in units of the host. -/
def scaledMove (d : Descriptor) : Int32 :=
  Int32.ofBitVec ((d.bits.extractLsb' 20 12).signExtend 32)

/-- The net number of slots pushed, for a host whose unit is not zero. -/
def stackMove? (d : Descriptor) (unit : Int32) : Option Int32 :=
  if unit = 0 then none else some (d.scaledMove / unit)

/-! ## Each reader finds the field that was packed -/

section

variable (arg : BitVec 32) (move : BitVec 12) (source dest op : BitVec 4) (tail : BitVec 8)

theorem argPos?_pack :
    (pack arg move source dest op tail).argPos? = if arg.msb then none else some arg.toNat := by
  have h : (arg ++ move ++ source ++ dest ++ op ++ tail).extractLsb' 32 32 = arg := by
    rw [BitVec.extractLsb'_append_eq_of_le (by decide),
      BitVec.extractLsb'_append_eq_of_le (by decide),
      BitVec.extractLsb'_append_eq_of_le (by decide),
      BitVec.extractLsb'_append_eq_of_le (by decide),
      BitVec.extractLsb'_append_eq_of_le (by decide)]
    simp
  simp [argPos?, pack, h]

theorem scaledMove_pack :
    (pack arg move source dest op tail).scaledMove = Int32.ofBitVec (move.signExtend 32) := by
  have h : (arg ++ move ++ source ++ dest ++ op ++ tail).extractLsb' 20 12 = move := by
    rw [BitVec.extractLsb'_append_eq_of_le (by decide),
      BitVec.extractLsb'_append_eq_of_le (by decide),
      BitVec.extractLsb'_append_eq_of_le (by decide),
      BitVec.extractLsb'_append_eq_of_le (by decide),
      BitVec.extractLsb'_append_eq_of_add_le (by decide)]
    simp
  simp [scaledMove, pack, h]

theorem sourceTag?_pack :
    (pack arg move source dest op tail).sourceTag? = Tag.ofCode? source.toNat := by
  have h : (arg ++ move ++ source ++ dest ++ op ++ tail).extractLsb' 16 4 = source := by
    rw [BitVec.extractLsb'_append_eq_of_le (by decide),
      BitVec.extractLsb'_append_eq_of_le (by decide),
      BitVec.extractLsb'_append_eq_of_le (by decide),
      BitVec.extractLsb'_append_eq_of_add_le (by decide)]
    simp
  simp [sourceTag?, pack, h]

theorem destTag?_pack :
    (pack arg move source dest op tail).destTag? = Tag.ofCode? dest.toNat := by
  have h : (arg ++ move ++ source ++ dest ++ op ++ tail).extractLsb' 12 4 = dest := by
    rw [BitVec.extractLsb'_append_eq_of_le (by decide),
      BitVec.extractLsb'_append_eq_of_le (by decide),
      BitVec.extractLsb'_append_eq_of_add_le (by decide)]
    simp
  simp [destTag?, pack, h]

theorem op?_pack :
    (pack arg move source dest op tail).op? = Op.ofCode? op.toNat := by
  have h : (arg ++ move ++ source ++ dest ++ op ++ tail).extractLsb' 8 4 = op := by
    rw [BitVec.extractLsb'_append_eq_of_le (by decide),
      BitVec.extractLsb'_append_eq_of_add_le (by decide)]
    simp
  simp [op?, pack, h]

theorem info_pack :
    (pack arg move source dest op tail).info = tail.toNat := by
  have h : (arg ++ move ++ source ++ dest ++ op ++ tail).extractLsb' 0 8 = tail := by
    rw [BitVec.extractLsb'_append_eq_of_add_le (by decide)]
    simp
  simp [info, pack, h]

end

/-! ## Text -/

/-- The word in sixteen hexadecimal digits. -/
def hex (d : Descriptor) : String :=
  let digits := Nat.toDigits 16 d.bits.toNat
  String.ofList (List.replicate (16 - digits.length) '0' ++ digits)

def text (d : Descriptor) : String :=
  "ConvWord(0x" ++ d.hex ++ ")"

end Descriptor

namespace Step

/-- The descriptor word of a step on a host with the given stack unit. Fields that are too wide
    keep their low bits. -/
def descriptor (s : Step) (unit : Int32) : Descriptor :=
  .pack
    (match s.argPos? with
      | some pos => BitVec.ofNat 32 pos
      | none => BitVec.allOnes 32)
    ((s.stackMove * unit).toBitVec.setWidth 12)
    (BitVec.ofNat 4 (s.sourceTag?.elim 0 Tag.code))
    (BitVec.ofNat 4 (s.destTag?.elim 0 Tag.code))
    (BitVec.ofNat 4 s.op.code)
    (BitVec.ofNat 8 (s.destSlot?.getD 0))

end Step

end CallBridge
