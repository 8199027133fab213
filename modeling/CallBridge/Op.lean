/-!
# Operations

The kinds of step a host machine may know how to run, and sets of them.
-/

namespace CallBridge

/-- An operation of the host machine. -/
inductive Op where
  | retypeOnly
  | retypeRaw
  | checkCast
  | primToPrim
  | refToPrim
  | primToRef
  | swapArgs
  | rotateArgs
  | dupArgs
  | dropArgs
  | collectArgs
  | spreadArgs
  | flyby
  | ricochet
  deriving DecidableEq, Repr

namespace Op

/-- Every operation; the place of an operation in the list is its code. -/
def all : List Op :=
  [retypeOnly, retypeRaw, checkCast, primToPrim, refToPrim, primToRef, swapArgs, rotateArgs,
    dupArgs, dropArgs, collectArgs, spreadArgs, flyby, ricochet]

def code : Op → Nat
  | retypeOnly => 0
  | retypeRaw => 1
  | checkCast => 2
  | primToPrim => 3
  | refToPrim => 4
  | primToRef => 5
  | swapArgs => 6
  | rotateArgs => 7
  | dupArgs => 8
  | dropArgs => 9
  | collectArgs => 10
  | spreadArgs => 11
  | flyby => 12
  | ricochet => 13

def ofCode? (code : Nat) : Option Op :=
  all[code]?

theorem ofCode?_code (op : Op) : ofCode? op.code = some op := by
  cases op <;> rfl

def mnemonic : Op → String
  | retypeOnly => "retype_only"
  | retypeRaw => "retype_raw"
  | checkCast => "check_cast"
  | primToPrim => "prim_to_prim"
  | refToPrim => "ref_to_prim"
  | primToRef => "prim_to_ref"
  | swapArgs => "swap_args"
  | rotateArgs => "rotate_args"
  | dupArgs => "dup_args"
  | dropArgs => "drop_args"
  | collectArgs => "collect_args"
  | spreadArgs => "spread_args"
  | flyby => "flyby"
  | ricochet => "ricochet"

/-- The bit that stands for an operation in a set. -/
def bit (op : Op) : UInt16 :=
  1 <<< UInt16.ofNat op.code

end Op

-- ---------------------------------------------------------------------------
-- Sets of operations
-- ---------------------------------------------------------------------------

/-- A set of operations, one bit each. Bits without an operation are kept and mean nothing. -/
structure OpSet where
  bits : UInt16
  deriving DecidableEq

namespace OpSet

def contains (s : OpSet) (op : Op) : Bool :=
  s.bits.toNat.testBit op.code

def ofList (ops : List Op) : OpSet :=
  ⟨ops.foldl (fun bits op => bits ||| op.bit) 0⟩

/-- Every operation there is. -/
def all : OpSet :=
  ofList Op.all

theorem contains_all (op : Op) : all.contains op = true := by
  cases op <;> rfl

/-- The operations that steps can be built for. -/
def elementary : OpSet :=
  ofList [.retypeOnly, .retypeRaw, .checkCast, .primToPrim, .refToPrim, .swapArgs, .rotateArgs,
    .dupArgs, .dropArgs, .spreadArgs]

end OpSet

-- ---------------------------------------------------------------------------
-- Hosts
-- ---------------------------------------------------------------------------

/-- The machine that call chains are built for. -/
structure Host where
  /-- The operations the machine can run. -/
  ops : OpSet := .elementary
  /-- How a stack address changes with each pushed slot; negative if the stack grows down. -/
  moveUnit : Int32 := -1
  /-- Whether trusted callers may ask for raw retypes. -/
  rawRetype : Bool := true

namespace Host

def supports (h : Host) (op : Op) : Bool :=
  h.ops.contains op

end Host

end CallBridge
