import CallBridge.Op
import CallBridge.Tag
import CallBridge.Ty.Passing

/-!
# Steps

One elementary step between a caller and the next function of a chain. Positions
are those of the caller's argument list. Besides its operands a step records what
a machine needs to run it: slot counts, the tag of a moved argument and the slot
depth of its destination.
-/

namespace CallBridge

/-- An elementary step. -/
inductive Step where
  /-- Every argument passes as it is, in checked or raw mode. -/
  | retype (mode : Mode)
  /-- The argument at `arg` is checked to be an instance of `type`. -/
  | cast (arg : Nat) (type : Ty)
  | primCast (arg : Nat) (source target : Prim)
  /-- The argument at `arg` is an instance of `wrapper` and is replaced by what it boxes. -/
  | unbox (arg : Nat) (target : Prim) (wrapper : Ty)
  | drop (pos count slots : Nat)
  /-- Copies of `count` arguments from `pos` on are appended. -/
  | dup (pos count slots : Nat)
  | swap (first second : Nat) (tag : Tag) (destSlot : Nat)
  /-- The run of `count` arguments from `first` on is rotated right by `amount`, which moves the
      single argument at `moved` across the others. -/
  | rotate (first count amount moved : Nat) (tag : Tag) (destSlot : Nat)
  /-- The array at `pos` is replaced by its `count` items. -/
  | spread (pos count : Nat) (array : Ty) (slots : Nat)
  deriving DecidableEq

namespace Step

def op : Step → Op
  | retype .checked => .retypeOnly
  | retype .raw => .retypeRaw
  | cast .. => .checkCast
  | primCast .. => .primToPrim
  | unbox .. => .refToPrim
  | drop .. => .dropArgs
  | dup .. => .dupArgs
  | swap .. => .swapArgs
  | rotate .. => .rotateArgs
  | spread .. => .spreadArgs

/-- Whether the bits of primitives are reinterpreted rather than converted. -/
def isRaw : Step → Bool
  | retype .raw => true
  | _ => false

/-- The argument position that identifies the step. Drops and duplications give the last affected
    position, rotations the argument that moves. -/
def argPos? : Step → Option Nat
  | retype _ => none
  | cast arg _ => some arg
  | primCast arg _ _ => some arg
  | unbox arg _ _ => some arg
  | drop pos count _ => some (pos + count - 1)
  | dup pos count _ => some (pos + count - 1)
  | swap first _ _ _ => some first
  | rotate _ _ _ moved _ _ => some moved
  | spread pos _ _ _ => some pos

/-- The number of argument positions the step touches. -/
def argCount : Step → Nat
  | retype _ => 0
  | cast .. | primCast .. | unbox .. | spread .. => 1
  | swap .. => 2
  | drop _ count _ => count
  | dup _ count _ => count
  | rotate _ count _ _ _ _ => count

/-- The net number of argument slots pushed, negative if slots are popped, in machine words. -/
def stackMove : Step → Int32
  | retype _ | cast .. | swap .. | rotate .. => 0
  | primCast _ source target => Int32.ofNat target.slotSize - Int32.ofNat source.slotSize
  | unbox _ target _ => Int32.ofNat target.slotSize - 1
  | drop _ _ slots => -Int32.ofNat slots
  | dup _ _ slots => Int32.ofNat slots
  | spread _ _ _ slots => Int32.ofNat slots - 1

/-- The tag of the value the step takes. -/
def sourceTag? : Step → Option Tag
  | cast .. | unbox .. | spread .. => some .object
  | primCast _ source _ => some (.ofPrim source)
  | swap _ _ tag _ => some tag
  | rotate _ _ _ _ tag _ => some tag
  | retype _ | drop .. | dup .. => none

/-- The tag of the value the step leaves. -/
def destTag? : Step → Option Tag
  | cast .. | spread .. => some .object
  | primCast _ _ target => some (.ofPrim target)
  | unbox _ target _ => some (.ofPrim target)
  | swap _ _ tag _ => some tag
  | rotate _ _ _ _ tag _ => some tag
  | retype _ | drop .. | dup .. => none

/-- The slot depth to which an argument is moved. -/
def destSlot? : Step → Option Nat
  | swap _ _ _ slot => some slot
  | rotate _ _ _ _ _ slot => some slot
  | _ => none

/-- The type that stands beside the descriptor word: cast class, wrapper or array type. -/
def witness? : Step → Option Ty
  | cast _ type => some type
  | unbox _ _ wrapper => some wrapper
  | spread _ _ array _ => some array
  | _ => none

/-- The operands a step is written with. -/
def operands : Step → List String
  | retype _ => []
  | cast arg type => [toString arg, type.text]
  | primCast arg source target => [toString arg, source.name ++ " -> " ++ target.name]
  | unbox arg target wrapper => [toString arg, wrapper.text ++ " -> " ++ target.name]
  | drop pos count _ => [toString pos, toString count]
  | dup pos count _ => [toString pos, toString count]
  | swap first second _ _ => [toString first, toString second]
  | rotate first count amount _ _ _ => [toString first, toString count, toString amount]
  | spread pos count array _ => [toString pos, array.text, toString count]

def text (s : Step) : String :=
  match s.operands with
  | [] => s.op.mnemonic
  | ops => s.op.mnemonic ++ "(" ++ ", ".intercalate ops ++ ")"

end Step

end CallBridge
