import CallBridge.Elementary.Convert
import CallBridge.Shuffle.Basic

/-!
# Reshaping argument lists

Elementary adapters that change the number or the order of arguments: dropping,
duplicating, swapping, rotating and spreading. Spreading may put a cast in front
of its own step.
-/

namespace CallBridge

namespace Signature

/-- The slots of the `count` parameters from `pos` on. -/
def slotsAt (s : Signature) (pos count : Nat) : Nat :=
  s.slotDepth pos - s.slotDepth (pos + count)

end Signature

namespace Host

-- ---------------------------------------------------------------------------
-- Dropping
-- ---------------------------------------------------------------------------

/-- The caller passes `count` arguments at `pos` that the target does not take. Dropping none is
    a retype. -/
def canDrop (h : Host) (new target : Signature) (pos count : Nat) : Bool :=
  if count = 0 then h.canRetype new target .checked
  else
    h.supports .dropArgs && new.returnsMatch target .checked &&
      decide (pos + count ≤ new.arity) && decide (target.arity = new.arity - count) &&
      new.paramsMatch 0 target 0 pos &&
      new.paramsMatch (pos + count) target pos (new.arity - (pos + count))

def drop (h : Host) (new : Signature) (target : Handle) (pos count : Nat) :
    Except AdaptError Handle :=
  if count = 0 then h.retype new target .checked
  else if h.canDrop new target.signature pos count then
    .ok (.adapter new (.drop pos count (new.slotsAt pos count)) target)
  else refuse new target

-- ---------------------------------------------------------------------------
-- Duplicating
-- ---------------------------------------------------------------------------

/-- The target takes the caller's arguments followed by copies of `count` of them from `pos` on. -/
def canDup (h : Host) (new target : Signature) (pos count : Nat) : Bool :=
  h.supports .dupArgs && new.returnsMatch target .checked &&
    decide (pos + count ≤ new.arity) && decide (target.arity = new.arity + count) &&
    new.paramsMatch 0 target 0 new.arity && new.paramsMatch pos target new.arity count

def dup (h : Host) (new : Signature) (target : Handle) (pos count : Nat) :
    Except AdaptError Handle :=
  if h.canDup new target.signature pos count then
    if count = 0 then h.retype new target .checked
    else .ok (.adapter new (.dup pos count (new.slotsAt pos count)) target)
  else refuse new target

-- ---------------------------------------------------------------------------
-- Swapping
-- ---------------------------------------------------------------------------

/-- The target takes the caller's arguments with those at `first < second` exchanged. Both must
    occupy the same number of slots. -/
def canSwap (h : Host) (new target : Signature) (first second : Nat) : Bool :=
  h.supports .swapArgs && decide (first < second) && decide (second < new.arity) &&
    decide (target.arity = new.arity) && new.returnsMatch target .checked &&
    (new.param? first).map Ty.slotSize == (new.param? second).map Ty.slotSize &&
    new.paramsMatch 0 target 0 first &&
    new.paramsMatch first target second 1 &&
    new.paramsMatch (first + 1) target (first + 1) (second - first - 1) &&
    new.paramsMatch second target first 1 &&
    new.paramsMatch (second + 1) target (second + 1) (new.arity - second - 1)

/-- Exchanges two arguments, given in either order. Exchanging an argument with itself is a
    retype. -/
def swap (h : Host) (new : Signature) (target : Handle) (first second : Nat) :
    Except AdaptError Handle :=
  if first = second then h.retype new target .checked
  else
    let i := min first second
    let j := max first second
    if h.canSwap new target.signature i j then
      match new.param? i with
      | some t => .ok (.adapter new (.swap i j (.ofTy t) (new.slotDepth (j + 1))) target)
      | none => refuse new target
    else refuse new target

-- ---------------------------------------------------------------------------
-- Rotating
-- ---------------------------------------------------------------------------

/-- Rotations move at most this many arguments across the rest of the run. -/
def maxRotation : Nat := 1

/-- The rotation to the right, below `count`, that equals rotating by `amount`; negative amounts
    rotate to the left. -/
def rotationAmount (count : Nat) (amount : Int) : Nat :=
  if count = 0 then 0 else (amount % (count : Int)).toNat

/-- Whether a rotation to the right moves too many arguments in either direction. -/
def isWideRotation (count amount : Nat) : Bool :=
  decide (maxRotation < amount) && decide (amount < count - maxRotation)

/-- The target takes the caller's arguments with the run of `count` from `first` on rotated right
    by `amount`. Runs of two are swaps. -/
def canRotate (h : Host) (new target : Signature) (first count : Nat) (amount : Int) : Bool :=
  let right := rotationAmount count amount
  h.supports .rotateArgs && decide (2 < count) && decide (first + count ≤ new.arity) &&
    decide (right ≠ 0) && !isWideRotation count right &&
    decide (target.arity = new.arity) && new.returnsMatch target .checked &&
    new.paramsMatch 0 target 0 first &&
    new.paramsMatch first target (first + right) (count - right) &&
    new.paramsMatch (first + (count - right)) target first right &&
    new.paramsMatch (first + count) target (first + count) (new.arity - (first + count))

/-- Rotates a run of arguments. One argument crosses the run: the last one moves to the front, or
    the first one to the back. -/
def rotate (h : Host) (new : Signature) (target : Handle) (first count : Nat) (amount : Int) :
    Except AdaptError Handle :=
  let right := rotationAmount count amount
  if 2 < count ∧ isWideRotation count right then .error (.unsupported .wideRotation)
  else if h.canRotate new target.signature first count amount then
    let last := first + count - 1
    let (moved, dest) := if right = 1 then (last, first) else (first, last)
    match new.param? moved with
    | some t =>
      .ok (.adapter new
        (.rotate first count right moved (.ofTy t) (new.slotDepth (dest + 1))) target)
    | none => refuse new target
  else refuse new target

-- ---------------------------------------------------------------------------
-- Spreading
-- ---------------------------------------------------------------------------

/-- The array argument at `pos` feeds `count` parameters of the target. -/
def canSpread (h : Host) (new target : Signature) (array : Ty) (pos count : Nat) : Bool :=
  match new.param? pos, array.elem? with
  | some incoming, some elem =>
    h.supports .spreadArgs && decide (target.arity = new.arity - 1 + count) &&
      new.returnsMatch target .checked &&
      (incoming == array || incoming.casts array) &&
      new.paramsMatch 0 target 0 pos &&
      new.paramsMatch (pos + 1) target (pos + count) (new.arity - pos - 1) &&
      ((target.params.drop pos).take count).all fun t => elem.passesFreely t
  | _, _ => false

/-- Replaces an array argument by its items. Where the caller's type does not pass freely for the
    array type, a cast to that type goes first. -/
def spread (h : Host) (new : Signature) (target : Handle) (array : Ty) (pos count : Nat) :
    Except AdaptError Handle :=
  if h.canSpread new target.signature array pos count then
    match new.param? pos with
    | some incoming =>
      let step := Step.spread pos count array (target.signature.slotsAt pos count)
      if incoming.passesFreely array then .ok (.adapter new step target)
      else h.cast new (.adapter (new.withParam pos array) step target) pos array
    | none => refuse new target
  else refuse new target

-- ---------------------------------------------------------------------------
-- Shuffles
-- ---------------------------------------------------------------------------

/-- The operation that runs a shuffle. -/
def shuffleOp : Shuffle → Op
  | .drop .. => .dropArgs
  | .dup .. => .dupArgs
  | .swap .. => .swapArgs
  | .rotate .. => .rotateArgs

/-- Puts a shuffle in front of a handle. -/
def shuffle (h : Host) (new : Signature) (target : Handle) : Shuffle → Except AdaptError Handle
  | .drop pos count => h.drop new target pos count
  | .dup pos count => h.dup new target pos count
  | .swap first second => h.swap new target first second
  | .rotate first count amount => h.rotate new target first count amount

end Host

end CallBridge
