import CallBridge.Rewire

/-!
# Requests

Every way of asking for a handle to be called with another signature, as data: the
predicate that says whether it can be met and the construction that meets it.
-/

namespace CallBridge

/-- A way of calling a handle with another signature. -/
inductive Request where
  | retype (mode : Mode)
  /-- Argument by argument. -/
  | adapt
  /-- Through an argument map. -/
  | rewire (map : List Nat)
  | cast (arg : Nat) (type : Ty)
  | primCast (arg : Nat) (type : Ty)
  | unbox (arg : Nat) (type : Ty)
  | box (arg : Nat) (type : Ty)
  | drop (pos count : Nat)
  | dup (pos count : Nat)
  | swap (first second : Nat)
  | rotate (first count : Nat) (amount : Int)
  | spread (array : Ty) (pos count : Nat)
  | collect
  | flyby
  | ricochet

namespace Host

/-- Whether a handle of signature `target` can be called as `new` in the way requested. -/
def allows (h : Host) (new target : Signature) : Request → Bool
  | .retype mode => h.canRetype new target mode
  | .adapt => target.adaptsTo new
  | .rewire map => h.canRewire new target map
  | .cast arg type => h.canCast new target arg type
  | .primCast arg type => h.canPrimCast new target arg type
  | .unbox arg type => h.canUnbox new target arg type
  | .box arg type => h.canBox new arg type
  | .drop pos count => h.canDrop new target pos count
  | .dup pos count => h.canDup new target pos count
  | .swap first second => h.canSwap new target first second
  | .rotate first count amount => h.canRotate new target first count amount
  | .spread array pos count => h.canSpread new target array pos count
  | .collect | .flyby | .ricochet => false

/-- The handle that calls `target` as `new` in the way requested. -/
def build (h : Host) (new : Signature) (target : Handle) : Request → Except AdaptError Handle
  | .retype mode => h.retype new target mode
  | .adapt => h.adapt new target
  | .rewire map => h.rewire new target map
  | .cast arg type => h.cast new target arg type
  | .primCast arg type => h.primCast new target arg type
  | .unbox arg type => h.unbox new target arg type
  | .box _ _ => .error (.unsupported .boxing)
  | .drop pos count => h.drop new target pos count
  | .dup pos count => h.dup new target pos count
  | .swap first second => h.swap new target first second
  | .rotate first count amount => h.rotate new target first count amount
  | .spread array pos count => h.spread new target array pos count
  | .collect => .error (.unsupported .collect)
  | .flyby => .error (.unsupported .flyby)
  | .ricochet => .error (.unsupported .ricochet)

end Host

end CallBridge
