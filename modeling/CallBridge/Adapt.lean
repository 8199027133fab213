import CallBridge.Elementary.Convert

/-!
# Adapting argument by argument

A handle is called with another signature of the same arity by converting the
arguments one at a time. Steps are stacked from the target outward: the signature
between two steps starts with the target's parameters and moves one position at a
time toward the caller's. The outermost step takes the caller's signature whole
and so absorbs what is left of trivial differences.
-/

namespace CallBridge

namespace Signature

/-- Whether a function of signature `old` can be called as `new`: equal arities, a result that
    passes freely, and every argument convertible by one elementary step. -/
def adaptsTo (old new : Signature) : Bool :=
  new.arity == old.arity && old.ret.passesFreely new.ret &&
    (new.params.zip old.params).all fun (src, dst) => src.converts dst

/-- The last position whose argument does not pass freely. -/
def lastConversion? (new old : Signature) : Option Nat :=
  ((List.range new.arity).filter fun i =>
    match new.param? i, old.param? i with
    | some src, some dst => !src.passesFreely dst
    | _, _ => false).getLast?

end Signature

namespace Host

/-- Converts the argument at `i` from the type that `new` declares to `dst`. -/
def convertAt (h : Host) (new : Signature) (target : Handle) (i : Nat) (src dst : Ty) :
    Except AdaptError Handle :=
  match src.isPrimitive, dst.isPrimitive with
  | true, true => h.primCast new target i dst
  | true, false => .error (.unsupported .boxing)
  | false, true => h.unbox new target i dst
  | false, false => h.cast new target i dst

/-- A handle that is checked to have the signature asked for. -/
def ensure (expected : Signature) (handle : Handle) : Except AdaptError Handle :=
  if handle.signature = expected then .ok handle
  else .error (.inconsistent expected handle.signature)

/-- Converts the argument at `i` if it needs converting, given the signature `mid` of the chain so
    far. The conversion at position `last` takes the signature `new` whole. -/
def adaptStep (h : Host) (new : Signature) (last : Nat) (mid : Signature) (adapter : Handle)
    (i : Nat) : Except AdaptError (Signature × Handle) :=
  match new.param? i, mid.param? i with
  | some src, some dst =>
    if src.passesFreely dst then .ok (mid, adapter)
    else do
      let mid := if i = last then new else mid.withParam i src
      let adapter ← h.convertAt mid adapter i src dst
      return (mid, ← ensure mid adapter)
  | _, _ => .ok (mid, adapter)

/-- Converts the arguments at the given positions in turn. -/
def adaptSteps (h : Host) (new : Signature) (last : Nat) :
    (positions : List Nat) → (mid : Signature) → (adapter : Handle) → Except AdaptError Handle
  | [], _, adapter => .ok adapter
  | i :: rest, mid, adapter => do
    let (mid, adapter) ← h.adaptStep new last mid adapter i
    h.adaptSteps new last rest mid adapter

/-- Retypes a handle unless it has the signature already, and checks the outcome. -/
def finish (h : Host) (new : Signature) (adapter : Handle) : Except AdaptError Handle := do
  let adapter ←
    if adapter.signature = new then .ok adapter else h.retype new adapter .checked
  ensure new adapter

/-- Calls `target` with signature `new`, one step for each argument that needs real work. -/
def adapt (h : Host) (new : Signature) (target : Handle) : Except AdaptError Handle :=
  let old := target.signature
  if old = new then .ok target
  else if !old.adaptsTo new then .error (.notConvertible old new)
  else do
    let adapter ←
      match new.lastConversion? old with
      | some last => h.adaptSteps new last (List.range (last + 1)) (old.withRet new.ret) target
      | none => .ok target
    h.finish new adapter

end Host

end CallBridge
