import CallBridge.Adapt
import CallBridge.Elementary.Reshape
import CallBridge.Shuffle.Plan

/-!
# Rewiring arguments

A handle is called through an argument map: parameter `i` of the target receives
the caller's argument `map[i]`. Arguments may be used once, several times or not
at all, and every one must pass freely to where it goes. The identity map is
pairwise adaptation; any other map is planned as shuffles.
-/

namespace CallBridge

namespace Signature

/-- Whether the map sends every argument to its own position. -/
def isIdentityMap (new target : Signature) (map : List Nat) : Bool :=
  new.arity == target.arity && map == List.range map.length

/-- Whether every mapped argument and the result pass freely. -/
def passesFreelyBy (new target : Signature) (map : List Nat) : Bool :=
  target.ret.passesFreely new.ret &&
    (map.zip target.params).all fun (j, dst) =>
      match new.param? j with
      | some src => src.passesFreely dst
      | none => false

/-- Checks a map against both signatures: its length, its entries, then the types. -/
def checkMap (new target : Signature) (map : List Nat) : Except AdaptError Unit :=
  if map.length ≠ target.arity then .error (.mapLength map target.arity)
  else
    match map.find? fun j => decide (new.arity ≤ j) with
    | some j => .error (.mapEntry map j)
    | none =>
      if new.isIdentityMap target map || new.passesFreelyBy target map then .ok ()
      else .error (.notConvertible target new)

end Signature

namespace Host

def canRewire (h : Host) (new target : Signature) (map : List Nat) : Bool :=
  match new.checkMap target map with
  | .error _ => false
  | .ok () =>
    if new.isIdentityMap target map then target.adaptsTo new
    else (Shuffle.plan new.widths map).all fun s => h.supports (shuffleOp s)

/-- Puts a sequence of shuffles in front of a handle, the last one innermost. -/
def shuffles (h : Host) : (new : Signature) → List Shuffle → Handle → Except AdaptError Handle
  | _, [], target => .ok target
  | new, s :: rest, target => do
    let inner ← h.shuffles (new.withParams (s.act new.params)) rest target
    h.shuffle new inner s

/-- Calls `target` with signature `new` through an argument map. -/
def rewire (h : Host) (new : Signature) (target : Handle) (map : List Nat) :
    Except AdaptError Handle := do
  new.checkMap target.signature map
  if new.isIdentityMap target.signature map then h.adapt new target
  else
    let adapter ← h.shuffles new (Shuffle.plan new.widths map) target
    h.finish new adapter

end Host

end CallBridge
