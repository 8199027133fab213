import CallBridge.Signature.Basic

/-!
# Refusals

Why a chain could not be built.
-/

namespace CallBridge

/-- Requests that are understood and can never be met. -/
inductive Unsupported where
  /-- Making an object of a primitive in the middle of a call. -/
  | boxing
  | collect
  | flyby
  | ricochet
  /-- A rotation that moves more than one argument across the rest of its run. -/
  | wideRotation
  deriving DecidableEq, Repr

namespace Unsupported

def message : Unsupported → String
  | boxing => "boxing a primitive argument"
  | collect => "collecting arguments"
  | flyby => "flyby adapters"
  | ricochet => "ricochet adapters"
  | wideRotation => "rotating more than one argument at once"

end Unsupported

/-- Why a chain could not be built. -/
inductive AdaptError where
  /-- A function of signature `source` cannot be called as `wanted`. -/
  | notConvertible (source wanted : Signature)
  /-- A function of signature `source` does not take an `array` at its end. -/
  | notCollectable (source : Signature) (array : Ty)
  /-- An argument map that does not have one entry per parameter. -/
  | mapLength (map : List Nat) (expected : Nat)
  /-- An argument map with an entry that names no argument of the caller. -/
  | mapEntry (map : List Nat) (entry : Nat)
  | unsupported (what : Unsupported)
  /-- A finished chain does not have the signature asked for. -/
  | inconsistent (expected found : Signature)
  deriving DecidableEq

namespace AdaptError

/-- An argument map in brackets. -/
def mapText (map : List Nat) : String :=
  "[" ++ ", ".intercalate (map.map toString) ++ "]"

def message : AdaptError → String
  | notConvertible source wanted => "cannot convert " ++ source.text ++ " to " ++ wanted.text
  | notCollectable source array => "cannot convert " ++ source.text ++ " to " ++ array.text
  | mapLength map expected =>
    "bad argument map " ++ mapText map ++ ": expected " ++ toString expected ++ " entries"
  | mapEntry map entry =>
    "bad argument map " ++ mapText map ++ ": caller has no argument " ++ toString entry
  | unsupported what => "unsupported: " ++ what.message
  | inconsistent expected found =>
    "internal error: built " ++ found.text ++ ", expected " ++ expected.text

end AdaptError

end CallBridge
