import CallBridge.Elementary.Error
import CallBridge.Handle.Basic
import CallBridge.Signature.Difference

/-!
# Retypes and single conversions

Elementary adapters that keep every argument in its place. Each comes as a
predicate on two signatures and a constructor that puts one step in front of a
handle; unboxing may put a cast in front of its own step.
-/

namespace CallBridge

namespace Host

/-- The refusal to call `target` with signature `new`. -/
def refuse (new : Signature) (target : Handle) : Except AdaptError Handle :=
  .error (.notConvertible target.signature new)

-- ---------------------------------------------------------------------------
-- Retypes
-- ---------------------------------------------------------------------------

/-- Whether the host runs retypes of the given mode. -/
def retypes (h : Host) : Mode → Bool
  | .checked => h.supports .retypeOnly
  | .raw => h.rawRetype && h.supports .retypeRaw

def canRetype (h : Host) (new target : Signature) (mode : Mode) : Bool :=
  h.retypes mode && new.difference target mode == .zero

/-- Calls `target` with a signature whose values all pass trivially. A handle that has the
    signature already is left alone. -/
def retype (h : Host) (new : Signature) (target : Handle) (mode : Mode) :
    Except AdaptError Handle :=
  if target.signature = new then .ok target
  else if h.canRetype new target.signature mode then .ok (.adapter new (.retype mode) target)
  else refuse new target

-- ---------------------------------------------------------------------------
-- Casts
-- ---------------------------------------------------------------------------

/-- Whether `arg` is the only position at which the signatures differ, its types are `src` and
    `dst` with `p src` true, and a value of type `operand` passes freely as `dst`. -/
def canConvertAt (new target : Signature) (arg : Nat) (operand : Ty) (p : Ty → Bool) : Bool :=
  new.difference target .checked == .single arg &&
    match new.param? arg, target.param? arg with
    | some src, some dst => p src && operand.passesFreely dst
    | _, _ => false

/-- Any two reference types may be cast, even unrelated ones. -/
def canCast (h : Host) (new target : Signature) (arg : Nat) (type : Ty) : Bool :=
  h.supports .checkCast && canConvertAt new target arg type fun src => src.casts type

/-- Checks that the argument at `arg` is an instance of `type`. -/
def cast (h : Host) (new : Signature) (target : Handle) (arg : Nat) (type : Ty) :
    Except AdaptError Handle :=
  if h.canCast new target.signature arg type then .ok (.adapter new (.cast arg type) target)
  else refuse new target

def canPrimCast (h : Host) (new target : Signature) (arg : Nat) (type : Ty) : Bool :=
  h.supports .primToPrim && canConvertAt new target arg type fun src => src.primCasts type

/-- Converts a primitive argument to another kind. -/
def primCast (h : Host) (new : Signature) (target : Handle) (arg : Nat) (type : Ty) :
    Except AdaptError Handle :=
  if h.canPrimCast new target.signature arg type then
    match (new.param? arg).bind Ty.asPrim?, type.asPrim? with
    | some source, some kind => .ok (.adapter new (.primCast arg source kind) target)
    | _, _ => refuse new target
  else refuse new target

-- ---------------------------------------------------------------------------
-- Unboxing
-- ---------------------------------------------------------------------------

/-- The primitive kind that a type names, be it the primitive type or its wrapper class. -/
def kindNamed? (type : Ty) : Option Prim :=
  type.asPrim?.or type.unboxed?

def canUnbox (h : Host) (new target : Signature) (arg : Nat) (type : Ty) : Bool :=
  match kindNamed? type with
  | some kind =>
    h.supports .refToPrim &&
      canConvertAt new target arg (.prim kind) fun src => src.casts (.wrapper kind)
  | none => false

/-- Takes the primitive out of a wrapper instance. Where the caller's type does not pass freely for
    the wrapper class, a cast to that class goes first. -/
def unbox (h : Host) (new : Signature) (target : Handle) (arg : Nat) (type : Ty) :
    Except AdaptError Handle :=
  if h.canUnbox new target.signature arg type then
    match kindNamed? type, new.param? arg with
    | some kind, some src =>
      let wrapper := Ty.wrapper kind
      let step := Step.unbox arg kind wrapper
      if src.passesFreely wrapper then .ok (.adapter new step target)
      else h.cast new (.adapter (new.withParam arg wrapper) step target) arg wrapper
    | _, _ => refuse new target
  else refuse new target

-- ---------------------------------------------------------------------------
-- Boxing
-- ---------------------------------------------------------------------------

/-- Boxing is never available. -/
def canBox (h : Host) (new : Signature) (arg : Nat) (type : Ty) : Bool :=
  h.supports .primToRef &&
    match new.param? arg with
    | some src => src.isBoxedAs type
    | none => false

end Host

end CallBridge
