import CallBridge.Signature.Basic
import CallBridge.Step.Descriptor
import CallBridge.Value.Basic

/-!
# Handles

A handle is a callable with a fixed signature: a host function, or a step in front
of another handle. The handles behind one another form a chain that ends in a host
function.
-/

namespace CallBridge

/-- Why a call failed. -/
inductive InvokeError where
  | classCast (value : Value) (expected : Ty)
  | nullPointer (expected : Ty)
  | wrongArity (expected actual : Nat)
  | arrayLength (expected actual : Nat)
  | notAnArray (value : Value)
  /-- Raised by a host function. -/
  | host (message : String)
  /-- A step addresses an argument that is not there. -/
  | outOfRange

namespace InvokeError

def message : InvokeError → String
  | classCast value expected => value.text ++ " cannot be cast to " ++ expected.text
  | nullPointer expected => "null passed where " ++ expected.text ++ " is required"
  | wrongArity expected actual =>
    "expected " ++ toString expected ++ " arguments, got " ++ toString actual
  | arrayLength expected actual =>
    "array of length " ++ toString actual ++ " spread into " ++ toString expected ++ " arguments"
  | notAnArray value => value.text ++ " is not an array"
  | host message => message
  | outOfRange => "argument out of range"

end InvokeError

/-- A function of the host: arguments to result. -/
abbrev HostFunction := List Value → Except InvokeError Value

/-- A callable. -/
inductive Handle where
  | direct (name : String) (signature : Signature) (body : HostFunction)
  | adapter (signature : Signature) (step : Step) (target : Handle)
  /-- Gathers the `count` arguments from `pos` on into one array. -/
  | collect (signature : Signature) (pos count : Nat) (array : Ty) (target : Handle)

namespace Handle

def signature : Handle → Signature
  | direct _ s _ => s
  | adapter s _ _ => s
  | collect s _ _ _ _ => s

@[simp] theorem signature_direct (n : String) (s : Signature) (b : HostFunction) :
    (direct n s b).signature = s := rfl

@[simp] theorem signature_adapter (s : Signature) (step : Step) (t : Handle) :
    (adapter s step t).signature = s := rfl

@[simp] theorem signature_collect (s : Signature) (pos count : Nat) (array : Ty) (t : Handle) :
    (collect s pos count array t).signature = s := rfl

/-- The handle this one forwards to. -/
def target? : Handle → Option Handle
  | direct .. => none
  | adapter _ _ t => some t
  | collect _ _ _ _ t => some t

def isAdapter : Handle → Bool
  | direct .. => false
  | _ => true

/-- This handle followed by every handle it forwards to. -/
def chain : Handle → List Handle
  | h@(direct ..) => [h]
  | h@(adapter _ _ t) => h :: t.chain
  | h@(collect _ _ _ _ t) => h :: t.chain

/-- The name of the host function at the end of the chain. -/
def name : Handle → String
  | direct n _ _ => n
  | adapter _ _ t => t.name
  | collect _ _ _ _ t => t.name

/-- The net number of slots pushed before the call is forwarded, in machine words. -/
def stackMove : Handle → Int32
  | direct .. => 0
  | adapter _ step _ => step.stackMove
  | collect s pos _ _ _ => 1 - Int32.ofNat (s.slotDepth pos)

/-- Lets `target` take `count` separate elements in place of its last parameter, an array. -/
def collecting? (target : Handle) (array : Ty) (count : Nat) : Option Handle :=
  let own := target.signature
  match own.lastParam?, array.elem? with
  | some _, some elem =>
    some (collect (own.withParams (own.params.dropLast ++ List.replicate count elem))
      (own.arity - 1) count array target)
  | _, _ => none

/-! ## Text -/

def text : Handle → String
  | direct n s _ => n ++ s.text
  | adapter s step _ => s.text ++ " via " ++ step.text
  | collect s pos count array _ =>
    s.text ++ " via collect_args(" ++ toString pos ++ ", " ++ array.text ++ ", " ++
      toString count ++ ")"

/-- The quoted texts of the whole chain. -/
def chainText (h : Handle) : String :=
  "[" ++ ", ".intercalate (h.chain.map fun node => Text.quote node.text) ++ "]"

end Handle

end CallBridge
