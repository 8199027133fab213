import CallBridge.Ty.Passing

/-!
# Signatures

A signature is a calling convention: ordered parameter types and a return type.
Arguments are pushed left to right, each taking the slots of its type, so the
depth of a parameter is the number of slots from it to the top of the stack.
-/

namespace CallBridge

/-- Parameter types and return type of a call. -/
structure Signature where
  params : List Ty
  ret : Ty
  deriving DecidableEq

namespace Signature

def arity (s : Signature) : Nat :=
  s.params.length

/-- The type of the parameter at `i`, if there is one. -/
def param? (s : Signature) (i : Nat) : Option Ty :=
  s.params[i]?

def lastParam? (s : Signature) : Option Ty :=
  s.params.getLast?

/-! ## Changing one part -/

def withParams (s : Signature) (params : List Ty) : Signature :=
  { s with params }

def withRet (s : Signature) (ret : Ty) : Signature :=
  { s with ret }

/-- Replaces the type of the parameter at `i`; a position past the end changes nothing. -/
def withParam (s : Signature) (i : Nat) (t : Ty) : Signature :=
  { s with params := s.params.set i t }

/-- Replaces the type of an existing parameter. -/
def withParam? (s : Signature) (i : Nat) (t : Ty) : Option Signature :=
  if i < s.arity then some (s.withParam i t) else none

@[simp] theorem params_withParams (s : Signature) (ps : List Ty) : (s.withParams ps).params = ps := rfl
@[simp] theorem ret_withParams (s : Signature) (ps : List Ty) : (s.withParams ps).ret = s.ret := rfl
@[simp] theorem params_withRet (s : Signature) (t : Ty) : (s.withRet t).params = s.params := rfl
@[simp] theorem ret_withRet (s : Signature) (t : Ty) : (s.withRet t).ret = t := rfl
@[simp] theorem params_withParam (s : Signature) (i : Nat) (t : Ty) :
    (s.withParam i t).params = s.params.set i t := rfl
@[simp] theorem ret_withParam (s : Signature) (i : Nat) (t : Ty) : (s.withParam i t).ret = s.ret := rfl

@[simp] theorem arity_withParam (s : Signature) (i : Nat) (t : Ty) :
    (s.withParam i t).arity = s.arity := by
  simp [arity]

/-! ## Slots -/

/-- The slots taken by a list of types. -/
def slots : List Ty → Nat
  | [] => 0
  | t :: ts => t.slotSize + slots ts

@[simp] theorem slots_nil : slots [] = 0 := rfl

@[simp] theorem slots_cons (t : Ty) (ts : List Ty) : slots (t :: ts) = t.slotSize + slots ts := rfl

@[simp] theorem slots_append (ts us : List Ty) : slots (ts ++ us) = slots ts + slots us := by
  induction ts with
  | nil => simp
  | cons t ts ih => simp [ih, Nat.add_assoc]

/-- The slots taken by the parameters from `pos` on. -/
def slotDepth (s : Signature) (pos : Nat) : Nat :=
  slots (s.params.drop pos)

/-- The slots from `pos` on, for a position that is at most the arity. -/
def slotDepth? (s : Signature) (pos : Nat) : Option Nat :=
  if pos ≤ s.arity then some (s.slotDepth pos) else none

def slotCount (s : Signature) : Nat :=
  s.slotDepth 0

/-- The parameters before `pos` take what the depth at `pos` leaves of all slots. -/
theorem slots_take_add_slotDepth (s : Signature) (pos : Nat) :
    slots (s.params.take pos) + s.slotDepth pos = s.slotCount := by
  rw [slotDepth, ← slots_append, List.take_append_drop]
  rfl

/-- The slot sizes of the parameters. -/
def widths (s : Signature) : List Nat :=
  s.params.map Ty.slotSize

/-! ## Text -/

def text (s : Signature) : String :=
  "(" ++ ",".intercalate (s.params.map Ty.text) ++ ")" ++ s.ret.text

/-! ## Passing whole calls -/

/-- Whether a call shaped like `caller` may be handed to a function of signature `callee` with no
    action on any argument or on the result. -/
def passesFreely (caller callee : Signature) : Bool :=
  caller.arity == callee.arity && callee.ret.passesFreely caller.ret &&
    (caller.params.zip callee.params).all fun (src, dst) => src.passesFreely dst

end Signature

end CallBridge
