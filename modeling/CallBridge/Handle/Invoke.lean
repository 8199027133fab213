import CallBridge.Handle.Basic
import CallBridge.Shuffle.Basic

/-!
# Invoking handles

A call walks down the chain. Each step changes the argument list; primitive
arguments are then brought in line with the parameters of the next handle. The
host function at the end receives the final list, and its result travels back
through the return type of every handle passed on the way.
-/

namespace CallBridge

namespace Value

/-- Brings a value in line with a declared type. Primitive data take the kind of a primitive type,
    by reinterpretation in raw mode if the slot sizes agree; no value reads as zero. -/
def coerce (v : Value) (type : Ty) (raw : Bool) : Value :=
  match v, type with
  | _, .void => void
  | prim d, .prim kind =>
    if d.kind = kind then prim d
    else if raw && d.kind.slotSize == kind.slotSize then prim (d.reinterpret kind)
    else prim (d.convert kind)
  | void, .prim kind => prim ((Datum.int 0).convert kind)
  | v, _ => v

/-- Brings a primitive argument in line with the parameter type; other values stay. -/
def conform (v : Value) (type : Ty) (raw : Bool) : Value :=
  match v with
  | prim _ => v.coerce type raw
  | _ => v

/-- Brings the arguments in line with parameter types, position by position. -/
def conformAll : (args : List Value) → (types : List Ty) → (raw : Bool) → List Value
  | v :: vs, t :: ts, raw => v.conform t raw :: conformAll vs ts raw
  | vs, _, _ => vs

@[simp] theorem length_conformAll (args : List Value) (types : List Ty) (raw : Bool) :
    (conformAll args types raw).length = args.length := by
  induction args generalizing types with
  | nil => cases types <;> rfl
  | cons v vs ih =>
    cases types with
    | nil => rfl
    | cons t ts => simp [conformAll, ih]

/-- Succeeds on the instances of `type`. -/
def checkCast (v : Value) (type : Ty) : Except InvokeError Unit :=
  if v.isInstanceOf type then .ok () else .error (.classCast v type)

/-! ## Converting one argument -/

/-- The datum converted to kind `target`; only primitive values are accepted. -/
def primCast (v : Value) (target : Prim) : Except InvokeError Value :=
  match v with
  | prim d => .ok (prim (d.convert target))
  | _ => .error (.classCast v (.prim target))

/-- What an instance of `wrapper` boxes, converted to kind `target`. -/
def unbox (v : Value) (target : Prim) (wrapper : Ty) : Except InvokeError Value :=
  match v with
  | null => .error (.nullPointer wrapper)
  | boxed d =>
    if wrapper.unboxed? = some d.kind then .ok (prim (d.convert target))
    else .error (.classCast v wrapper)
  | _ => .error (.classCast v wrapper)

/-- The items of an array that is an instance of `type` and has `count` items. -/
def spreadItems (v : Value) (type : Ty) (count : Nat) : Except InvokeError (List Value) :=
  match v with
  | null => .error (.nullPointer type)
  | array _ items => do
    v.checkCast type
    if items.length = count then .ok items
    else .error (.arrayLength count items.length)
  | _ => .error (.notAnArray v)

end Value

namespace Step

/-- The argument at `i`. -/
def argAt (args : List Value) (i : Nat) : Except InvokeError Value :=
  match args[i]? with
  | some v => .ok v
  | none => .error .outOfRange

/-- The argument list after a reordering. -/
def reorder (s : Shuffle) (args : List Value) : Except InvokeError (List Value) :=
  match s.act? args with
  | some args => .ok args
  | none => .error .outOfRange

/-- The argument list that a step hands on. -/
def run (s : Step) (args : List Value) : Except InvokeError (List Value) :=
  match s with
  | retype _ => .ok args
  | cast arg type => do
    let v ← argAt args arg
    v.checkCast type
    return args
  | primCast arg _ target => do
    let v ← argAt args arg
    return args.set arg (← v.primCast target)
  | unbox arg target wrapper => do
    let v ← argAt args arg
    return args.set arg (← v.unbox target wrapper)
  | spread pos count array _ => do
    let v ← argAt args pos
    let items ← v.spreadItems array count
    return args.take pos ++ items ++ args.drop (pos + 1)
  | drop pos count _ => reorder (.drop pos count) args
  | dup pos count _ => reorder (.dup pos count) args
  | swap first second _ _ => reorder (.swap first second) args
  | rotate first count amount _ _ _ => reorder (.rotate first count amount) args

end Step

namespace Handle

/-- What is left to do with the result of a forwarded call. -/
structure Return where
  type : Ty
  raw : Bool

/-- The argument list with everything from `pos` on gathered into one array. -/
def gather (pos : Nat) (array : Ty) (args : List Value) : Except InvokeError (List Value) :=
  if pos ≤ args.length then .ok (args.take pos ++ [.array array (args.drop pos)])
  else .error .outOfRange

/-- Runs a handle on arguments of the right number. The result is brought in line with the return
    types in `pending`, the innermost first. -/
def run : (h : Handle) → (args : List Value) → (pending : List Return) → Except InvokeError Value
  | direct _ _ body, args, pending => do
    let result ← body args
    return pending.foldl (fun v r => v.coerce r.type r.raw) result
  | adapter s step target, args, pending => do
    let args ← step.run args
    target.run (Value.conformAll args target.signature.params step.isRaw)
      (⟨s.ret, step.isRaw⟩ :: pending)
  | collect s pos _ array target, args, pending => do
    let args ← gather pos array args
    target.run (Value.conformAll args target.signature.params false) (⟨s.ret, false⟩ :: pending)

/-- Calls a handle. -/
def invoke (h : Handle) (args : List Value) : Except InvokeError Value :=
  if args.length = h.signature.arity then h.run args []
  else .error (.wrongArity h.signature.arity args.length)

end Handle

-- ---------------------------------------------------------------------------
-- Stock host functions
-- ---------------------------------------------------------------------------

namespace HostFunction

/-- Returns the arguments as an array of the root class. -/
def echo : HostFunction := fun args =>
  .ok (.array (.array .object) args)

/-- Returns the argument at `i`, or null if there is none. -/
def nth (i : Nat) : HostFunction := fun args =>
  .ok (args[i]?.getD .null)

def const (v : Value) : HostFunction := fun _ =>
  .ok v

/-- Always fails. -/
def fail (message : String) : HostFunction := fun _ =>
  .error (.host message)

end HostFunction

end CallBridge
