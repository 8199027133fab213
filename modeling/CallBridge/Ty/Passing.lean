import CallBridge.Ty.Subtyping

/-!
# Passing values

Which values may be passed where another type is expected, and at what price.

- A value *passes freely* when nothing at all happens at run time: equal types,
  reference widening, or integral widening inside one word.
- A *checked cast* is needed between two reference types that are not related;
  null passes every cast.
- In *raw* mode a trusted caller may also have the bits of a primitive read as
  another kind of the same slot size.

Boxing a primitive is never possible: it would need a fresh object in the middle
of a call.
-/

namespace CallBridge

/-- How strictly values are passed. -/
inductive Mode where
  | checked
  | raw
  deriving DecidableEq, Repr

/-- What it takes to pass a value of one type as another. -/
inductive Passing where
  /-- Nothing happens at run time. -/
  | trivial
  /-- Both are references, and a checked cast would do. -/
  | needsCast
  | never
  deriving DecidableEq, Repr

namespace Ty

/-- Whether a value of type `src` may be used as `dst` with no action at run time. The types of
    interfaces are not checked, so every reference passes freely for an interface. -/
def passesFreely (src dst : Ty) : Bool :=
  src == dst ||
    match src, dst with
    | _, void => true
    | null, d => d.isReference
    | prim s, prim d => s.widensTo d
    | s, d => s.isReference && d.isReference && (d.isInterface || d.accepts s)

theorem passesFreely_refl (t : Ty) : t.passesFreely t = true := by
  simp [passesFreely]

/-! ## Passing in either mode -/

def passingChecked (src dst : Ty) : Passing :=
  if src.passesFreely dst then .trivial
  else if src.isReference && dst.isReference then .needsCast
  else .never

/-- Raw passing also takes primitives of equal slot size, and no value for a one-slot primitive. -/
def passingRaw (src dst : Ty) : Passing :=
  match src, dst with
  | prim s, prim d => if s.slotSize = d.slotSize then .trivial else passingChecked src dst
  | void, prim d => if d.slotSize = 1 then .trivial else passingChecked src dst
  | _, _ => passingChecked src dst

def passing (src dst : Ty) : Mode → Passing
  | .checked => passingChecked src dst
  | .raw => passingRaw src dst

/-! ## Conversions by one elementary step -/

/-- Whether a primitive cast turns `src` into `dst`. Casts stay on one side of the divide
    between floating and integral kinds. -/
def primCasts (src dst : Ty) : Bool :=
  match src.asPrim?, dst.asPrim? with
  | some s, some d => decide (s ≠ d) && s.isFloating == d.isFloating
  | _, _ => false

/-- Whether a checked cast from `src` to `dst` makes sense: any two references will do. -/
def casts (src dst : Ty) : Bool :=
  src.isReference && dst.isReference

/-- Whether `src` is exactly the class that boxes the primitive type `dst`. -/
def unboxes (src dst : Ty) : Bool :=
  match dst.asPrim? with
  | some p => src.unboxed? == some p
  | none => false

/-- Whether `src` can be unboxed to `dst`, after a cast to the wrapper class if need be. -/
def unboxesByCast (src dst : Ty) : Bool :=
  src.isReference && dst.isPrimitive

/-- Boxing is never available. -/
def isBoxedAs (_src _dst : Ty) : Bool :=
  false

/-- Whether some single elementary step turns an argument of type `src` into `dst`. -/
def converts (src dst : Ty) : Bool :=
  if src.passesFreely dst then true
  else if src.isPrimitive then
    if dst.isPrimitive then primCasts src dst else isBoxedAs src dst
  else if dst.isPrimitive then unboxesByCast src dst
  else src.isReference && dst.isReference

end Ty

end CallBridge
