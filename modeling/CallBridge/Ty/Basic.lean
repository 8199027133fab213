import CallBridge.Prim

/-!
# Value types

The types that parameters and results are declared with. A class or interface
carries its supertypes, so a type is a finite tree and two types are the same
exactly when the trees are equal. Types are declared before they are used as
supertypes, hence no type occurs among its own supertypes.
-/

namespace CallBridge

/-- A value type. -/
inductive Ty where
  /-- The absence of a value. -/
  | void
  /-- The type of the null reference, which passes for every reference type. -/
  | null
  | prim (kind : Prim)
  /-- The root of the class hierarchy. -/
  | object
  /-- A class below the root; `boxes` is set on the wrapper class of a primitive kind. -/
  | cls (name : String) (superclass : Ty) (interfaces : List Ty) (boxes : Option Prim)
  | iface (name : String) (supers : List Ty)
  | array (elem : Ty)

namespace Ty

-- ---------------------------------------------------------------------------
-- Equality
-- ---------------------------------------------------------------------------

mutual

/-- Whether two types are the same tree. -/
def same : Ty → Ty → Bool
  | void, void => true
  | null, null => true
  | prim p, prim q => decide (p = q)
  | object, object => true
  | cls n s is b, cls n' s' is' b' =>
      decide (n = n') && same s s' && sameAll is is' && decide (b = b')
  | iface n is, iface n' is' => decide (n = n') && sameAll is is'
  | array e, array e' => same e e'
  | _, _ => false

/-- Whether two lists hold the same types in the same order. -/
def sameAll : List Ty → List Ty → Bool
  | [], [] => true
  | t :: ts, u :: us => same t u && sameAll ts us
  | _, _ => false

end

mutual

theorem same_iff : ∀ t u : Ty, same t u = true ↔ t = u
  | void, u => by cases u <;> simp [same]
  | null, u => by cases u <;> simp [same]
  | prim p, u => by cases u <;> simp [same]
  | object, u => by cases u <;> simp [same]
  | cls n s is b, u => by cases u <;> simp [same, same_iff s, sameAll_iff is, and_assoc]
  | iface n is, u => by cases u <;> simp [same, sameAll_iff is]
  | array e, u => by cases u <;> simp [same, same_iff e]

theorem sameAll_iff : ∀ ts us : List Ty, sameAll ts us = true ↔ ts = us
  | [], us => by cases us <;> simp [sameAll]
  | t :: ts, us => by cases us <;> simp [sameAll, same_iff t, sameAll_iff ts]

end

instance : DecidableEq Ty := fun t u =>
  decidable_of_iff (same t u = true) (same_iff t u)

-- ---------------------------------------------------------------------------
-- Classification
-- ---------------------------------------------------------------------------

def isVoid : Ty → Bool
  | void => true
  | _ => false

def isPrimitive : Ty → Bool
  | prim _ => true
  | _ => false

def isReference : Ty → Bool
  | null | object | cls .. | iface .. | array _ => true
  | _ => false

def isInterface : Ty → Bool
  | iface .. => true
  | _ => false

/-- Whether the type is one that declarations name: the root, a class or an interface. -/
def isDeclared : Ty → Bool
  | object | cls .. | iface .. => true
  | _ => false

def asPrim? : Ty → Option Prim
  | prim p => some p
  | _ => none

/-- The element type of an array type. -/
def elem? : Ty → Option Ty
  | array e => some e
  | _ => none

/-- The primitive kind that instances of this class box, if it is a wrapper class. -/
def unboxed? : Ty → Option Prim
  | cls _ _ _ b => b
  | _ => none

/-- The name under which a class or interface was declared. -/
def declaredName? : Ty → Option String
  | object => some "Object"
  | cls n _ _ _ => some n
  | iface n _ => some n
  | _ => none

def superclass? : Ty → Option Ty
  | cls _ s _ _ => some s
  | _ => none

/-- The interfaces a class implements or an interface extends. -/
def interfaces : Ty → List Ty
  | cls _ _ is _ => is
  | iface _ is => is
  | _ => []

/-- The number of argument slots a value of this type occupies. -/
def slotSize : Ty → Nat
  | void => 0
  | prim p => p.slotSize
  | _ => 1

-- ---------------------------------------------------------------------------
-- Types that are always declared
-- ---------------------------------------------------------------------------

def number : Ty :=
  cls "Number" object [] none

def string : Ty :=
  cls "String" object [] none

/-- The class whose instances box values of kind `p`. -/
def wrapper (p : Prim) : Ty :=
  match p with
  | .boolean | .char => cls p.wrapperName object [] (some p)
  | _ => cls p.wrapperName number [] (some p)

@[simp] theorem unboxed?_wrapper (p : Prim) : (wrapper p).unboxed? = some p := by
  cases p <;> rfl

@[simp] theorem isReference_wrapper (p : Prim) : (wrapper p).isReference = true := by
  cases p <;> rfl

@[simp] theorem declaredName?_wrapper (p : Prim) :
    (wrapper p).declaredName? = some p.wrapperName := by
  cases p <;> rfl

-- ---------------------------------------------------------------------------
-- Text
-- ---------------------------------------------------------------------------

/-- The name a type is written with. -/
def text : Ty → String
  | void => "void"
  | null => "null"
  | prim p => p.name
  | object => "Object"
  | cls n _ _ _ => n
  | iface n _ => n
  | array e => e.text ++ "[]"

end Ty

end CallBridge
