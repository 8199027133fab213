import CallBridge.Ty.Basic

/-!
# Subtyping

`dst.accepts src` says that a variable of type `dst` may hold a value of type
`src` without any check. Interfaces are honoured and arrays of references vary
with their elements.
-/

namespace CallBridge

namespace Ty

mutual

/-- Whether a value of type `src` may be stored in a variable of type `dst`: the types are
    equal, `src` is null and `dst` a reference, `dst` is the root and `src` a reference, some
    direct supertype of `src` is accepted, or both are arrays whose elements agree. -/
def accepts (dst : Ty) : (src : Ty) → Bool
  | void => dst == void
  | null => dst.isReference
  | prim p => dst == prim p
  | object => dst == object
  | cls n s is b =>
      dst == cls n s is b || dst == object ||
        (dst.isDeclared && (accepts dst s || acceptsAny dst is))
  | iface n is =>
      dst == iface n is || dst == object || (dst.isDeclared && acceptsAny dst is)
  | array e =>
      dst == object ||
        match dst with
        | array d => if d.isReference && e.isReference then accepts d e else d == e
        | _ => false

/-- Whether some type of the list is accepted. -/
def acceptsAny (dst : Ty) : (srcs : List Ty) → Bool
  | [] => false
  | src :: srcs => accepts dst src || acceptsAny dst srcs

end

theorem acceptsAny_eq_any (dst : Ty) (srcs : List Ty) :
    acceptsAny dst srcs = srcs.any (accepts dst) := by
  induction srcs with
  | nil => simp [acceptsAny]
  | cons src srcs ih => simp [acceptsAny, ih]

/-! ## First consequences -/

theorem accepts_self : ∀ t : Ty, t.accepts t = true
  | void => by simp [accepts]
  | null => by simp [accepts, isReference]
  | prim p => by simp [accepts]
  | object => by simp [accepts]
  | cls n s is b => by simp [accepts]
  | iface n is => by simp [accepts]
  | array e => by simp [accepts, accepts_self e]

/-- The root class holds every reference and nothing else. -/
@[simp] theorem object_accepts (t : Ty) : object.accepts t = t.isReference := by
  cases t with
  | void => rfl
  | null => rfl
  | prim p => simp [accepts, isReference]
  | object => simp [accepts, isReference]
  | cls n s is b => simp [accepts, isReference]
  | iface n is => simp [accepts, isReference]
  | array e => simp [accepts, isReference]

/-- What is not a reference holds only its own type. -/
theorem accepts_of_not_isReference {dst src : Ty} (h : dst.isReference = false) :
    dst.accepts src = true ↔ dst = src := by
  cases dst with
  | void => cases src <;> simp [accepts, isReference, isDeclared]
  | prim p => cases src <;> simp [accepts, isReference, isDeclared]
  | null | object | cls | iface | array => simp [isReference] at h

end Ty

end CallBridge
