import CallBridge.Ty.Basic

/-!
# The type registry

A registry hands out types and remembers each one it has made. A registered type
carries a serial number, its place in the order of registration, which tells two
registrations apart even where the types would be equal. Names are unique: the
first declaration of a name is the one that counts.
-/

namespace CallBridge

/-- A type together with the place at which the registry holds it. -/
structure Registered where
  serial : Nat
  type : Ty
  deriving DecidableEq

/-- The registered types, in order of registration. -/
structure Registry where
  types : List Ty

/-- A request for a new class or interface. -/
inductive Declaration where
  | cls (name : String) (superclass : Option Ty) (interfaces : List Ty)
  | iface (name : String) (supers : List Ty)

namespace Registry

/-- The registry before any declaration. -/
def initial : Registry where
  types :=
    [.object, .number, .string] ++ Prim.all.map .prim ++ Prim.all.map .wrapper ++ [.void, .null]

/-- The first registered type that satisfies `p`. -/
def find? (r : Registry) (p : Ty → Bool) : Option Registered :=
  match r.types.findIdx? p with
  | some i => r.types[i]?.map (⟨i, ·⟩)
  | none => none

/-- The class or interface declared under `name`. -/
def lookup? (r : Registry) (name : String) : Option Registered :=
  r.find? fun t => t.declaredName? == some name

/-- What is found is registered at its serial number and satisfies the condition. -/
theorem of_find? {r : Registry} {p : Ty → Bool} {known : Registered}
    (h : r.find? p = some known) : r.types[known.serial]? = some known.type ∧ p known.type := by
  unfold find? at h
  cases hi : r.types.findIdx? p with
  | none => simp [hi] at h
  | some i =>
    obtain ⟨hlt, hp, _⟩ := List.findIdx?_eq_some_iff_getElem.mp hi
    simp only [hi, List.getElem?_eq_getElem hlt, Option.map_some, Option.some.injEq] at h
    subst h
    exact ⟨List.getElem?_eq_getElem hlt, hp⟩

/-- A type that is looked up carries the name it was looked up by. -/
theorem declaredName?_of_lookup? {r : Registry} {name : String} {known : Registered}
    (h : r.lookup? name = some known) : known.type.declaredName? = some name := by
  simpa using (of_find? h).2

/-- Adds a type at the end. -/
def append (r : Registry) (t : Ty) : Registered × Registry :=
  (⟨r.types.length, t⟩, ⟨r.types ++ [t]⟩)

/-- Registers `t` unless a type satisfying `p` is there already. -/
def findOrAppend (r : Registry) (p : Ty → Bool) (t : Ty) : Registered × Registry :=
  match r.find? p with
  | some known => (known, r)
  | none => r.append t

/-- Declares a class, below the root unless a superclass is given. -/
def declareClass (r : Registry) (name : String) (superclass : Option Ty) (interfaces : List Ty) :
    Registered × Registry :=
  r.findOrAppend (fun t => t.declaredName? == some name)
    (.cls name (superclass.getD .object) interfaces none)

def declareInterface (r : Registry) (name : String) (supers : List Ty) : Registered × Registry :=
  r.findOrAppend (fun t => t.declaredName? == some name) (.iface name supers)

def declare (r : Registry) : Declaration → Registered × Registry
  | .cls name superclass interfaces => r.declareClass name superclass interfaces
  | .iface name supers => r.declareInterface name supers

/-- The array type over `elem`. -/
def array (r : Registry) (elem : Ty) : Registered × Registry :=
  r.findOrAppend (· == .array elem) (.array elem)

/-! ## Type expressions -/

/-- The built-in type that is not a class and has the given name. -/
def builtin? (name : String) : Option Ty :=
  if name = "void" then some .void
  else if name = "null" then some .null
  else (Prim.ofName? name).map .prim

/-- The registered type with the given base name, or the name if there is none. -/
def resolveBase (r : Registry) (name : String) : Except String (Registered × Registry) :=
  match builtin? name with
  | some t =>
    match r.find? (· == t) with
    | some known => .ok (known, r)
    | none => .ok (r.append t)
  | none =>
    match r.lookup? name with
    | some known => .ok (known, r)
    | none => .error name

/-- Resolves a type expression whose characters are given from right to left. -/
def resolveReversed (r : Registry) : List Char → Except String (Registered × Registry)
  | ']' :: '[' :: rest => do
      let (elem, r) ← r.resolveReversed rest
      return r.array elem.type
  | cs => r.resolveBase (String.ofList cs.reverse)

/-- Resolves a type expression: a base name followed by any number of `[]`. An unknown base name
    is the error. -/
def resolve (r : Registry) (expr : String) : Except String (Registered × Registry) :=
  r.resolveReversed expr.toList.reverse

end Registry

end CallBridge
