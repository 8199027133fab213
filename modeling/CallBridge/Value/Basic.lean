import CallBridge.Ty.Subtyping
import CallBridge.Value.Datum

/-!
# Values

What flows through a call: primitive data, references of several sorts, null, and
the absence of a value.
-/

namespace CallBridge

/-- A run-time value. -/
inductive Value where
  /-- The result of a call that gives none. -/
  | void
  | null
  | prim (datum : Datum)
  | str (s : String)
  /-- An instance of a wrapper class. -/
  | boxed (datum : Datum)
  /-- An array with the type it was made with. -/
  | array (type : Ty) (items : List Value)
  /-- An opaque instance of some type. -/
  | object (type : Ty)

namespace Value

def asPrim? : Value → Option Datum
  | prim d => some d
  | _ => none

def asString? : Value → Option String
  | str s => some s
  | _ => none

/-- The class of a reference that is not null. -/
def runtimeType? : Value → Option Ty
  | str _ => some .string
  | boxed d => some (.wrapper d.kind)
  | array t _ => some t
  | object t => some t
  | void | null | prim _ => none

/-- Whether a checked cast to `type` succeeds. Null passes every cast to a reference type. -/
def isInstanceOf (v : Value) (type : Ty) : Bool :=
  match v with
  | null => type.isReference
  | _ =>
    match v.runtimeType? with
    | some t => type.accepts t
    | none => false

mutual

/-- Equality of values, with data compared as numbers. -/
def equal : Value → Value → Bool
  | void, void => true
  | null, null => true
  | prim a, prim b => a.equal b
  | str a, str b => a == b
  | boxed a, boxed b => a.equal b
  | array t as, array u bs => t == u && equalAll as bs
  | object t, object u => t == u
  | _, _ => false

def equalAll : List Value → List Value → Bool
  | [], [] => true
  | a :: as, b :: bs => equal a b && equalAll as bs
  | _, _ => false

end

mutual

def text : Value → String
  | void => "void"
  | null => "null"
  | prim d => d.text
  | str s => Text.quote s
  | boxed d => d.kind.wrapperName ++ "(" ++ d.text ++ ")"
  | array _ items => "[" ++ ", ".intercalate (texts items) ++ "]"
  | object t => t.text ++ "@"

def texts : List Value → List String
  | [] => []
  | v :: vs => text v :: texts vs

end

end Value

end CallBridge
