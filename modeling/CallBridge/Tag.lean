import CallBridge.Ty.Basic

/-!
# Machine tags

The tag with which a descriptor word records what kind of value a slot holds. All
reference types share one tag.
-/

namespace CallBridge

/-- What a slot holds, as far as the machine tells values apart. -/
inductive Tag where
  | boolean
  | char
  | float
  | double
  | byte
  | short
  | int
  | long
  | object
  | void
  deriving DecidableEq, Repr

namespace Tag

def all : List Tag :=
  [boolean, char, float, double, byte, short, int, long, object, void]

/-- The four-bit code of a tag. No tag has code zero, which stands for "none". -/
def code : Tag → Nat
  | boolean => 4
  | char => 5
  | float => 6
  | double => 7
  | byte => 8
  | short => 9
  | int => 10
  | long => 11
  | object => 12
  | void => 14

def ofCode? (code : Nat) : Option Tag :=
  all.find? fun t => t.code == code

theorem ofCode?_code (t : Tag) : ofCode? t.code = some t := by
  cases t <;> rfl

def name : Tag → String
  | boolean => "boolean"
  | char => "char"
  | float => "float"
  | double => "double"
  | byte => "byte"
  | short => "short"
  | int => "int"
  | long => "long"
  | object => "object"
  | void => "void"

def slotSize : Tag → Nat
  | long | double => 2
  | void => 0
  | _ => 1

def ofPrim : Prim → Tag
  | .boolean => boolean
  | .byte => byte
  | .char => char
  | .short => short
  | .int => int
  | .long => long
  | .float => float
  | .double => double

def ofTy : Ty → Tag
  | .void => void
  | .prim p => ofPrim p
  | _ => object

theorem slotSize_ofTy (t : Ty) : (ofTy t).slotSize = t.slotSize := by
  cases t with
  | prim p => cases p <;> rfl
  | void | null | object | cls | iface | array => rfl

end Tag

end CallBridge
