/-!
# Primitive kinds

The eight kinds of primitive value, their widths, the number of argument slots
they occupy, and which of them widen into one another for free.
-/

namespace CallBridge

/-- A primitive kind. `boolean` and `char` count as unsigned integral kinds. -/
inductive Prim where
  | boolean
  | byte
  | char
  | short
  | int
  | long
  | float
  | double
  deriving DecidableEq, Repr

namespace Prim

/-- Every primitive kind, in the order in which listings show them. -/
def all : List Prim :=
  [boolean, byte, char, short, int, long, float, double]

theorem mem_all (p : Prim) : p ∈ all := by
  cases p <;> simp [all]

def name : Prim → String
  | boolean => "boolean"
  | byte => "byte"
  | char => "char"
  | short => "short"
  | int => "int"
  | long => "long"
  | float => "float"
  | double => "double"

/-- The primitive kind with the given name. -/
def ofName? (s : String) : Option Prim :=
  all.find? fun p => p.name == s

/-- The name of the reference class whose instances box values of this kind. -/
def wrapperName : Prim → String
  | boolean => "Boolean"
  | byte => "Byte"
  | char => "Character"
  | short => "Short"
  | int => "Integer"
  | long => "Long"
  | float => "Float"
  | double => "Double"

/-! ## Shape -/

def isFloating : Prim → Bool
  | float | double => true
  | _ => false

def isIntegral (p : Prim) : Bool :=
  !p.isFloating

def isSigned : Prim → Bool
  | byte | short | int | long => true
  | _ => false

/-- The number of significant bits of a value of this kind. -/
def bitWidth : Prim → Nat
  | boolean => 1
  | byte => 8
  | char | short => 16
  | int | float => 32
  | long | double => 64

/-- The number of argument slots a value of this kind occupies. -/
def slotSize : Prim → Nat
  | long | double => 2
  | _ => 1

/-- Integral kinds that travel as a single 32-bit word. -/
def fitsWord (p : Prim) : Bool :=
  p.isIntegral && decide (p.bitWidth ≤ 32)

/-! ## Free widening -/

/-- Whether a value of kind `src` may be read as kind `dst` with no action at all:
    both travel as one word and `dst` holds every value of `src`. -/
def widensTo (src dst : Prim) : Bool :=
  src.fitsWord && dst.fitsWord &&
    match src.isSigned, dst.isSigned with
    | true, false => false
    | false, true => decide (src.bitWidth < dst.bitWidth)
    | _, _ => decide (src.bitWidth ≤ dst.bitWidth)

end Prim

end CallBridge
