import CallBridge.Signature.Basic

/-!
# Differences between signatures

The comparison has a direction: the values of `caller` flow into `callee`. A
position differs when its value does not pass trivially in the chosen mode.
-/

namespace CallBridge

/-- How two parameter ranges compare. -/
inductive Difference where
  /-- Every compared position passes trivially. -/
  | zero
  /-- Exactly one position differs. -/
  | single (pos : Nat)
  /-- Two or more positions differ, `first` being the least. -/
  | multiple (first : Nat)
  /-- The return types or the arities cannot be reconciled. -/
  | incompatible
  deriving DecidableEq, Repr

namespace Difference

/-- The position of the only difference, if there is exactly one. -/
def sole? : Difference → Option Nat
  | single pos => some pos
  | _ => none

/-- The class of an ascending list of differing positions. -/
def ofPositions : List Nat → Difference
  | [] => zero
  | [pos] => single pos
  | first :: _ :: _ => multiple first

theorem ofPositions_eq_zero_iff {ps : List Nat} : ofPositions ps = zero ↔ ps = [] := by
  match ps with
  | [] => simp [ofPositions]
  | [_] => simp [ofPositions]
  | _ :: _ :: _ => simp [ofPositions]

theorem ofPositions_eq_single_iff {ps : List Nat} {pos : Nat} :
    ofPositions ps = single pos ↔ ps = [pos] := by
  match ps with
  | [] => simp [ofPositions]
  | [_] => simp [ofPositions]
  | _ :: _ :: _ => simp [ofPositions]

theorem ofPositions_ne_incompatible (ps : List Nat) : ofPositions ps ≠ incompatible := by
  match ps with
  | [] => simp [ofPositions]
  | [_] => simp [ofPositions]
  | _ :: _ :: _ => simp [ofPositions]

end Difference

namespace Signature

/-- Whether the parameter `i` of `caller` does not pass trivially as the parameter `j` of
    `callee`. -/
def differsAt (caller callee : Signature) (mode : Mode) (i j : Nat) : Bool :=
  match caller.param? i, callee.param? j with
  | some src, some dst => src.passing dst mode != .trivial
  | _, _ => true

/-- Compares `n` parameters of `caller` from `i` on with `n` parameters of `callee` from `j` on.
    Positions are counted from the start of the range. -/
def differenceFrom (caller : Signature) (i : Nat) (callee : Signature) (j n : Nat) (mode : Mode) :
    Difference :=
  if i + n ≤ caller.arity ∧ j + n ≤ callee.arity then
    .ofPositions ((List.range n).filter fun k => caller.differsAt callee mode (i + k) (j + k))
  else
    .incompatible

/-- Compares ranges whose positions are 64-bit words. There is no answer if the end of a range
    that has to be looked at is not a word itself. -/
def differenceFrom? (caller : Signature) (i : Nat) (callee : Signature) (j n : Nat) (mode : Mode) :
    Option Difference :=
  if UInt64.size ≤ i + n then none
  else if caller.arity < i + n then some .incompatible
  else if UInt64.size ≤ j + n then none
  else some (caller.differenceFrom i callee j n mode)

/-- Whether the result of `callee` may be handed back as the result of `caller`. Raw mode lets a
    trusted caller receive any reference as any other. -/
def returnsMatch (caller callee : Signature) (mode : Mode) : Bool :=
  callee.ret.passing caller.ret mode == .trivial ||
    (mode == .raw && callee.ret.isReference && caller.ret.isReference)

/-- Compares return types, arities and every parameter, in this order. -/
def difference (caller callee : Signature) (mode : Mode) : Difference :=
  if !caller.returnsMatch callee mode then .incompatible
  else if caller.arity ≠ callee.arity then .incompatible
  else caller.differenceFrom 0 callee 0 caller.arity mode

/-- Whether two ranges of `n` parameters pass trivially in checked mode. -/
def paramsMatch (caller : Signature) (i : Nat) (callee : Signature) (j n : Nat) : Bool :=
  caller.differenceFrom i callee j n .checked == .zero

end Signature

end CallBridge
