import CallBridge.Proofs.Balance
import CallBridge.Proofs.MachinePredicates

/-!
# Constructors on a machine of words

The elementary constructors as a machine of 64-bit words runs them. What they
compute beyond their predicates is guarded by these: a position that a step records
lies inside the list that it was found in, and the slots of a list that fits into
memory can be counted in a word. So every constructor has an answer, a handle or a
refusal, and it is the library's.
-/

namespace CallBridge

theorem Signature.Storable.withParam {s : Signature} (h : s.Storable) (i : Nat) (type : Ty) :
    (s.withParam i type).Storable := by
  rw [Storable, arity_withParam]
  exact h

namespace Machine

/-- A construction that asks its predicate first has an answer if it has one where the predicate
    holds. -/
theorem ite_eq {α : Type} {can : Bool} {built : Option α} {x y : α}
    (hbuilt : can = true → built = some x) :
    (if can then built else some y) = some (if can then x else y) := by
  cases can with
  | true => exact hbuilt rfl
  | false => rfl

/-! ## Slots -/

/-- The slots from `pos` on, added up one parameter at a time. -/
def slotDepth (s : Signature) (pos : Nat) : Option Nat :=
  if pos ≤ s.arity then (s.params.drop pos).foldlM (fun total t => add total t.slotSize) 0 else none

def slotsAt (s : Signature) (pos count : Nat) : Option Nat := do
  sub (← slotDepth s pos) (← slotDepth s (← add pos count))

section Slots

variable {s : Signature} {pos count : Nat}

theorem slotSize_le (t : Ty) : t.slotSize ≤ 2 := by
  cases t with
  | prim kind => cases kind <;> decide
  | void => exact Nat.zero_le 2
  | null | object | cls | iface | array => exact Nat.le_succ 1

theorem foldlM_slots {ts : List Ty} {total : Nat}
    (hts : total + 2 * ts.length < UInt64.size) :
    ts.foldlM (fun total t => add total t.slotSize) total = some (total + Signature.slots ts) := by
  induction ts generalizing total with
  | nil => rfl
  | cons t ts ih =>
    have hsize := slotSize_le t
    rw [List.length_cons] at hts
    rw [List.foldlM_cons, add_eq (by omega), Option.bind_eq_bind, Option.bind_some,
      ih (by omega), Signature.slots_cons, Nat.add_assoc]

theorem slotDepth_eq (hs : s.Storable) (hpos : pos ≤ s.arity) :
    slotDepth s pos = some (s.slotDepth pos) := by
  have hlen : 0 + 2 * (s.params.drop pos).length < UInt64.size := by
    rw [Signature.Storable, Signature.arity] at hs
    rw [List.length_drop]
    omega
  rw [slotDepth, if_pos hpos, foldlM_slots hlen, Nat.zero_add]
  rfl

theorem slotsAt_eq (hs : s.Storable) (hin : pos + count ≤ s.arity) :
    slotsAt s pos count = some (s.slotsAt pos count) := by
  have hcut := s.slotDepth_eq_add pos count
  simp only [slotsAt, add_eq (hs.lt hin), slotDepth_eq hs hin,
    slotDepth_eq hs (show pos ≤ s.arity by omega), Option.bind_eq_bind, Option.bind_some]
  exact sub_eq (by omega)

end Slots

/-! ## Elementary constructors -/

def retype (h : Host) (new : Signature) (t : Handle) (mode : Mode) :
    Option (Except AdaptError Handle) :=
  if t.signature = new then some (.ok t)
  else do
    return if ← canRetype h new t.signature mode then .ok (.adapter new (.retype mode) t)
      else Host.refuse new t

def cast (h : Host) (new : Signature) (t : Handle) (arg : Nat) (type : Ty) :
    Option (Except AdaptError Handle) := do
  return if ← canCast h new t.signature arg type then .ok (.adapter new (.cast arg type) t)
    else Host.refuse new t

def primCast (h : Host) (new : Signature) (t : Handle) (arg : Nat) (type : Ty) :
    Option (Except AdaptError Handle) := do
  if ← canPrimCast h new t.signature arg type then
    match (← new.param? arg).asPrim?, type.asPrim? with
    | some source, some kind => return .ok (.adapter new (.primCast arg source kind) t)
    | _, _ => return Host.refuse new t
  else return Host.refuse new t

def unbox (h : Host) (new : Signature) (t : Handle) (arg : Nat) (type : Ty) :
    Option (Except AdaptError Handle) := do
  if ← canUnbox h new t.signature arg type then
    match Host.kindNamed? type with
    | none => return Host.refuse new t
    | some kind =>
      let wrapper := Ty.wrapper kind
      let step := Step.unbox arg kind wrapper
      if (← new.param? arg).passesFreely wrapper then return .ok (.adapter new step t)
      else cast h new (.adapter (← new.withParam? arg wrapper) step t) arg wrapper
  else return Host.refuse new t

def drop (h : Host) (new : Signature) (t : Handle) (pos count : Nat) :
    Option (Except AdaptError Handle) :=
  if count = 0 then retype h new t .checked
  else do
    if ← canDrop h new t.signature pos count then
      return .ok (.adapter new (.drop pos count (← slotsAt new pos count)) t)
    else return Host.refuse new t

def dup (h : Host) (new : Signature) (t : Handle) (pos count : Nat) :
    Option (Except AdaptError Handle) := do
  if ← canDup h new t.signature pos count then
    if count = 0 then retype h new t .checked
    else return .ok (.adapter new (.dup pos count (← slotsAt new pos count)) t)
  else return Host.refuse new t

def swap (h : Host) (new : Signature) (t : Handle) (first second : Nat) :
    Option (Except AdaptError Handle) :=
  if first = second then retype h new t .checked
  else do
    let i := min first second
    let j := max first second
    if ← canSwap h new t.signature i j then
      let tag := Tag.ofTy (← new.param? i)
      return .ok (.adapter new (.swap i j tag (← slotDepth new (← add j 1))) t)
    else return Host.refuse new t

def rotate (h : Host) (new : Signature) (t : Handle) (first count : Nat) (amount : Int) :
    Option (Except AdaptError Handle) := do
  let right := rotationAmount count amount
  if ← some (decide (2 < count)) <&&> some (right != 0) <&&> isWideRotation count right then
    return .error (.unsupported .wideRotation)
  else if ← canRotate h new t.signature first count amount then
    let last ← sub (← add first count) 1
    let (moved, dest) := if right = 1 then (last, first) else (first, last)
    let tag := Tag.ofTy (← new.param? moved)
    let destSlot ← slotDepth new (← add dest 1)
    return .ok (.adapter new (.rotate first count right moved tag destSlot) t)
  else return Host.refuse new t

def spread (h : Host) (new : Signature) (t : Handle) (array : Ty) (pos count : Nat) :
    Option (Except AdaptError Handle) := do
  if ← canSpread h new t.signature array pos count then
    let step := Step.spread pos count array (← slotsAt t.signature pos count)
    if (← new.param? pos).passesFreely array then return .ok (.adapter new step t)
    else cast h new (.adapter (← new.withParam? pos array) step t) pos array
  else return Host.refuse new t

/-- A rotation that is too wide is not by nothing. -/
theorem isWide_guarded_eq (count right : Nat) :
    (some (decide (2 < count)) <&&> some (right != 0) <&&> isWideRotation count right) =
      some (decide (2 < count ∧ Host.isWideRotation count right = true)) := by
  have hguard : (right != 0 && Host.isWideRotation count right) =
      Host.isWideRotation count right := by
    cases right with
    | zero => rfl
    | succ right => rfl
  rw [Bool.decide_and, Bool.decide_eq_true, ← hguard]
  refine andM_eq rfl fun hcount => andM_eq rfl fun _ => isWideRotation_eq ?_
  exact of_decide_eq_true hcount

section Elementary

variable {h : Host} {new : Signature} {t : Handle} {arg pos count : Nat} {type : Ty}
variable (hnew : new.Storable) (ht : t.signature.Storable)
include hnew ht

theorem retype_eq (mode : Mode) : retype h new t mode = some (h.retype new t mode) := by
  rw [retype, canRetype_eq hnew ht, Host.retype]
  split <;> rfl

theorem cast_eq : cast h new t arg type = some (h.cast new t arg type) := by
  rw [cast, canCast_eq hnew ht]
  rfl

theorem primCast_eq : primCast h new t arg type = some (h.primCast new t arg type) := by
  rw [primCast, canPrimCast_eq hnew ht]
  refine ite_eq fun hcan => ?_
  rw [Host.canPrimCast, Bool.and_eq_true, Host.canConvertAt_iff] at hcan
  obtain ⟨-, -, src, -, hsrc, -⟩ := hcan
  simp only [hsrc, Option.bind_eq_bind, Option.bind_some]
  cases src.asPrim? <;> cases type.asPrim? <;> rfl

theorem unbox_eq : unbox h new t arg type = some (h.unbox new t arg type) := by
  rw [unbox, canUnbox_eq hnew ht]
  refine ite_eq fun hcan => ?_
  cases hkind : Host.kindNamed? type with
  | none => rfl
  | some kind =>
    rw [Host.canUnbox_iff hkind, Host.canConvertAt_iff] at hcan
    obtain ⟨-, -, src, -, hsrc, -⟩ := hcan
    have harg : arg < new.arity := (List.getElem?_eq_some_iff.mp hsrc).1
    simp only [hsrc, Option.bind_eq_bind, Option.bind_some, Signature.withParam?, if_pos harg]
    split
    · rfl
    · exact cast_eq hnew (hnew.withParam arg _)

theorem drop_eq : drop h new t pos count = some (h.drop new t pos count) := by
  rw [drop, Host.drop]
  split
  · exact retype_eq hnew ht .checked
  · rename_i hcount
    rw [canDrop_eq hnew ht]
    refine ite_eq fun hcan => ?_
    obtain ⟨-, ⟨-, hin⟩, -⟩ := (Host.canDrop_iff hcount).mp hcan
    rw [slotsAt_eq hnew hin]
    rfl

theorem dup_eq : dup h new t pos count = some (h.dup new t pos count) := by
  rw [dup, canDup_eq hnew ht]
  refine ite_eq fun hcan => ?_
  split
  · exact retype_eq hnew ht .checked
  · rename_i hcount
    obtain ⟨-, ⟨-, hin⟩, -⟩ := (Host.canDup_iff hcount).mp hcan
    rw [slotsAt_eq hnew hin]
    rfl

theorem swap_eq (first second : Nat) :
    swap h new t first second = some (h.swap new t first second) := by
  rw [swap, Host.swap]
  split
  · exact retype_eq hnew ht .checked
  · simp only [canSwap_eq hnew ht]
    refine ite_eq fun hcan => ?_
    obtain ⟨-, ⟨hlt, hin, -⟩, -⟩ := Host.canSwap_iff.mp hcan
    have hfirst : new.param? (min first second) = some _ :=
      List.getElem?_eq_getElem (Nat.lt_trans hlt hin)
    rw [hfirst, add_eq (hnew.lt hin)]
    simp only [Option.bind_eq_bind, Option.bind_some, slotDepth_eq hnew hin]
    rfl

theorem rotate_eq {first : Nat} {amount : Int} (hcount : count < UInt64.size) :
    rotate h new t first count amount = some (h.rotate new t first count amount) := by
  have hwide := isWide_guarded_eq count (Host.rotationAmount count amount)
  simp only [rotate, Host.rotate, rotationAmount_eq hcount, hwide, canRotate_eq hnew ht,
    Option.bind_eq_bind, Option.bind_some, decide_eq_true_eq]
  split
  · rfl
  · refine ite_eq fun hcan => ?_
    obtain ⟨-, ⟨hmany, hin, -⟩, -⟩ := Host.canRotate_iff.mp hcan
    have hin : first + count ≤ new.arity := hin
    have hread : ∀ i, i < first + count →
        ∃ type, new.param? i = some type ∧ slotDepth new (i + 1) = some (new.slotDepth (i + 1)) ∧
          add i 1 = some (i + 1) := fun i hi =>
      ⟨_, List.getElem?_eq_getElem (Nat.lt_of_lt_of_le hi hin), slotDepth_eq hnew (by omega),
        add_eq (hnew.lt (by omega))⟩
    obtain ⟨typeFirst, hfirst, hdepthFirst, haddFirst⟩ := hread first (by omega)
    obtain ⟨typeLast, hlast, hdepthLast, haddLast⟩ := hread (first + count - 1) (by omega)
    simp only [add_eq (hnew.lt hin), sub_eq (show 1 ≤ first + count by omega), Option.bind_some]
    by_cases hone : Host.rotationAmount count amount = 1
    · simp only [if_pos hone, hlast, haddFirst, hdepthFirst, Option.bind_some]
      rfl
    · simp only [if_neg hone, hfirst, haddLast, hdepthLast, Option.bind_some]
      rfl

theorem spread_eq (array : Ty) :
    spread h new t array pos count = some (h.spread new t array pos count) := by
  rw [spread, canSpread_eq hnew ht]
  refine ite_eq fun hcan => ?_
  obtain ⟨hpos, harity⟩ := Host.arity_of_canSpread hcan
  have hsrc : new.param? pos = some _ := List.getElem?_eq_getElem hpos
  simp only [hsrc, slotsAt_eq ht (show pos + count ≤ t.signature.arity by omega),
    Option.bind_eq_bind, Option.bind_some, Signature.withParam?, if_pos hpos]
  split
  · rfl
  · exact cast_eq hnew (hnew.withParam pos _)

end Elementary

end Machine

end CallBridge
