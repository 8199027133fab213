import CallBridge.Proofs.Matching

/-!
# Predicates on a machine of words

The library computes positions and counts as natural numbers; the machine that
runs it has 64-bit words. The comparison of signatures and the predicates are
written once more for the machine, where a sum that is no word, a difference below
zero and a read past the end of a list are faults and have no result. The right
side of a conjunction is looked at only if the left side holds, so that earlier
conditions guard the arithmetic of later ones. On signatures that fit into memory
every predicate has a result, whatever its operands, and it is the library's.
-/

namespace CallBridge

open Shuffle (slice)

/-- Whether the parameters can be in memory, where no list is longer than the largest signed
    word. -/
def Signature.Storable (s : Signature) : Prop :=
  2 * s.arity < UInt64.size

instance : DecidablePred Signature.Storable :=
  fun s => inferInstanceAs (Decidable (2 * s.arity < UInt64.size))

/-- Positions in such a list are words. -/
theorem Signature.Storable.lt {s : Signature} (h : s.Storable) {i : Nat} (hi : i ≤ s.arity) :
    i < UInt64.size := by
  rw [Storable] at h
  omega

namespace Machine

/-! ## Words -/

/-- The sum of two words, if it is a word. -/
def add (a b : Nat) : Option Nat :=
  if a + b < UInt64.size then some (a + b) else none

/-- The difference of two words, if it is not below zero. -/
def sub (a b : Nat) : Option Nat :=
  if b ≤ a then some (a - b) else none

theorem add_eq {a b : Nat} (h : a + b < UInt64.size) : add a b = some (a + b) :=
  if_pos h

theorem sub_eq {a b : Nat} (h : b ≤ a) : sub a b = some (a - b) :=
  if_pos h

/-- A bound on a sum is checked rightly even if the sum is no word. -/
theorem any_add {a b n : Nat} (hn : n < UInt64.size) :
    ((add a b).any fun c => decide (c ≤ n)) = decide (a + b ≤ n) := by
  unfold add
  split
  · rfl
  · exact (decide_eq_false (by omega)).symm

theorem add_beq {a b n : Nat} (hn : n < UInt64.size) :
    (add a b == some n) = decide (n = a + b) := by
  unfold add
  split
  · rw [Bool.eq_iff_iff]
    simp only [beq_iff_eq, Option.some.injEq, decide_eq_true_eq]
    exact eq_comm
  · exact (decide_eq_false (by omega)).symm

theorem elim_filter_add {a b n : Nat} {f : Nat → Option Bool} {q : Bool} (hn : n < UInt64.size)
    (hf : a + b ≤ n → f (a + b) = some q) :
    ((add a b).filter fun c => decide (c ≤ n)).elim (some false) f =
      some (decide (a + b ≤ n) && q) := by
  by_cases hle : a + b ≤ n
  · simp only [add_eq (show a + b < UInt64.size by omega), Option.filter_some, decide_eq_true hle,
      if_true, Option.elim_some, Bool.true_and]
    exact hf hle
  · unfold add
    split
    · simp [Option.filter_some, hle]
    · simp [hle]

/-- A conjunction of conditions that have results, of which the right one may depend on the
    left one. -/
theorem andM_eq {x y : Option Bool} {p q : Bool} (hx : x = some p) (hy : p = true → y = some q) :
    (x <&&> y) = some (p && q) := by
  subst hx
  cases p with
  | true => exact hy rfl
  | false => rfl

theorem andM_true (y : Option Bool) : (some true <&&> y) = y := rfl

/-- A test of all entries of a list, which stops at the first that fails, against the same test of
    what stands for them. -/
theorem allM_eq {α β : Type} {p : α → Option Bool} {q : β → Bool} {xs : List α} {ys : List β}
    (h : List.Forall₂ (fun x y => p x = some (q y)) xs ys) : xs.allM p = some (ys.all q) := by
  induction h with
  | nil => rfl
  | @cons x y xs ys hhead htail ih =>
    rw [List.allM, hhead, List.all_cons]
    cases q y with
    | true => exact ih
    | false => rfl

/-! ## Comparing signatures -/

/-- Compares the pairs of parameters at the given offsets, `found` being the one difference seen so
    far. The second difference ends the search. -/
def scan (caller : Signature) (i : Nat) (callee : Signature) (j : Nat) (mode : Mode) :
    (offsets : List Nat) → (found : Option Nat) → Option Difference
  | [], none => some .zero
  | [], some first => some (.single first)
  | k :: rest, found => do
    let src ← caller.param? (← add i k)
    let dst ← callee.param? (← add j k)
    if src.passing dst mode == .trivial then scan caller i callee j mode rest found
    else
      match found with
      | some first => return .multiple first
      | none => scan caller i callee j mode rest (some k)

def differenceFrom (caller : Signature) (i : Nat) (callee : Signature) (j n : Nat) (mode : Mode) :
    Option Difference := do
  if caller.arity < (← add i n) then return .incompatible
  else if callee.arity < (← add j n) then return .incompatible
  else scan caller i callee j mode (List.range n) none

def difference (caller callee : Signature) (mode : Mode) : Option Difference :=
  if !caller.returnsMatch callee mode then some .incompatible
  else if caller.arity ≠ callee.arity then some .incompatible
  else differenceFrom caller 0 callee 0 caller.arity mode

def paramsMatch (caller : Signature) (i : Nat) (callee : Signature) (j n : Nat) : Option Bool :=
  (differenceFrom caller i callee j n .checked).map (· == .zero)

section Comparing

variable {caller callee : Signature} {mode : Mode} {i j n : Nat}

theorem scan_eq {offsets : List Nat}
    (hi : ∀ k ∈ offsets, i + k < caller.arity ∧ i + k < UInt64.size)
    (hj : ∀ k ∈ offsets, j + k < callee.arity ∧ j + k < UInt64.size) (found : Option Nat) :
    scan caller i callee j mode offsets found = some (.ofPositions (found.toList ++
      offsets.filter fun k => caller.differsAt callee mode (i + k) (j + k))) := by
  induction offsets generalizing found with
  | nil => cases found <;> rfl
  | cons k rest ih =>
    obtain ⟨hik, hiword⟩ := hi k List.mem_cons_self
    obtain ⟨hjk, hjword⟩ := hj k List.mem_cons_self
    have hrest := ih (fun l hl => hi l (List.mem_cons_of_mem _ hl))
      (fun l hl => hj l (List.mem_cons_of_mem _ hl))
    have hsrc : caller.param? (i + k) = some _ := List.getElem?_eq_getElem hik
    have hdst : callee.param? (j + k) = some _ := List.getElem?_eq_getElem hjk
    simp only [scan, add_eq hiword, add_eq hjword, hsrc, hdst, Option.bind_eq_bind,
      Option.bind_some, List.filter_cons, Signature.differsAt, bne]
    cases caller.params[i + k].passing callee.params[j + k] mode == .trivial with
    | true => exact hrest found
    | false =>
      cases found with
      | none => exact hrest (some k)
      | some first => rfl

/-- A range that is found to lie inside both lists is compared without a fault. -/
theorem differenceFrom_eq (hi : i + n < UInt64.size) (hj : j + n < UInt64.size) :
    differenceFrom caller i callee j n mode = some (caller.differenceFrom i callee j n mode) := by
  simp only [differenceFrom, add_eq hi, add_eq hj, Option.bind_eq_bind, Option.bind_some,
    Signature.differenceFrom]
  by_cases hin : caller.arity < i + n
  · rw [if_pos hin, if_neg (by omega)]
    rfl
  · by_cases hjn : callee.arity < j + n
    · rw [if_neg hin, if_pos hjn, if_neg (by omega)]
      rfl
    · rw [if_neg hin, if_neg hjn, if_pos (by omega), scan_eq]
      · rfl
      · intro k hk
        rw [List.mem_range] at hk
        omega
      · intro k hk
        rw [List.mem_range] at hk
        omega

theorem difference_eq (hcaller : caller.Storable) (hcallee : callee.Storable) :
    difference caller callee mode = some (caller.difference callee mode) := by
  simp only [difference, Signature.difference]
  split
  · rfl
  · split
    · rfl
    · rename_i harity
      exact differenceFrom_eq (hcaller.lt (by omega)) (hcallee.lt (by omega))

theorem paramsMatch_eq (hcaller : caller.Storable) (hcallee : callee.Storable)
    (hi : i + n ≤ caller.arity) (hj : j + n ≤ callee.arity) :
    paramsMatch caller i callee j n = some (caller.paramsMatch i callee j n) := by
  rw [paramsMatch, differenceFrom_eq (hcaller.lt hi) (hcallee.lt hj)]
  rfl

-- The ranges have to be in bounds: by itself the comparison adds without a look at them.
example : paramsMatch ⟨[.object], .void⟩ 1 ⟨[], .void⟩ 0 18446744073709551615 = none := by decide

end Comparing

/-! ## Retypes and conversions -/

def canRetype (h : Host) (new target : Signature) (mode : Mode) : Option Bool :=
  some (h.retypes mode) <&&> (difference new target mode).map (· == .zero)

/-- The comparison finds the argument before its types are read. -/
def canConvertAt (new target : Signature) (arg : Nat) (operand : Ty) (p : Ty → Bool) :
    Option Bool :=
  (difference new target .checked).map (· == .single arg) <&&>
    (new.param? arg).map p <&&> (target.param? arg).map operand.passesFreely

def canCast (h : Host) (new target : Signature) (arg : Nat) (type : Ty) : Option Bool :=
  some (h.supports .checkCast) <&&> canConvertAt new target arg type fun src => src.casts type

def canPrimCast (h : Host) (new target : Signature) (arg : Nat) (type : Ty) : Option Bool :=
  some (h.supports .primToPrim) <&&> canConvertAt new target arg type fun src => src.primCasts type

def canUnbox (h : Host) (new target : Signature) (arg : Nat) (type : Ty) : Option Bool :=
  match Host.kindNamed? type with
  | some kind =>
    some (h.supports .refToPrim) <&&>
      canConvertAt new target arg (.prim kind) fun src => src.casts (.wrapper kind)
  | none => some false

def canBox (h : Host) (new : Signature) (arg : Nat) (type : Ty) : Option Bool :=
  some (h.supports .primToRef) <&&> some (decide (arg < new.arity)) <&&>
    (new.param? arg).map fun src => src.isBoxedAs type

section Converting

variable {h : Host} {new target : Signature} {arg : Nat} {type : Ty}

theorem canRetype_eq (hnew : new.Storable) (htarget : target.Storable) (mode : Mode) :
    canRetype h new target mode = some (h.canRetype new target mode) :=
  andM_eq rfl fun _ => by rw [difference_eq hnew htarget]; rfl

theorem canConvertAt_eq (hnew : new.Storable) (htarget : target.Storable) (operand : Ty)
    (p : Ty → Bool) :
    canConvertAt new target arg operand p =
      some (Host.canConvertAt new target arg operand p) := by
  refine andM_eq (by rw [difference_eq hnew htarget]; rfl) fun hsingle => ?_
  obtain ⟨-, harity, hdiffers⟩ := Signature.difference_eq_single_iff.mp (beq_iff_eq.mp hsingle)
  have harg : arg < new.arity := ((hdiffers arg).mpr rfl).1
  have hsrc : new.param? arg = some _ := List.getElem?_eq_getElem harg
  have hdst : target.param? arg = some _ :=
    List.getElem?_eq_getElem (Nat.lt_of_lt_of_eq harg harity)
  rw [hsrc, hdst]
  exact andM_eq rfl fun _ => rfl

theorem canCast_eq (hnew : new.Storable) (htarget : target.Storable) :
    canCast h new target arg type = some (h.canCast new target arg type) :=
  andM_eq rfl fun _ => canConvertAt_eq hnew htarget type _

theorem canPrimCast_eq (hnew : new.Storable) (htarget : target.Storable) :
    canPrimCast h new target arg type = some (h.canPrimCast new target arg type) :=
  andM_eq rfl fun _ => canConvertAt_eq hnew htarget type _

theorem canUnbox_eq (hnew : new.Storable) (htarget : target.Storable) :
    canUnbox h new target arg type = some (h.canUnbox new target arg type) := by
  rw [canUnbox, Host.canUnbox]
  cases Host.kindNamed? type with
  | none => rfl
  | some kind => exact andM_eq rfl fun _ => canConvertAt_eq hnew htarget _ _

theorem canBox_eq : canBox h new arg type = some (h.canBox new arg type) := by
  refine andM_eq rfl fun _ => ?_
  cases hsrc : new.param? arg with
  | none =>
    have harg : ¬ arg < new.arity := Nat.not_lt.mpr (List.getElem?_eq_none_iff.mp hsrc)
    rw [decide_eq_false harg]
    rfl
  | some src =>
    have harg : arg < new.arity := (List.getElem?_eq_some_iff.mp hsrc).1
    rw [decide_eq_true harg]
    rfl

end Converting

/-! ## Reshapings -/

def canDrop (h : Host) (new target : Signature) (pos count : Nat) : Option Bool :=
  if count = 0 then canRetype h new target .checked
  else
    (add pos count).elim (some false) fun after =>
      some (h.supports .dropArgs) <&&> some (new.returnsMatch target .checked) <&&>
        some (decide (pos < new.arity)) <&&> some (decide (after ≤ new.arity)) <&&>
        (do return target.arity == (← sub new.arity count)) <&&>
        paramsMatch new 0 target 0 pos <&&>
        (do paramsMatch new after target pos (← sub new.arity after))

def canDup (h : Host) (new target : Signature) (pos count : Nat) : Option Bool :=
  some (h.supports .dupArgs) <&&> some (new.returnsMatch target .checked) <&&>
    some ((add pos count).any fun stop => decide (stop ≤ new.arity)) <&&>
    some (add new.arity count == some target.arity) <&&>
    paramsMatch new 0 target 0 new.arity <&&> paramsMatch new pos target new.arity count

def canSwap (h : Host) (new target : Signature) (first second : Nat) : Option Bool :=
  some (h.supports .swapArgs) <&&> some (decide (first < second)) <&&>
    some (decide (second < new.arity)) <&&> some (target.arity == new.arity) <&&>
    some (new.returnsMatch target .checked) <&&>
    (do return (← new.param? first).slotSize == (← new.param? second).slotSize) <&&>
    paramsMatch new 0 target 0 first <&&>
    paramsMatch new first target second 1 <&&>
    (do paramsMatch new (← add first 1) target (← add first 1) (← sub (← sub second first) 1)) <&&>
    paramsMatch new second target first 1 <&&>
    (do paramsMatch new (← add second 1) target (← add second 1) (← sub (← sub new.arity second) 1))

/-- The remainder is taken in a wider type and cut to a word. -/
def rotationAmount (count : Nat) (amount : Int) : Nat :=
  if count = 0 then 0 else (amount % (count : Int)).toNat % UInt64.size

def isWideRotation (count amount : Nat) : Option Bool :=
  some (decide (Host.maxRotation < amount)) <&&>
    (do return decide (amount < (← sub count Host.maxRotation)))

def canRotate (h : Host) (new target : Signature) (first count : Nat) (amount : Int) :
    Option Bool :=
  some (h.supports .rotateArgs) <&&> some (decide (2 < count)) <&&>
    ((add first count).filter fun stop => decide (stop ≤ new.arity)).elim (some false) fun limit =>
      let right := rotationAmount count amount
      some (decide (right ≠ 0)) <&&> (isWideRotation count right).map (!·) <&&>
        some (target.arity == new.arity) <&&> some (new.returnsMatch target .checked) <&&> do
          let chunk ← sub count right
          paramsMatch new 0 target 0 first <&&>
            (do paramsMatch new first target (← sub limit chunk) chunk) <&&>
            (do paramsMatch new (← add first chunk) target first right) <&&>
            (do paramsMatch new limit target limit (← sub new.arity limit))

def canSpread (h : Host) (new target : Signature) (array : Ty) (pos count : Nat) : Option Bool :=
  some (h.supports .spreadArgs) <&&> some (decide (pos < new.arity)) <&&>
    (do return add (← sub new.arity 1) count == some target.arity) <&&>
    some (new.returnsMatch target .checked) <&&>
    array.elem?.elim (some false) fun elem =>
      (new.param? pos).map (fun incoming => incoming == array || incoming.casts array) <&&>
        paramsMatch new 0 target 0 pos <&&>
        (do
          let rest ← sub (← sub new.arity pos) 1
          paramsMatch new (← add pos 1) target (← add pos count) rest) <&&>
        (List.range count).allM fun i => do
          return elem.passesFreely (← target.param? (← add pos i))

section Reshaping

variable {h : Host} {new target : Signature} {pos count first second : Nat}

theorem canDrop_eq (hnew : new.Storable) (htarget : target.Storable) :
    canDrop h new target pos count = some (h.canDrop new target pos count) := by
  rw [canDrop, Host.canDrop]
  split
  · exact canRetype_eq hnew htarget .checked
  · rename_i hcount
    have hguard : ∀ q, (decide (pos < new.arity) && (decide (pos + count ≤ new.arity) && q)) =
        (decide (pos + count ≤ new.arity) && q) := by
      intro q
      by_cases hin : pos + count ≤ new.arity
      · rw [decide_eq_true (show pos < new.arity by omega), Bool.true_and]
      · simp [hin]
    by_cases hword : pos + count < UInt64.size
    · rw [add_eq hword, Option.elim_some]
      simp only [Bool.and_assoc]
      rw [← hguard]
      refine andM_eq rfl fun _ => andM_eq rfl fun _ => andM_eq rfl fun _ =>
        andM_eq rfl fun hin => ?_
      simp only [decide_eq_true_eq] at hin
      rw [sub_eq (show count ≤ new.arity by omega), sub_eq hin]
      refine andM_eq rfl fun harity => ?_
      simp only [decide_eq_true_eq] at harity
      exact andM_eq (paramsMatch_eq hnew htarget (by omega) (by omega)) fun _ =>
        paramsMatch_eq hnew htarget (by omega) (by omega)
    · have hout : ¬ pos + count ≤ new.arity := fun hin => hword (hnew.lt hin)
      rw [add, if_neg hword, decide_eq_false hout]
      simp

theorem canDup_eq (hnew : new.Storable) (htarget : target.Storable) :
    canDup h new target pos count = some (h.canDup new target pos count) := by
  simp only [canDup, Host.canDup, Bool.and_assoc, any_add (hnew.lt (Nat.le_refl _)),
    add_beq (htarget.lt (Nat.le_refl _))]
  refine andM_eq rfl fun _ => andM_eq rfl fun _ => andM_eq rfl fun hin =>
    andM_eq rfl fun harity => ?_
  simp only [decide_eq_true_eq] at hin harity
  exact andM_eq (paramsMatch_eq hnew htarget (by omega) (by omega)) fun _ =>
    paramsMatch_eq hnew htarget (by omega) (by omega)

theorem canSwap_eq (hnew : new.Storable) (htarget : target.Storable) :
    canSwap h new target first second = some (h.canSwap new target first second) := by
  simp only [canSwap, Host.canSwap, Bool.and_assoc]
  refine andM_eq rfl fun _ => andM_eq rfl fun hlt => andM_eq rfl fun hin =>
    andM_eq rfl fun harity => andM_eq rfl fun _ => ?_
  simp only [decide_eq_true_eq] at hlt hin harity
  have hfirst : new.param? first = some _ := List.getElem?_eq_getElem (Nat.lt_trans hlt hin)
  have hsecond : new.param? second = some _ := List.getElem?_eq_getElem hin
  simp only [hfirst, hsecond, add_eq (hnew.lt (show first + 1 ≤ new.arity by omega)),
    add_eq (hnew.lt (show second + 1 ≤ new.arity by omega)), sub_eq (Nat.le_of_lt hlt),
    sub_eq (Nat.le_of_lt hin), sub_eq (show 1 ≤ second - first by omega),
    sub_eq (show 1 ≤ new.arity - second by omega), Option.bind_eq_bind, Option.bind_some]
  refine andM_eq rfl fun _ =>
    andM_eq (paramsMatch_eq hnew htarget (by omega) (by omega)) fun _ =>
    andM_eq (paramsMatch_eq hnew htarget (by omega) (by omega)) fun _ =>
    andM_eq (paramsMatch_eq hnew htarget (by omega) (by omega)) fun _ =>
    andM_eq (paramsMatch_eq hnew htarget (by omega) (by omega)) fun _ =>
    paramsMatch_eq hnew htarget (by omega) (by omega)

theorem rotationAmount_eq (hcount : count < UInt64.size) (amount : Int) :
    rotationAmount count amount = Host.rotationAmount count amount := by
  rw [rotationAmount, Host.rotationAmount]
  split
  · rfl
  · rename_i hzero
    have hlt := Host.rotationAmount_lt (Nat.pos_of_ne_zero hzero) amount
    rw [Host.rotationAmount, if_neg hzero] at hlt
    exact Nat.mod_eq_of_lt (Nat.lt_trans hlt hcount)

theorem isWideRotation_eq {amount : Nat} (hcount : 2 < count) :
    isWideRotation count amount = some (Host.isWideRotation count amount) := by
  have hle : Host.maxRotation ≤ count := by
    rw [Host.maxRotation]
    omega
  rw [isWideRotation, sub_eq hle]
  exact andM_eq rfl fun _ => rfl

theorem canRotate_eq (hnew : new.Storable) (htarget : target.Storable) (amount : Int) :
    canRotate h new target first count amount =
      some (h.canRotate new target first count amount) := by
  simp only [canRotate, Host.canRotate, Bool.and_assoc]
  refine andM_eq rfl fun _ => andM_eq rfl fun hcount =>
    elim_filter_add (hnew.lt (Nat.le_refl _)) fun hin => ?_
  simp only [decide_eq_true_eq] at hcount
  have hlt := Host.rotationAmount_lt (show 0 < count by omega) amount
  rw [rotationAmount_eq (hnew.lt (by omega)), isWideRotation_eq hcount]
  generalize Host.rotationAmount count amount = right at hlt ⊢
  refine andM_eq rfl fun _ => andM_eq rfl fun _ => andM_eq rfl fun harity => andM_eq rfl fun _ => ?_
  simp only [decide_eq_true_eq] at harity
  have hchunk : first + count - (count - right) = first + right := by omega
  simp only [sub_eq (Nat.le_of_lt hlt), sub_eq (show count - right ≤ first + count by omega),
    hchunk, add_eq (hnew.lt (show first + (count - right) ≤ new.arity by omega)), sub_eq hin,
    Option.bind_eq_bind, Option.bind_some]
  exact andM_eq (paramsMatch_eq hnew htarget (by omega) (by omega)) fun _ =>
    andM_eq (paramsMatch_eq hnew htarget (by omega) (by omega)) fun _ =>
    andM_eq (paramsMatch_eq hnew htarget (by omega) (by omega)) fun _ =>
    paramsMatch_eq hnew htarget (by omega) (by omega)

/-- The parameters that an item has to pass as are all there to be read. -/
theorem allM_passesFreely {elem : Ty} (htarget : target.Storable)
    (hin : pos + count ≤ target.arity) :
    ((List.range count).allM fun i => do
      return elem.passesFreely (← target.param? (← add pos i))) =
      some ((slice pos count target.params).all fun t => elem.passesFreely t) := by
  have hin : pos + count ≤ target.params.length := hin
  refine allM_eq (List.forall₂_iff_get.mpr ⟨?_, fun i hi _ => ?_⟩)
  · simp only [slice, List.length_range, List.length_take, List.length_drop]
    omega
  · rw [List.length_range] at hi
    have hread : target.param? (pos + i) = some _ := List.getElem?_eq_getElem (by omega)
    simp only [slice, List.get_eq_getElem, List.getElem_range, List.getElem_take,
      List.getElem_drop, add_eq (htarget.lt (show pos + i ≤ target.params.length by omega)), hread,
      Option.bind_eq_bind, Option.bind_some, Option.pure_def]

theorem canSpread_eq {array : Ty} (hnew : new.Storable) (htarget : target.Storable) :
    canSpread h new target array pos count = some (h.canSpread new target array pos count) := by
  rw [Host.canSpread]
  cases hsrc : new.param? pos with
  | none =>
    have hpos : ¬ pos < new.arity := Nat.not_lt.mpr (List.getElem?_eq_none_iff.mp hsrc)
    rw [canSpread, decide_eq_false hpos]
    cases h.supports .spreadArgs <;> rfl
  | some incoming =>
    have hpos : pos < new.arity := (List.getElem?_eq_some_iff.mp hsrc).1
    simp only [canSpread, hsrc, sub_eq (show 1 ≤ new.arity by omega), Option.bind_eq_bind,
      Option.bind_some, Option.pure_def, add_beq (htarget.lt (Nat.le_refl _)), decide_eq_true hpos,
      andM_true]
    cases array.elem? with
    | none =>
      cases h.supports .spreadArgs <;> cases new.returnsMatch target .checked <;>
        cases decide (target.arity = new.arity - 1 + count) <;> rfl
    | some elem =>
      simp only [Bool.and_assoc, Option.elim_some]
      refine andM_eq rfl fun _ => andM_eq rfl fun harity => andM_eq rfl fun _ =>
        andM_eq rfl fun _ => ?_
      simp only [decide_eq_true_eq] at harity
      simp only [add_eq (hnew.lt (show pos + 1 ≤ new.arity by omega)),
        add_eq (htarget.lt (show pos + count ≤ target.arity by omega)),
        sub_eq (Nat.le_of_lt hpos), sub_eq (show 1 ≤ new.arity - pos by omega), Option.bind_some]
      refine andM_eq (paramsMatch_eq hnew htarget (by omega) (by omega)) fun _ =>
        andM_eq (paramsMatch_eq hnew htarget (by omega) (by omega)) fun _ => ?_
      exact allM_passesFreely htarget (by omega)

end Reshaping

end Machine

end CallBridge
