import CallBridge.Proofs.Balance
import CallBridge.Proofs.Packing

/-!
# Recovering steps

A descriptor word holds less than the step it was packed from: one position, one
slot depth, and no counts. The rest follows from the signatures on both sides. If
every parameter has a value, slot depths tell positions apart, so a word together
with its witness type determines the step that was built there.
-/

namespace CallBridge

open Shuffle (slice length_slice)

/-! ## Slot depths -/

theorem Ty.slotSize_pos {t : Ty} (h : t ≠ .void) : 0 < t.slotSize := by
  cases t with
  | void => exact absurd rfl h
  | prim p => cases p <;> decide
  | null | object | cls | iface | array => exact Nat.one_pos

namespace Signature

variable {s : Signature}

/-- Where every type has a value, there are no more types than slots. -/
theorem length_le_slots {ts : List Ty} (h : .void ∉ ts) : ts.length ≤ slots ts := by
  induction ts with
  | nil => exact Nat.le_refl 0
  | cons t ts ih =>
    rw [List.mem_cons, not_or] at h
    have hsize := Ty.slotSize_pos (Ne.symm h.1)
    have hrest := ih h.2
    rw [List.length_cons, slots_cons]
    omega

theorem arity_le_slotCount (h : .void ∉ s.params) : s.arity ≤ s.slotCount :=
  length_le_slots h

theorem slotDepth_le_slotCount (s : Signature) (pos : Nat) : s.slotDepth pos ≤ s.slotCount := by
  have hsum := s.slots_take_add_slotDepth pos
  omega

/-- A later parameter is less deep. -/
theorem slotDepth_lt {i j : Nat} (h : .void ∉ s.params) (hij : i < j) (hj : j ≤ s.arity) :
    s.slotDepth j < s.slotDepth i := by
  have hcut := s.slotDepth_eq_add i (j - i)
  rw [Nat.add_sub_cancel' (Nat.le_of_lt hij)] at hcut
  have hlen : (slice i (j - i) s.params).length = j - i :=
    length_slice (by simp only [arity] at hj; omega)
  have hslots : (slice i (j - i) s.params).length ≤ slots (slice i (j - i) s.params) :=
    length_le_slots fun hmem => h (Shuffle.mem_of_mem_slice hmem)
  omega

theorem slotDepth_inj {i j : Nat} (h : .void ∉ s.params) (hi : i ≤ s.arity) (hj : j ≤ s.arity)
    (heq : s.slotDepth i = s.slotDepth j) : i = j := by
  rcases Nat.lt_trichotomy i j with hlt | hij | hgt
  · have hdepth := slotDepth_lt h hlt hj
    omega
  · exact hij
  · have hdepth := slotDepth_lt h hgt hi
    omega

/-- The first position from which on the parameters take `depth` slots. -/
def positionAt? (s : Signature) (depth : Nat) : Option Nat :=
  (List.range (s.arity + 1)).find? fun i => s.slotDepth i == depth

theorem positionAt?_slotDepth {i : Nat} (h : .void ∉ s.params) (hi : i ≤ s.arity) :
    s.positionAt? (s.slotDepth i) = some i := by
  have hmem : i ∈ List.range (s.arity + 1) := List.mem_range.mpr (Nat.lt_succ_of_le hi)
  unfold positionAt?
  cases hfind : (List.range (s.arity + 1)).find? fun j => s.slotDepth j == s.slotDepth i with
  | none =>
    have hnot := List.find?_eq_none.mp hfind i hmem
    exact absurd (beq_self_eq_true _) hnot
  | some j =>
    have hj := List.mem_range.mp (List.mem_of_find?_eq_some hfind)
    have hdepth := List.find?_some hfind
    simp only [beq_iff_eq] at hdepth
    rw [slotDepth_inj h (Nat.le_of_lt_succ hj) hi hdepth]

end Signature

/-! ## Reading a step -/

/-- The primitive kind that a tag stands for. -/
def Tag.prim? : Tag → Option Prim
  | boolean => some .boolean
  | char => some .char
  | float => some .float
  | double => some .double
  | byte => some .byte
  | short => some .short
  | int => some .int
  | long => some .long
  | object | void => none

@[simp] theorem Tag.prim?_ofPrim (p : Prim) : (Tag.ofPrim p).prim? = some p := by
  cases p <;> rfl

/-- The step between the signatures `s` and `u` that a word stands for. The number of arguments
    dropped, copied or spread is the difference of the arities. The recorded slot is that behind
    the place to which an argument moves; of a rotation it lies before the argument or behind it,
    which tells the direction. -/
def Descriptor.step? (d : Descriptor) (witness : Option Ty) (s u : Signature) : Option Step := do
  match ← d.op? with
  | .retypeOnly => return .retype .checked
  | .retypeRaw => return .retype .raw
  | .checkCast => return .cast (← d.argPos?) (← witness)
  | .primToPrim =>
    return .primCast (← d.argPos?) (← (← d.sourceTag?).prim?) (← (← d.destTag?).prim?)
  | .refToPrim => return .unbox (← d.argPos?) (← (← d.destTag?).prim?) (← witness)
  | .dropArgs =>
    let count := s.arity - u.arity
    let pos := (← d.argPos?) + 1 - count
    return .drop pos count (s.slotsAt pos count)
  | .dupArgs =>
    let count := u.arity - s.arity
    let pos := (← d.argPos?) + 1 - count
    return .dup pos count (s.slotsAt pos count)
  | .swapArgs =>
    return .swap (← d.argPos?) ((← s.positionAt? d.info) - 1) (← d.sourceTag?) d.info
  | .rotateArgs =>
    let moved ← d.argPos?
    let stop ← s.positionAt? d.info
    let tag ← d.sourceTag?
    if stop ≤ moved then
      let first := stop - 1
      return .rotate first (moved + 1 - first) 1 moved tag d.info
    else
      let count := stop - moved
      return .rotate moved count (count - 1) moved tag d.info
  | .spreadArgs =>
    let pos ← d.argPos?
    let count := u.arity + 1 - s.arity
    return .spread pos count (← witness) (u.slotsAt pos count)
  | .primToRef | .collectArgs | .flyby | .ricochet => none

namespace Host

variable {h : Host} {s u : Signature} {step : Step}

theorem arity_of_canDrop {pos count : Nat} (hcount : count ≠ 0)
    (hcan : h.canDrop s u pos count = true) :
    pos + count ≤ s.arity ∧ u.arity = s.arity - count := by
  obtain ⟨-, ⟨-, hin⟩, params, hact, hpass⟩ := (canDrop_iff hcount).mp hcan
  exact ⟨hin, hpass.params.length_eq.symm.trans (Shuffle.length_of_act? hact)⟩

theorem arity_of_canDup {pos count : Nat} (hcount : count ≠ 0)
    (hcan : h.canDup s u pos count = true) :
    pos + count ≤ s.arity ∧ u.arity = s.arity + count := by
  obtain ⟨-, ⟨-, hin⟩, params, hact, hpass⟩ := (canDup_iff hcount).mp hcan
  exact ⟨hin, hpass.params.length_eq.symm.trans (Shuffle.length_of_act? hact)⟩

/-- A verified step addresses an argument of the caller. -/
theorem Verifies.argPos?_lt (hstep : h.Verifies s u step) :
    ∀ pos ∈ step.argPos?, pos < s.arity := by
  intro pos hpos
  cases step with
  | retype mode => cases hpos
  | cast arg type =>
    cases hpos
    have hcan : h.canCast s u pos type = true := hstep
    exact (of_canConvertAt ((Bool.and_eq_true _ _).mp hcan).2).1
  | primCast arg source target =>
    cases hpos
    exact (of_canConvertAt ((Bool.and_eq_true _ _).mp hstep.1).2).1
  | unbox arg target wrapper =>
    cases hpos
    exact (of_canConvertAt ((canUnbox_iff (kindNamed?_prim target)).mp hstep.1).2).1
  | drop first count slots =>
    cases hpos
    have hin := (arity_of_canDrop hstep.1 hstep.2.1).1
    have hcount := hstep.1
    omega
  | dup first count slots =>
    cases hpos
    have hin := (arity_of_canDup hstep.1 hstep.2.1).1
    have hcount := hstep.1
    omega
  | swap first second tag destSlot =>
    cases hpos
    obtain ⟨hlt, hin, -⟩ := (canSwap_iff.mp hstep.1).2.1
    exact Nat.lt_trans hlt hin
  | rotate first count amount moved tag destSlot =>
    cases hpos
    obtain ⟨-, -, ⟨t, hparam, -⟩, -⟩ := hstep
    exact (List.getElem?_eq_some_iff.mp hparam).1
  | spread first count array slots =>
    cases hpos
    exact (arity_of_canSpread hstep.1).1

/-- The destination slot of a verified step is a depth of the caller's parameters. -/
theorem Verifies.destSlot?_le (hstep : h.Verifies s u step) :
    step.destSlot?.getD 0 ≤ s.slotCount := by
  cases step with
  | swap first second tag destSlot =>
    obtain ⟨-, -, rfl⟩ := hstep
    exact s.slotDepth_le_slotCount _
  | rotate first count amount moved tag destSlot =>
    obtain ⟨-, -, -, ⟨-, -, rfl⟩ | ⟨-, -, rfl⟩⟩ := hstep
    · exact s.slotDepth_le_slotCount _
    · exact s.slotDepth_le_slotCount _
  | retype | cast | primCast | unbox | drop | dup | spread => exact Nat.zero_le _

/-- The step is read back from its word, its witness and the signatures around it. -/
theorem Verifies.step?_descriptor (hstep : h.Verifies s u step) (hvoid : .void ∉ s.params)
    (hslots : s.slotCount ≤ 255) (unit : Int32) :
    (step.descriptor unit).step? step.witness? s u = some step := by
  have harity := Signature.arity_le_slotCount hvoid
  have hpos : (step.descriptor unit).argPos? = step.argPos? := by
    apply (step.argPos?_descriptor_iff unit).mpr
    intro pos hmem
    have hlt := hstep.argPos?_lt pos hmem
    omega
  have hinfo : (step.descriptor unit).info = step.destSlot?.getD 0 := by
    rw [Step.info_descriptor]
    have hle := hstep.destSlot?_le
    omega
  unfold Descriptor.step?
  rw [Step.op?_descriptor, Step.sourceTag?_descriptor, Step.destTag?_descriptor, hpos, hinfo]
  cases step with
  | retype mode => cases mode <;> rfl
  | cast arg type => rfl
  | primCast arg source target =>
    simp only [Step.sourceTag?, Step.destTag?, Option.bind_eq_bind, Option.bind_some,
      Tag.prim?_ofPrim]
    rfl
  | unbox arg target wrapper =>
    simp only [Step.destTag?, Option.bind_eq_bind, Option.bind_some, Tag.prim?_ofPrim]
    rfl
  | drop pos count slots =>
    obtain ⟨hcount, hcan, rfl⟩ := hstep
    obtain ⟨hin, hu⟩ := arity_of_canDrop hcount hcan
    have hcount' : s.arity - u.arity = count := by omega
    have hpos' : pos + count - 1 + 1 - count = pos := by omega
    simp only [Step.op, Step.argPos?, Option.bind_eq_bind, Option.bind_some, hcount', hpos']
    rfl
  | dup pos count slots =>
    obtain ⟨hcount, hcan, rfl⟩ := hstep
    obtain ⟨hin, hu⟩ := arity_of_canDup hcount hcan
    have hcount' : u.arity - s.arity = count := by omega
    have hpos' : pos + count - 1 + 1 - count = pos := by omega
    simp only [Step.op, Step.argPos?, Option.bind_eq_bind, Option.bind_some, hcount', hpos']
    rfl
  | swap first second tag destSlot =>
    obtain ⟨hcan, -, rfl⟩ := hstep
    obtain ⟨hlt, hin, -⟩ := (canSwap_iff.mp hcan).2.1
    have hstop : s.positionAt? (s.slotDepth (second + 1)) = some (second + 1) :=
      Signature.positionAt?_slotDepth hvoid hin
    simp only [Step.op, Step.argPos?, Step.destSlot?, Option.bind_eq_bind, Option.bind_some,
      Option.getD_some, hstop]
    rfl
  | rotate first count amount moved tag destSlot =>
    obtain ⟨hlt, hcan, -, hends⟩ := hstep
    obtain ⟨hcount, hin, hamount⟩ := (canRotate_iff.mp hcan).2.1
    rw [rotationAmount_of_lt hlt] at hamount
    rcases hends with ⟨rfl, rfl, rfl⟩ | ⟨hleft, rfl, rfl⟩
    · -- To the right: the destination lies before the argument that moves.
      have hstop : s.positionAt? (s.slotDepth (first + 1)) = some (first + 1) :=
        Signature.positionAt?_slotDepth hvoid (Nat.le_trans (by omega) hin)
      have hbefore : first + 1 ≤ first + count - 1 := by omega
      have hcount' : first + count - 1 + 1 - first = count := by omega
      simp only [Step.op, Step.argPos?, Step.sourceTag?, Step.destSlot?, Option.bind_eq_bind,
        Option.bind_some, Option.getD_some, hstop, if_pos hbefore, Nat.add_sub_cancel, hcount']
      rfl
    · -- To the left: it lies behind.
      have hstop : s.positionAt? (s.slotDepth (moved + count - 1 + 1)) =
          some (moved + count - 1 + 1) :=
        Signature.positionAt?_slotDepth hvoid (Nat.le_trans (by omega) hin)
      have hbehind : ¬ moved + count - 1 + 1 ≤ moved := by omega
      have hcount' : moved + count - 1 + 1 - moved = count := by omega
      have hamount' : count - 1 = amount := by omega
      simp only [Step.op, Step.argPos?, Step.sourceTag?, Step.destSlot?, Option.bind_eq_bind,
        Option.bind_some, Option.getD_some, hstop, if_neg hbehind, hcount', hamount']
      rfl
  | spread pos count array slots =>
    obtain ⟨hcan, rfl, -⟩ := hstep
    obtain ⟨-, hu⟩ := arity_of_canSpread hcan
    have hcount : u.arity + 1 - s.arity = count := by omega
    simp only [Step.op, Step.argPos?, Step.witness?, Option.bind_eq_bind, Option.bind_some, hcount]
    rfl

end Host

/-! ## Words tell steps apart -/

/-- Two steps built anywhere between the same signatures, with a value for each of at most 255
    slots in front, are the same if their words for some stack unit and their witness types are. -/
theorem Step.eq_of_descriptor_eq {hosts hosts' : Host → Prop} {t t' u u' : Handle} {s : Signature}
    {step step' : Step} {unit : Int32} (ht : t.Reachable hosts) (ht' : t'.Reachable hosts')
    (hmem : .adapter s step u ∈ t.chain) (hmem' : .adapter s step' u' ∈ t'.chain)
    (htarget : u.signature = u'.signature) (hvoid : .void ∉ s.params) (hslots : s.slotCount ≤ 255)
    (hword : step.descriptor unit = step'.descriptor unit)
    (hwitness : step.witness? = step'.witness?) : step = step' := by
  obtain ⟨⟨h, -, hstep⟩, -⟩ := ht.verified.of_mem_chain hmem
  obtain ⟨⟨h', -, hstep'⟩, -⟩ := ht'.verified.of_mem_chain hmem'
  have hread := hstep.step?_descriptor hvoid hslots unit
  have hread' := hstep'.step?_descriptor hvoid hslots unit
  rw [hword, hwitness, htarget] at hread
  exact Option.some.inj (hread.symm.trans hread')

/-- A rotation to the right by one and one to the left by two, built for different hosts, are the
    same step; the word of the rotation to the left by one differs. -/
theorem Step.eq_of_descriptor_eq_rotations :
    let f : Handle := .direct "f" ⟨[.prim .int, .prim .int, .prim .int], .object⟩ HostFunction.echo
    let new : Signature := f.signature
    ∃ right right' left : Step,
      ({} : Host).build new f (.rotate 0 3 1) = .ok (.adapter new right f) ∧
      ({ ops := .ofList [.rotateArgs] } : Host).build new f (.rotate 0 3 (-2)) =
        .ok (.adapter new right' f) ∧
      ({} : Host).build new f (.rotate 0 3 (-1)) = .ok (.adapter new left f) ∧
      right.descriptor 0 = right'.descriptor 0 ∧ right = right' ∧
      right.descriptor 0 ≠ left.descriptor 0 := by
  intro f new
  let step : Step := .rotate 0 3 1 2 .int 2
  have hright : ({} : Host).build new f (.rotate 0 3 1) = .ok (.adapter new step f) := rfl
  have hright' : ({ ops := .ofList [.rotateArgs] } : Host).build new f (.rotate 0 3 (-2)) =
      .ok (.adapter new step f) := rfl
  have hleft : ({} : Host).build new f (.rotate 0 3 (-1)) =
      .ok (.adapter new (.rotate 0 3 2 0 .int 0) f) := rfl
  have hreachable : (Handle.adapter new step f).Reachable (· = {}) :=
    .build rfl (.direct _ _ _) hright
  have hreachable' : (Handle.adapter new step f).Reachable (· = { ops := .ofList [.rotateArgs] }) :=
    .build rfl (.direct _ _ _) hright'
  have hword : step.descriptor 0 = step.descriptor 0 := rfl
  refine ⟨step, step, _, hright, hright', hleft, hword, ?_, by decide⟩
  exact Step.eq_of_descriptor_eq hreachable hreachable' List.mem_cons_self List.mem_cons_self rfl
    (by decide) (by decide) hword rfl

end CallBridge
