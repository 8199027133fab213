import CallBridge.Step.Descriptor

/-!
# Packed steps

What can be read back from the descriptor word of a step. The operation, the tags
and the low bits of the destination slot are found whatever the other fields hold.
A position comes back if it leaves the sign bit of its field clear, and a stack
move if the scaled move fits its twelve bits: a truncated move never divides back
to the right one by accident.
-/

namespace CallBridge

theorem Op.code_lt (op : Op) : op.code < 16 := by
  cases op <;> decide

/-- The code of a tag, zero for none, keeps the tag in four bits. -/
theorem Tag.ofCode?_elim (tag : Option Tag) :
    Tag.ofCode? (BitVec.ofNat 4 (tag.elim 0 Tag.code)).toNat = tag := by
  cases tag with
  | none => rfl
  | some t => cases t <;> rfl

namespace Step

variable (s : Step) (unit : Int32)

/-! ## Fields that are always found -/

@[simp] theorem op?_descriptor : (s.descriptor unit).op? = some s.op := by
  unfold descriptor
  rw [Descriptor.op?_pack, BitVec.toNat_ofNat, Nat.mod_eq_of_lt s.op.code_lt, Op.ofCode?_code]

@[simp] theorem sourceTag?_descriptor : (s.descriptor unit).sourceTag? = s.sourceTag? := by
  unfold descriptor
  rw [Descriptor.sourceTag?_pack, Tag.ofCode?_elim]

@[simp] theorem destTag?_descriptor : (s.descriptor unit).destTag? = s.destTag? := by
  unfold descriptor
  rw [Descriptor.destTag?_pack, Tag.ofCode?_elim]

@[simp] theorem info_descriptor : (s.descriptor unit).info = s.destSlot?.getD 0 % 256 := by
  unfold descriptor
  rw [Descriptor.info_pack, BitVec.toNat_ofNat]

/-! ## Positions -/

/-- A position that is too large comes back as none or as a smaller one. -/
theorem argPos?_descriptor_iff :
    (s.descriptor unit).argPos? = s.argPos? ↔ ∀ pos ∈ s.argPos?, pos < 0x80000000 := by
  unfold descriptor
  rw [Descriptor.argPos?_pack]
  cases hpos : s.argPos? with
  | none =>
    have hones : (BitVec.allOnes 32).msb = true := by decide
    simp only [hones, if_true, Option.not_mem_none, false_implies, implies_true]
  | some pos =>
    have hmsb : (BitVec.ofNat 32 pos).msb = decide (0x80000000 ≤ pos % 0x100000000) := by
      rw [BitVec.msb_eq_decide, BitVec.toNat_ofNat]
    simp only [hmsb, decide_eq_true_eq, BitVec.toNat_ofNat, Option.mem_def, Option.some.injEq,
      forall_eq']
    constructor
    · intro h
      split at h
      · cases h
      · rename_i hclear
        have hself : pos % 0x100000000 = pos := Option.some.inj h
        omega
    · intro hlt
      have hself : pos % 0x100000000 = pos := Nat.mod_eq_of_lt (by omega)
      rw [hself, if_neg (Nat.not_le_of_lt hlt)]

/-! ## Stack moves -/

/-- The recorded move is the exact scaled move, wrapped to twelve bits. -/
theorem toInt_scaledMove_descriptor :
    (s.descriptor unit).scaledMove.toInt =
      (s.stackMove.toInt * unit.toInt).bmod 4096 := by
  unfold descriptor
  rw [Descriptor.scaledMove_pack, Int32.toInt_ofBitVec,
    BitVec.toInt_signExtend_of_le (by decide)]
  generalize hproduct : s.stackMove * unit = product
  calc (product.toBitVec.setWidth 12).toInt
      = (product.toBitVec.toNat : Int).bmod 4096 := BitVec.toInt_setWidth _
    _ = ((product.toBitVec.toNat : Int).bmod (2 ^ 32)).bmod 4096 :=
        (Int.bmod_bmod_of_dvd (by decide)).symm
    _ = product.toInt.bmod 4096 := by
        rw [← BitVec.toInt_eq_toNat_bmod, Int32.toInt_toBitVec]
    _ = ((s.stackMove.toInt * unit.toInt).bmod (2 ^ 32)).bmod 4096 := by
        rw [← hproduct, Int32.toInt_mul]
    _ = (s.stackMove.toInt * unit.toInt).bmod 4096 := Int.bmod_bmod_of_dvd (by decide)

end Step

theorem bmod_twelve_bounds (n : Int) : -2048 ≤ n.bmod 4096 ∧ n.bmod 4096 < 2048 :=
  ⟨Int.le_bmod (by decide), Int.bmod_lt (by decide)⟩

/-- A multiple that is wrapped to twelve bits divides back to the factor only if the wrapping
    did nothing. -/
theorem tdiv_bmod_eq_iff {move unit : Int} (hunit : unit ≠ 0) :
    ((move * unit).bmod 4096).tdiv unit = move ↔
      -2048 ≤ move * unit ∧ move * unit ≤ 2047 := by
  have hbounds := bmod_twelve_bounds (move * unit)
  constructor
  · intro hdiv
    -- The remainder is a multiple of 4096, and no larger than the wrapped number.
    have hsum := Int.mul_tdiv_add_tmod ((move * unit).bmod 4096) unit
    rw [hdiv, Int.mul_comm] at hsum
    have hdvd : (4096 : Int) ∣ move * unit - (move * unit).bmod 4096 := Int.dvd_self_sub_bmod
    have hrem : (((move * unit).bmod 4096).tmod unit).natAbs ≤
        ((move * unit).bmod 4096).natAbs := by
      rw [Int.natAbs_tmod]
      exact Nat.mod_le _ _
    omega
  · rintro ⟨hge, hle⟩
    have hself : (move * unit).bmod 4096 = move * unit :=
      Int.bmod_eq_of_le hge (Int.lt_of_le_of_lt hle (by decide))
    rw [hself, Int.mul_tdiv_cancel move hunit]

namespace Step

variable (s : Step) {unit : Int32}

theorem stackMove?_descriptor_iff (hunit : unit ≠ 0) :
    (s.descriptor unit).stackMove? unit = some s.stackMove ↔
      -2048 ≤ s.stackMove.toInt * unit.toInt ∧ s.stackMove.toInt * unit.toInt ≤ 2047 := by
  have hunit' : unit.toInt ≠ 0 := by
    intro hzero
    exact hunit (Int32.toInt_inj.mp hzero)
  have hquotient : ((s.descriptor unit).scaledMove / unit).toInt =
      ((s.stackMove.toInt * unit.toInt).bmod 4096).tdiv unit.toInt := by
    rw [Int32.toInt_div, toInt_scaledMove_descriptor]
    generalize s.stackMove.toInt * unit.toInt = product
    have hbounds := bmod_twelve_bounds product
    have hsize : ((product.bmod 4096).tdiv unit.toInt).natAbs ≤
        (product.bmod 4096).natAbs := by
      rw [Int.natAbs_tdiv]
      exact Nat.div_le_self _ _
    apply Int.bmod_eq_of_le
    · omega
    · omega
  unfold Descriptor.stackMove?
  rw [if_neg hunit, Option.some.injEq, ← Int32.toInt_inj, hquotient, tdiv_bmod_eq_iff hunit']

/-! ## The whole word -/

/-- What a descriptor word tells of its step. The operation, the tags and the destination slot
    modulo 256 are read back whatever the other fields hold; the position exactly if there is none
    or its high bit is clear, and the stack move exactly if it fits twelve bits after scaling. -/
theorem descriptor_reads_back (s : Step) (unit : Int32) (hunit : unit ≠ 0) :
    (s.descriptor unit).op? = some s.op ∧
    (s.descriptor unit).sourceTag? = s.sourceTag? ∧
    (s.descriptor unit).destTag? = s.destTag? ∧
    (s.descriptor unit).info = (match s with
      | swap _ _ _ slot | rotate _ _ _ _ _ slot => slot % 256
      | _ => 0) ∧
    ((s.descriptor unit).argPos? = s.argPos? ↔ ∀ pos ∈ s.argPos?, pos < 0x80000000) ∧
    ((s.descriptor unit).stackMove? unit = some s.stackMove ↔
      -2048 ≤ s.stackMove.toInt * unit.toInt ∧ s.stackMove.toInt * unit.toInt ≤ 2047) := by
  refine ⟨s.op?_descriptor unit, s.sourceTag?_descriptor unit, s.destTag?_descriptor unit, ?_,
    s.argPos?_descriptor_iff unit, s.stackMove?_descriptor_iff hunit⟩
  rw [info_descriptor]
  cases s <;> rfl

/-- A drop at the first position that does not fit, of more slots than a unit of three allows. -/
theorem descriptor_reads_back_wide_drop :
    let s : Step := .drop 0x80000000 1 700
    (s.descriptor (-3)).op? = some .dropArgs ∧ (s.descriptor (-3)).sourceTag? = none ∧
      (s.descriptor (-3)).argPos? ≠ some 0x80000000 ∧
      (s.descriptor (-3)).stackMove? (-3) ≠ some (-700) := by
  intro s
  obtain ⟨hop, hsource, -, -, hpos, hmove⟩ := descriptor_reads_back s (-3) (by decide)
  refine ⟨hop, hsource, ?_, ?_⟩
  · intro hread
    exact absurd (hpos.mp hread _ rfl) (by decide)
  · intro hread
    exact absurd (hmove.mp hread) (by decide)

end Step

end CallBridge
