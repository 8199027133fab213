import CallBridge.Proofs.Balance
import CallBridge.Proofs.ExactWidening
import CallBridge.Proofs.Retyping

/-!
# Raw retypes

A raw retype reads the bits in the slots of a primitive as another kind, where a
checked one converts the datum. Slots hold an integer of which only the low bits
count, and reading them as a kind of the same slots changes nothing in these: the
datum comes back when it is read as its own kind again, provided that the kind in
between has bits enough. Where the datum passes freely, the bits read as the other
kind are the converted datum, so that both retypes, where both are possible, serve
calls alike.
-/

namespace CallBridge

/-! ## Words and their integers -/

theorem toInt_toInt32_emod (w : UInt32) : w.toInt32.toInt % 4294967296 = w.toNat := by
  have hbalanced : w.toInt32.toInt = (w.toNat : Int).bmod 4294967296 :=
    BitVec.toInt_eq_toNat_bmod w.toBitVec
  have hlt := w.toNat_lt
  rw [hbalanced, Int.bmod_def]
  split <;> omega

theorem toInt_toInt64_emod (w : UInt64) :
    w.toInt64.toInt % 18446744073709551616 = w.toNat := by
  have hbalanced : w.toInt64.toInt = (w.toNat : Int).bmod 18446744073709551616 :=
    BitVec.toInt_eq_toNat_bmod w.toBitVec
  have hlt := w.toNat_lt
  rw [hbalanced, Int.bmod_def]
  split <;> omega

/-! ## Slots -/

theorem Prim.bitWidth_le_of_slotSize {kind : Prim} (h : kind.slotSize = 1) :
    kind.bitWidth ≤ Prim.int.bitWidth := by
  cases kind with
  | long | double => cases h
  | boolean | byte | char | short | int | float => decide

namespace Datum

variable {d a b : Datum} {kind : Prim}

/-- An integer whose low bits are those that the datum leaves in its slots. -/
def image : Datum → Int
  | float bits => bits.toNat
  | double bits => bits.toNat
  | d => d.toInt

theorem image_of_isIntegral (h : d.kind.isIntegral = true) : d.image = d.toInt := by
  cases d with
  | float | double => cases h
  | boolean | byte | char | short | int | long => rfl

/-- A datum is determined by its kind and the bits that this kind has. -/
theorem eq_of_image_emod (hkind : a.kind = b.kind)
    (h : a.image % a.kind.cardinality = b.image % a.kind.cardinality) : a = b := by
  by_cases ha : a.kind.isIntegral = true
  · have hb : b.kind.isIntegral = true := hkind ▸ ha
    obtain ⟨hle, hlt⟩ := toInt_bounds ha
    obtain ⟨hle', hlt'⟩ := toInt_bounds hb
    rw [image_of_isIntegral ha, image_of_isIntegral hb] at h
    have hsame := Prim.wrap_congr h
    rw [Prim.wrap_eq_self hle hlt, hkind, Prim.wrap_eq_self hle' hlt'] at hsame
    rw [← ofInt_toInt ha, hsame, hkind, ofInt_toInt hb]
  · cases a with
    | boolean | byte | char | short | int | long => exact absurd rfl ha
    | float x =>
      cases b with
      | float y =>
        have hx := x.toNat_lt
        have hy := y.toNat_lt
        simp only [image, kind, Prim.cardinality] at h
        exact congrArg float (UInt32.toNat_inj.mp (by omega))
      | boolean | byte | char | short | int | long | double => cases hkind
    | double x =>
      cases b with
      | double y =>
        have hx := x.toNat_lt
        have hy := y.toNat_lt
        simp only [image, kind, Prim.cardinality] at h
        exact congrArg double (UInt64.toNat_inj.mp (by omega))
      | boolean | byte | char | short | int | long | float => cases hkind

/-- A datum of one slot leaves the 32 low bits of its image there. -/
theorem toNat_slotBits_of_one (h : d.kind.slotSize = 1) :
    (d.slotBits.toUInt32.toNat : Int) = d.image % 4294967296 := by
  have hword : ∀ n : Int, ((Int32.ofInt n).toUInt32.toUInt64.toUInt32.toNat : Int) =
      n % 4294967296 := by
    intro n
    rw [UInt32.toUInt32_toUInt64, ← toInt_toInt32_emod, Int32.toInt32_toUInt32,
      Int32.toInt_ofInt]
    exact Int.bmod_emod
  cases d with
  | long | double => cases h
  | boolean | byte | char | short | int => exact hword _
  | float bits =>
    have hlt := bits.toNat_lt
    rw [slotBits, UInt32.toUInt32_toUInt64, image]
    omega

/-- A datum of two slots leaves the 64 low bits of its image there. -/
theorem toNat_slotBits_of_two (h : d.kind.slotSize = 2) :
    (d.slotBits.toNat : Int) = d.image % 18446744073709551616 := by
  cases d with
  | boolean | byte | char | short | int | float => cases h
  | long v =>
    rw [slotBits, ← toInt_toInt64_emod, Int64.toInt64_toUInt64]
    rfl
  | double bits =>
    have hlt := bits.toNat_lt
    rw [slotBits, image]
    omega

/-- What a kind of one slot reads depends on the word there. -/
theorem image_reinterpret_of_one (hd : d.kind.slotSize = 1) (hkind : kind.slotSize = 1) :
    (d.reinterpret kind).image % kind.cardinality = d.image % kind.cardinality := by
  have hbits := toNat_slotBits_of_one hd
  cases kind with
  | long | double => cases hkind
  | float =>
    rw [reinterpret, image, hbits]
    exact Int.emod_emod_of_dvd _ (Int.dvd_refl _)
  | boolean | byte | char | short | int =>
    rw [image_of_isIntegral (by rw [kind_reinterpret]; rfl)]
    simp only [reinterpret]
    rw [toInt_ofInt rfl, Prim.wrap_emod]
    apply Prim.emod_of_bitWidth_le (Prim.bitWidth_le_of_slotSize hkind)
    exact (toInt_toInt32_emod _).trans hbits

theorem image_reinterpret_of_two (hd : d.kind.slotSize = 2) (hkind : kind.slotSize = 2) :
    (d.reinterpret kind).image % kind.cardinality = d.image % kind.cardinality := by
  have hbits := toNat_slotBits_of_two hd
  cases kind with
  | boolean | byte | char | short | int | float => cases hkind
  | long => exact (toInt_toInt64_emod _).trans hbits
  | double =>
    rw [reinterpret, image, hbits]
    exact Int.emod_emod_of_dvd _ (Int.dvd_refl _)

/-- Read as a kind of the same slots, a datum keeps the bits that this kind has. -/
theorem image_reinterpret (h : d.kind.slotSize = kind.slotSize) :
    (d.reinterpret kind).image % kind.cardinality = d.image % kind.cardinality := by
  have hsize : kind.slotSize = 1 ∨ kind.slotSize = 2 := by cases kind <;> decide
  rcases hsize with hone | htwo
  · exact image_reinterpret_of_one (h.trans hone) hone
  · exact image_reinterpret_of_two (h.trans htwo) htwo

/-! ## Reading and converting -/

/-- A datum comes back through a kind that has all its bits. -/
theorem reinterpret_reinterpret (hslots : d.kind.slotSize = kind.slotSize)
    (hwidth : d.kind.bitWidth ≤ kind.bitWidth) : (d.reinterpret kind).reinterpret d.kind = d := by
  have hback : (d.reinterpret kind).kind.slotSize = d.kind.slotSize := by
    rw [kind_reinterpret, hslots]
  apply eq_of_image_emod (kind_reinterpret _ _)
  rw [kind_reinterpret, image_reinterpret hback]
  exact Prim.emod_of_bitWidth_le hwidth (image_reinterpret hslots)

/-- Between integral kinds of the same slots, reading the bits is converting. -/
theorem reinterpret_eq_convert (hd : d.kind.isIntegral = true) (hkind : kind.isIntegral = true)
    (hslots : d.kind.slotSize = kind.slotSize) : d.reinterpret kind = d.convert kind := by
  apply eq_of_image_emod (by rw [kind_reinterpret, kind_convert])
  rw [kind_reinterpret, image_reinterpret hslots, image_of_isIntegral hd,
    image_of_isIntegral (by rwa [kind_convert]), toInt_convert hd hkind, Prim.wrap_emod]

theorem reinterpret_eq_convert_of_passesFreely
    (h : (Ty.prim d.kind).passesFreely (.prim kind) = true) :
    d.reinterpret kind = d.convert kind := by
  rcases Ty.passesFreely_prim_iff.mp h with rfl | hwidens
  · rw [convert_self]
    exact eq_of_image_emod (kind_reinterpret _ _) (by rw [kind_reinterpret, image_reinterpret rfl])
  · obtain ⟨hd, hkind, -⟩ := Prim.widensTo_iff.mp hwidens
    refine reinterpret_eq_convert (Prim.isIntegral_of_fitsWord hd)
      (Prim.isIntegral_of_fitsWord hkind) ?_
    rw [Prim.slotSize_of_fitsWord hd, Prim.slotSize_of_fitsWord hkind]

end Datum

/-! ## Calls -/

namespace Value

variable {v : Value} {src dst : Ty}

/-- Where a value passes freely, it takes the same form in both modes. -/
theorem coerce_raw (hkind : v.KindAgrees src) (h : src.passesFreely dst = true) :
    v.coerce dst true = v.coerce dst false := by
  by_cases hdst : dst = .void
  · rw [hdst, coerce_void, coerce_void]
  · rcases Ty.of_passesFreely h hdst with ⟨p, q, rfl, rfl⟩ | ⟨-, href, -⟩
    · cases v with
      | prim d =>
        obtain rfl := hkind d p rfl rfl
        rw [coerce_prim]
        simp only [coerce]
        split
        · rename_i hsame
          rw [← hsame, Datum.convert_self]
        · rw [Datum.reinterpret_eq_convert_of_passesFreely h, ite_self]
      | void | null | str | boxed | array | object => rfl
    · rw [coerce_of_isReference href, coerce_of_isReference href]

theorem conform_raw (hkind : v.KindAgrees src) (h : src.passesFreely dst = true) :
    v.conform dst true = v.conform dst false := by
  cases v with
  | prim d => exact coerce_raw hkind h
  | void | null | str | boxed | array | object => rfl

theorem conformAll_raw {args : List Value} {srcs dsts : List Ty}
    (hkinds : ∀ (i : Nat) v type, args[i]? = some v → srcs[i]? = some type → v.KindAgrees type)
    (h : Ty.PassAll .checked srcs dsts) :
    conformAll args dsts true = conformAll args dsts false := by
  induction h generalizing args with
  | nil => cases args <;> rfl
  | cons hhead _ ih =>
    cases args with
    | nil => rfl
    | cons v vs =>
      have hrest := ih fun i => hkinds (i + 1)
      have hfirst := conform_raw (hkinds 0 v _ rfl rfl) (Ty.passing_checked_iff.mp hhead)
      simp only [conformAll, hfirst, hrest]

end Value

namespace Host

variable {h : Host} {new : Signature} {t : Handle} {args : List Value}

/-- In front of one handle, a raw and a checked step serve calls alike where all passes freely. -/
theorem invoke_raw_step (hpasses : new.Passes .checked t.signature)
    (hargs : ∀ i v type, args[i]? = some v → new.param? i = some type → v.KindAgrees type)
    (hreturns : ∀ result, t.invoke (Value.conformAll args t.signature.params false) = .ok result →
      result.KindAgrees t.signature.ret) :
    (Handle.adapter new (.retype .raw) t).invoke args =
      (Handle.adapter new (.retype .checked) t).invoke args := by
  by_cases hlen : args.length = new.arity
  · have harity : new.arity = t.signature.arity := hpasses.params.length_eq
    rw [invoke_retype_step harity hlen .raw, invoke_retype_step harity hlen .checked]
    simp only [Step.isRaw, Value.conformAll_raw hargs hpasses.params]
    cases hresult : t.invoke (Value.conformAll args t.signature.params false) with
    | error e => rfl
    | ok result =>
      have hret := Signature.returnsMatch_checked_iff.mp hpasses.ret
      exact congrArg Except.ok (Value.coerce_raw (hreturns result hresult) hret)
  · rw [Handle.invoke, Handle.invoke, Handle.signature_adapter, Handle.signature_adapter,
      if_neg hlen, if_neg hlen]

/-- Read as a kind that it passes freely for, a datum is converted. A handle that can be retyped in
    both modes is, and calls of the two come to the same if primitives have the kinds declared by
    the caller, and the result has the kind declared by the handle. Reading a datum as a kind of the
    same slots that has no fewer bits loses nothing. -/
theorem raw_agrees_with_checked :
    (∀ (d : Datum) (kind : Prim), (Ty.prim d.kind).passesFreely (.prim kind) = true →
      d.reinterpret kind = d.convert kind) ∧
    (∀ (h : Host) (new : Signature) (t : Handle), h.canRetype new t.signature .checked = true →
      h.canRetype new t.signature .raw = true →
      ∃ raw checked, h.retype new t .raw = .ok raw ∧ h.retype new t .checked = .ok checked ∧
        ∀ args : List Value,
          (∀ i v type, args[i]? = some v → new.param? i = some type → v.KindAgrees type) →
          (∀ result, t.invoke (Value.conformAll args t.signature.params false) = .ok result →
            result.KindAgrees t.signature.ret) →
          raw.invoke args = checked.invoke args) ∧
    (∀ (d : Datum) (kind : Prim), d.kind.slotSize = kind.slotSize →
      d.kind.bitWidth ≤ kind.bitWidth → (d.reinterpret kind).reinterpret d.kind = d) := by
  refine ⟨fun d kind => Datum.reinterpret_eq_convert_of_passesFreely, ?_,
    fun d kind => Datum.reinterpret_reinterpret⟩
  intro h new t hchecked hraw
  by_cases hsame : t.signature = new
  · exact ⟨t, t, if_pos hsame, if_pos hsame, fun _ _ _ => rfl⟩
  · have hbuilt : ∀ mode, h.canRetype new t.signature mode = true →
        h.retype new t mode = .ok (.adapter new (.retype mode) t) := by
      intro mode hcan
      rw [retype, if_neg hsame, if_pos hcan]
    refine ⟨_, _, hbuilt .raw hraw, hbuilt .checked hchecked, ?_⟩
    intro args hargs hreturns
    exact invoke_raw_step (canRetype_iff.mp hchecked).2 hargs hreturns

/-- A negative byte and the greatest char reach a function of two ints in either mode; a negative
    short comes back from a char, which has as many bits. -/
theorem raw_agrees_with_checked_byte :
    let t : Handle :=
      .direct "f" ⟨[.prim .int, .prim .int], .prim .int⟩ (HostFunction.nth 0)
    let new : Signature := ⟨[.prim .byte, .prim .char], .prim .int⟩
    let args : List Value := [.prim (.byte (-5)), .prim (.char 65535)]
    (Ty.prim .byte).passesFreely (.prim .int) = true ∧
      (Datum.byte (-5)).reinterpret .int = (Datum.byte (-5)).convert .int ∧
      (∃ raw checked, ({} : Host).retype new t .raw = .ok raw ∧
        ({} : Host).retype new t .checked = .ok checked ∧
        raw.invoke args = checked.invoke args ∧
        checked.invoke args = .ok (.prim (.int (-5)))) ∧
      ((Datum.short (-2)).reinterpret .char).reinterpret .short = .short (-2) := by
  intro t new args
  have hfree : (Ty.prim .byte).passesFreely (.prim .int) = true := by decide
  obtain ⟨hconvert, hretypes, hback⟩ := raw_agrees_with_checked
  obtain ⟨raw, checked, hraw, hchecked, hcalls⟩ := hretypes {} new t (by decide) (by decide)
  have hargs : ∀ i v type, args[i]? = some v → new.param? i = some type → v.KindAgrees type := by
    have hall : List.Forall₂ Value.KindAgrees args new.params := by
      refine .cons ?_ (.cons ?_ .nil) <;> rintro d kind ⟨⟩ ⟨⟩ <;> rfl
    intro i v type hv htype
    obtain ⟨hi, rfl⟩ := List.getElem?_eq_some_iff.mp hv
    obtain ⟨hi', rfl⟩ := List.getElem?_eq_some_iff.mp htype
    exact hall.get hi hi'
  have hreturns : ∀ result, t.invoke (Value.conformAll args t.signature.params false) =
      .ok result → result.KindAgrees t.signature.ret := by
    rintro result ⟨⟩ d kind ⟨⟩ ⟨⟩
    rfl
  refine ⟨hfree, hconvert (.byte (-5)) .int hfree, ⟨raw, checked, hraw, hchecked,
    hcalls args hargs hreturns, ?_⟩, hback (.short (-2)) .char (by decide) (by decide)⟩
  cases hchecked
  rfl

end Host

end CallBridge
