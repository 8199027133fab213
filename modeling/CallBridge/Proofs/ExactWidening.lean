import CallBridge.Proofs.Integrals

/-!
# Exact conversions

A conversion to an integral kind keeps the integer up to a multiple of the number of
values. Nothing is lost exactly when the kind it leads to covers the kind it comes
from, and among the kinds that travel as one word these are the free widenings. A
conversion on the way to another kind can be left out if it loses nothing, or if it
loses no bit that the other kind has.
-/

namespace CallBridge

/-! ## Ranges -/

namespace Prim

variable {kind p q : Prim}

theorem wrap_emod (kind : Prim) (n : Int) :
    kind.wrap n % kind.cardinality = n % kind.cardinality := by
  rw [wrap, Int.emod_add_emod, Int.sub_add_cancel]

/-- Only the remainder modulo the number of values counts. -/
theorem wrap_congr {m n : Int} (h : m % kind.cardinality = n % kind.cardinality) :
    kind.wrap m = kind.wrap n := by
  rw [wrap, wrap, Int.sub_emod, h, ← Int.sub_emod]

theorem cardinality_dvd (h : p.bitWidth ≤ q.bitWidth) : p.cardinality ∣ q.cardinality := by
  revert h
  cases p <;> cases q <;> decide

theorem emod_of_bitWidth_le {m n : Int} (h : p.bitWidth ≤ q.bitWidth)
    (hmod : m % q.cardinality = n % q.cardinality) : m % p.cardinality = n % p.cardinality := by
  have hdvd := cardinality_dvd h
  rw [← Int.emod_emod_of_dvd m hdvd, hmod, Int.emod_emod_of_dvd n hdvd]

theorem long_covers (hkind : kind.isIntegral = true) : long.Covers kind := by
  cases kind with
  | float | double => cases hkind
  | boolean | byte | char | short | int | long => exact ⟨by decide, by decide⟩

end Prim

/-! ## Conversions -/

namespace Datum

variable {d : Datum} {kind p q : Prim}

@[simp] theorem kind_ofInt (kind : Prim) (n : Int) : (ofInt kind n).kind = kind := by
  cases kind <;> rfl

theorem ofInt_wrap (hkind : kind.isIntegral = true) (n : Int) :
    ofInt kind (kind.wrap n) = ofInt kind n := by
  have hself : ofInt (ofInt kind n).kind (ofInt kind n).toInt = ofInt kind n :=
    ofInt_toInt (by rwa [kind_ofInt])
  rwa [kind_ofInt, toInt_ofInt hkind] at hself

theorem ofInt_congr {m n : Int} (hkind : kind.isIntegral = true)
    (h : m % kind.cardinality = n % kind.cardinality) : ofInt kind m = ofInt kind n := by
  rw [← ofInt_wrap hkind, Prim.wrap_congr h, ofInt_wrap hkind]

/-- A conversion keeps all integers of a kind if it keeps the least and the greatest one. -/
theorem keepsAll_iff_covers (hp : p.isIntegral = true) (hq : q.isIntegral = true) :
    (∀ d : Datum, d.kind = p → (d.convert q).toInt = d.toInt) ↔ q.Covers p := by
  constructor
  · intro hkeeps
    have hin : ∀ n, p.least ≤ n → n < p.least + p.cardinality →
        q.least ≤ n ∧ n < q.least + q.cardinality := by
      intro n hle hlt
      have hn : (ofInt p n).toInt = n := by rw [toInt_ofInt hp, Prim.wrap_eq_self hle hlt]
      have hkept := hkeeps (ofInt p n) (kind_ofInt p n)
      rw [toInt_convert (by rwa [kind_ofInt]) hq, hn] at hkept
      have hbounds := q.wrap_bounds n
      rwa [hkept] at hbounds
    have hpos := p.cardinality_pos
    have hleast := hin p.least (by omega) (by omega)
    have hgreatest := hin (p.least + p.cardinality - 1) (by omega) (by omega)
    exact ⟨hleast.1, by omega⟩
  · rintro h d rfl
    exact toInt_convert_of_covers hp hq h

/-! ### Conversions on the way -/

theorem convert_convert_of_bitWidth_le (hd : d.kind.isIntegral = true) (hq : q.isIntegral = true)
    (hkind : kind.isIntegral = true) (h : kind.bitWidth ≤ q.bitWidth) :
    (d.convert q).convert kind = d.convert kind := by
  rw [convert_eq_ofInt (by rwa [kind_convert]) hkind, toInt_convert hd hq,
    convert_eq_ofInt hd hkind]
  exact ofInt_congr hkind (Prim.emod_of_bitWidth_le h (q.wrap_emod _))

end Datum

/-! ## Free and exact -/

theorem Ty.passesFreely_iff_widensTo {p q : Prim} (hp : p.fitsWord = true) :
    (Ty.prim p).passesFreely (.prim q) = true ↔ p.widensTo q = true := by
  rw [passesFreely_prim_iff]
  refine ⟨?_, .inr⟩
  rintro (rfl | h)
  · exact Prim.widensTo_iff.mpr ⟨hp, hp, .inl ⟨rfl, Nat.le_refl _⟩⟩
  · exact h

namespace Datum

/-- Among the integral kinds of at most 32 bits, one passes freely for another exactly when the
    conversion keeps the integer of every datum. Between any integral kinds, a conversion on the way
    makes no difference if it goes to no fewer bits than the next one, to `long`, or to a kind that
    the datum passes freely for. -/
theorem converts_exactly_iff_freely :
    (∀ p q : Prim, p.isIntegral = true → p.bitWidth ≤ 32 → q.isIntegral = true → q.bitWidth ≤ 32 →
      ((Ty.prim p).passesFreely (.prim q) = true ↔
        ∀ d : Datum, d.kind = p → (d.convert q).toInt = d.toInt)) ∧
    (∀ (d : Datum) (q kind : Prim), d.kind.isIntegral = true → q.isIntegral = true →
      kind.isIntegral = true → (kind.bitWidth ≤ q.bitWidth ∨ q = .long ∨
        (Ty.prim d.kind).passesFreely (.prim q) = true) →
      (d.convert q).convert kind = d.convert kind) := by
  constructor
  · intro p q hp hp32 hq hq32
    have hpWord : p.fitsWord = true := by simp [Prim.fitsWord, hp, hp32]
    have hqWord : q.fitsWord = true := by simp [Prim.fitsWord, hq, hq32]
    rw [Ty.passesFreely_iff_widensTo hpWord, Prim.widensTo_iff_covers hpWord hqWord,
      keepsAll_iff_covers hp hq]
  · rintro d q kind hd hq hkind (hwidth | rfl | hfree)
    · exact convert_convert_of_bitWidth_le hd hq hkind hwidth
    · apply convert_convert_of_toInt_eq hd hq hkind
      exact toInt_convert_of_covers hd hq (Prim.long_covers hd)
    · rcases Ty.passesFreely_prim_iff.mp hfree with rfl | hwidens
      · rw [convert_self]
      · exact convert_convert_of_widensTo hwidens hkind

/-- A boolean passes freely for a byte. A char does not pass for a short, which has as many bits,
    and its greatest value is lost there; a conversion to a byte still finds all bits it needs. -/
theorem converts_exactly_iff_freely_char :
    (Ty.prim .boolean).passesFreely (.prim .byte) = true ∧
      ((boolean true).convert .byte).toInt = 1 ∧
      (Ty.prim .char).passesFreely (.prim .short) = false ∧
      ((char 65535).convert .short).toInt = -1 ∧
      ((char 65535).convert .short).convert .byte = (char 65535).convert .byte := by
  obtain ⟨hexact, hway⟩ := converts_exactly_iff_freely
  have hbyte := hexact .boolean .byte (by decide) (by decide) (by decide) (by decide)
  have hfree : (Ty.prim .boolean).passesFreely (.prim .byte) = true := by decide
  exact ⟨hfree, hbyte.mp hfree (boolean true) rfl, by decide, by decide,
    hway (char 65535) .short .byte (by decide) (by decide) (by decide) (.inl (by decide))⟩

end Datum

end CallBridge
