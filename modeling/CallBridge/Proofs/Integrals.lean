import CallBridge.Proofs.FreePassing

/-!
# Integral data

A datum of an integral kind stands for an integer, and every integer has a datum of
each integral kind: the one whose integer is the same up to a multiple of the number
of values. Conversions between integral kinds therefore depend on the integer alone,
and a free widening keeps it, since the kind it leads to covers the kind it comes
from.
-/

namespace CallBridge

/-! ## Ranges -/

namespace Prim

variable {kind p q : Prim} {n : Int}

/-- The least integer of an integral kind. -/
def least : Prim → Int
  | byte => -128
  | short => -32768
  | int => -2147483648
  | long => -9223372036854775808
  | boolean | char | float | double => 0

/-- The number of values of a kind. -/
def cardinality : Prim → Int
  | boolean => 2
  | byte => 256
  | char | short => 65536
  | int | float => 4294967296
  | long | double => 18446744073709551616

theorem cardinality_pos (kind : Prim) : 0 < kind.cardinality := by
  cases kind <;> decide

/-- The integer of a kind that differs from `n` by a multiple of the number of values. -/
def wrap (kind : Prim) (n : Int) : Int :=
  (n - kind.least) % kind.cardinality + kind.least

theorem wrap_bounds (kind : Prim) (n : Int) :
    kind.least ≤ kind.wrap n ∧ kind.wrap n < kind.least + kind.cardinality := by
  have hpos := kind.cardinality_pos
  have hnonneg := Int.emod_nonneg (n - kind.least) (Int.ne_of_gt hpos)
  have hlt := Int.emod_lt_of_pos (n - kind.least) hpos
  unfold wrap
  omega

theorem wrap_eq_self (hle : kind.least ≤ n) (hlt : n < kind.least + kind.cardinality) :
    kind.wrap n = n := by
  rw [wrap, Int.emod_eq_of_lt (by omega) (by omega)]
  omega

/-- The range of a signed kind is balanced. -/
theorem wrap_of_isSigned (hkind : kind.isSigned = true) (n : Int) :
    kind.wrap n = n.bmod kind.cardinality.toNat := by
  cases kind with
  | boolean | char | float | double => cases hkind
  | byte | short | int | long =>
    simp only [wrap, least, cardinality, Int.bmod_def, Int.reduceToNat]
    split <;> omega

theorem isIntegral_of_fitsWord (h : kind.fitsWord = true) : kind.isIntegral = true :=
  (Bool.and_eq_true_iff.mp h).1

/-- Whether every integer of kind `p` is one of kind `q`. -/
def Covers (q p : Prim) : Prop :=
  q.least ≤ p.least ∧ p.least + p.cardinality ≤ q.least + q.cardinality

/-- Widths and signs say which kinds of one word cover which. -/
theorem widensTo_iff_covers (hp : p.fitsWord = true) (hq : q.fitsWord = true) :
    p.widensTo q = true ↔ q.Covers p := by
  unfold Covers
  revert hp hq
  cases p <;> cases q <;> decide

end Prim

/-! ## Integers and data -/

namespace Datum

variable {d : Datum} {kind q : Prim}

theorem toInt_ofInt (hkind : kind.isIntegral = true) (n : Int) :
    (ofInt kind n).toInt = kind.wrap n := by
  cases kind with
  | float | double => cases hkind
  | boolean =>
    simp only [ofInt, toInt, Prim.wrap, Prim.least, Prim.cardinality, decide_eq_true_eq]
    split <;> omega
  | char =>
    simp only [ofInt, toInt, Prim.wrap, Prim.least, Prim.cardinality, UInt16.ofInt,
      UInt16.toNat_ofNat']
    omega
  | byte =>
    rw [Prim.wrap_of_isSigned rfl]
    exact Int8.toInt_ofInt
  | short =>
    rw [Prim.wrap_of_isSigned rfl]
    exact Int16.toInt_ofInt
  | int =>
    rw [Prim.wrap_of_isSigned rfl]
    exact Int32.toInt_ofInt
  | long =>
    rw [Prim.wrap_of_isSigned rfl]
    exact Int64.toInt_ofInt

theorem ofInt_toInt (hd : d.kind.isIntegral = true) : ofInt d.kind d.toInt = d := by
  cases d with
  | float | double => cases hd
  | boolean b => cases b <;> rfl
  | byte v => exact congrArg byte (Int8.ofInt_toInt v)
  | short v => exact congrArg short (Int16.ofInt_toInt v)
  | int v => exact congrArg int (Int32.ofInt_toInt v)
  | long v => exact congrArg long (Int64.ofInt_toInt v)
  | char v =>
    have hlt := v.toNat_lt
    have hmod : ((v.toNat : Int) % 2 ^ 16).toNat = v.toNat := by omega
    exact congrArg char (by rw [toInt, UInt16.ofInt, hmod, UInt16.ofNat_toNat])

theorem toInt_bounds (hd : d.kind.isIntegral = true) :
    d.kind.least ≤ d.toInt ∧ d.toInt < d.kind.least + d.kind.cardinality := by
  have hself := toInt_ofInt hd d.toInt
  rw [ofInt_toInt hd] at hself
  rw [hself]
  exact d.kind.wrap_bounds d.toInt

/-- Between integral kinds, a conversion looks at nothing but the integer. -/
theorem convert_eq_ofInt (hd : d.kind.isIntegral = true) (hkind : kind.isIntegral = true) :
    d.convert kind = ofInt kind d.toInt := by
  unfold convert
  split
  · rename_i hsame
    rw [← hsame, ofInt_toInt hd]
  · cases kind with
    | float | double => cases hkind
    | boolean | byte | char | short | int | long => rfl

theorem convert_self (d : Datum) : d.convert d.kind = d :=
  if_pos rfl

theorem toInt_convert (hd : d.kind.isIntegral = true) (hq : q.isIntegral = true) :
    (d.convert q).toInt = q.wrap d.toInt := by
  rw [convert_eq_ofInt hd hq, toInt_ofInt hq]

/-! ## Conversions that keep the integer -/

theorem toInt_convert_of_covers (hd : d.kind.isIntegral = true) (hq : q.isIntegral = true)
    (h : q.Covers d.kind) : (d.convert q).toInt = d.toInt := by
  obtain ⟨hleast, hgreatest⟩ := h
  obtain ⟨hle, hlt⟩ := toInt_bounds hd
  rw [toInt_convert hd hq, Prim.wrap_eq_self (by omega) (by omega)]

theorem convert_convert_of_toInt_eq (hd : d.kind.isIntegral = true) (hq : q.isIntegral = true)
    (hkind : kind.isIntegral = true) (h : (d.convert q).toInt = d.toInt) :
    (d.convert q).convert kind = d.convert kind := by
  rw [convert_eq_ofInt (by rwa [kind_convert]) hkind, h, convert_eq_ofInt hd hkind]

/-- A conversion after a free widening comes to the conversion alone. -/
theorem convert_convert_of_widensTo (h : d.kind.widensTo q = true)
    (hkind : kind.isIntegral = true) :
    (d.convert q).convert kind = d.convert kind := by
  obtain ⟨hdWord, hqWord, -⟩ := Prim.widensTo_iff.mp h
  have hd := Prim.isIntegral_of_fitsWord hdWord
  have hq := Prim.isIntegral_of_fitsWord hqWord
  have hcovers := (Prim.widensTo_iff_covers hdWord hqWord).mp h
  exact convert_convert_of_toInt_eq hd hq hkind (toInt_convert_of_covers hd hq hcovers)

end Datum

end CallBridge
