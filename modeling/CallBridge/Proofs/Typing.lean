import CallBridge.Proofs.Calls
import CallBridge.Proofs.Matching

/-!
# Values and their types

What it means for a value to have a declared type. Interfaces are not checked, so
every reference has every interface type; other reference types ask for the class
of the value. A value keeps its type where it passes trivially, which rests on
subtyping being transitive and on interfaces having no classes above them but the
root.
-/

namespace CallBridge

/-! ## Subtyping -/

namespace Ty

theorem isReference_of_accepts {dst src : Ty} (h : dst.accepts src = true)
    (hsrc : src.isReference = true) : dst.isReference = true := by
  cases hdst : dst.isReference with
  | true => rfl
  | false =>
    obtain rfl := (accepts_of_not_isReference hdst).mp h
    rw [hsrc] at hdst
    cases hdst

theorem isDeclared_of_accepts {dst src : Ty} (h : dst.accepts src = true)
    (hsrc : src.isDeclared = true) : dst.isDeclared = true := by
  cases src with
  | void | null | prim | array => cases hsrc
  | object =>
    obtain rfl : dst = object := by simpa [accepts] using h
    rfl
  | cls n s is b =>
    simp only [accepts, Bool.or_eq_true, Bool.and_eq_true, beq_iff_eq] at h
    rcases h with (rfl | rfl) | ⟨hdst, -⟩
    · rfl
    · rfl
    · exact hdst
  | iface n is =>
    simp only [accepts, Bool.or_eq_true, Bool.and_eq_true, beq_iff_eq] at h
    rcases h with (rfl | rfl) | ⟨hdst, -⟩
    · rfl
    · rfl
    · exact hdst

theorem of_accepts_array {dst e : Ty} (h : dst.accepts (array e) = true) :
    dst = object ∨ ∃ d, dst = array d := by
  cases dst with
  | object => exact .inl rfl
  | array d => exact .inr ⟨d, rfl⟩
  | void | null | prim | cls | iface => simp [accepts] at h

/-- Arrays of references vary with their elements, other arrays do not. -/
theorem array_accepts_array {d e : Ty} :
    (array d).accepts (array e) = true ↔
      (d.isReference = true ∧ e.isReference = true ∧ d.accepts e = true) ∨ d = e := by
  have hself : d = e → d.accepts e = true := fun h => h ▸ accepts_self d
  cases hd : d.isReference <;> cases he : e.isReference
  · simp [accepts, hd]
  · simp [accepts, hd]
  · simp [accepts, he]
  · simpa [accepts, hd, he] using hself

mutual

theorem accepts_trans {a b : Ty} : ∀ c : Ty, a.accepts b = true → b.accepts c = true →
    a.accepts c = true
  | void, hab, hbc => by
    obtain rfl : b = void := by simpa [accepts] using hbc
    exact hab
  | null, hab, hbc => by
    have hb : b.isReference = true := by simpa [accepts] using hbc
    simpa [accepts] using isReference_of_accepts hab hb
  | prim p, hab, hbc => by
    obtain rfl : b = prim p := by simpa [accepts] using hbc
    exact hab
  | object, hab, hbc => by
    obtain rfl : b = object := by simpa [accepts] using hbc
    exact hab
  | cls n s is k, hab, hbc => by
    simp only [accepts, Bool.or_eq_true, Bool.and_eq_true, beq_iff_eq] at hbc
    rcases hbc with (rfl | rfl) | ⟨hb, hs | his⟩
    · exact hab
    · obtain rfl : a = object := by simpa [accepts] using hab
      simp [isReference]
    · have ha := isDeclared_of_accepts hab hb
      simp [accepts, ha, accepts_trans s hab hs]
    · have ha := isDeclared_of_accepts hab hb
      simp [accepts, ha, acceptsAny_trans is hab his]
  | iface n is, hab, hbc => by
    simp only [accepts, Bool.or_eq_true, Bool.and_eq_true, beq_iff_eq] at hbc
    rcases hbc with (rfl | rfl) | ⟨hb, his⟩
    · exact hab
    · obtain rfl : a = object := by simpa [accepts] using hab
      simp [isReference]
    · have ha := isDeclared_of_accepts hab hb
      simp [accepts, ha, acceptsAny_trans is hab his]
  | array e, hab, hbc => by
    obtain rfl | ⟨d, rfl⟩ := of_accepts_array hbc
    · obtain rfl : a = object := by simpa [accepts] using hab
      simp [isReference]
    · obtain rfl | ⟨c, rfl⟩ := of_accepts_array hab
      · simp [isReference]
      · rw [array_accepts_array] at hab hbc ⊢
        rcases hab with ⟨hc, hd, hcd⟩ | rfl
        · rcases hbc with ⟨-, he, hde⟩ | rfl
          · exact .inl ⟨hc, he, accepts_trans e hcd hde⟩
          · exact .inl ⟨hc, hd, hcd⟩
        · exact hbc

theorem acceptsAny_trans {a b : Ty} : ∀ cs : List Ty, a.accepts b = true →
    b.acceptsAny cs = true → a.acceptsAny cs = true
  | [], _, hbc => by simp [acceptsAny] at hbc
  | c :: cs, hab, hbc => by
    simp only [acceptsAny, Bool.or_eq_true] at hbc ⊢
    rcases hbc with hbc | hbc
    · exact .inl (accepts_trans c hab hbc)
    · exact .inr (acceptsAny_trans cs hab hbc)

end

end Ty

/-! ## Universes -/

/-- A collection of types in which interfaces extend only interfaces and the root. -/
structure Universe where
  Has : Ty → Prop
  of_iface {name : String} {supers : List Ty} : Has (.iface name supers) →
    ∀ t ∈ supers, Has t ∧ (t = .object ∨ t.isInterface = true)
  of_array {elem : Ty} : Has (.array elem) → Has elem

namespace Universe

variable {U : Universe} {dst : Ty}

mutual

/-- Only the root and other interfaces stand above an interface. -/
theorem of_accepts_interface : ∀ {src : Ty}, U.Has src → src.isInterface = true →
    dst.accepts src = true → dst = .object ∨ dst.isInterface = true
  | .iface n is, hU, _, h => by
    simp only [Ty.accepts, Bool.or_eq_true, Bool.and_eq_true, beq_iff_eq] at h
    rcases h with (rfl | rfl) | ⟨-, his⟩
    · exact .inr rfl
    · exact .inl rfl
    · exact of_acceptsAny_interface (U.of_iface hU) his

theorem of_acceptsAny_interface : ∀ {srcs : List Ty},
    (∀ t ∈ srcs, U.Has t ∧ (t = .object ∨ t.isInterface = true)) →
    dst.acceptsAny srcs = true → dst = .object ∨ dst.isInterface = true
  | src :: srcs, hU, h => by
    obtain ⟨⟨hsrc, hkind⟩, hsrcs⟩ := List.forall_mem_cons.mp hU
    simp only [Ty.acceptsAny, Bool.or_eq_true] at h
    rcases h with h | h
    · rcases hkind with rfl | hkind
      · exact .inl (by simpa [Ty.accepts] using h)
      · exact of_accepts_interface hsrc hkind h
    · exact of_acceptsAny_interface hsrcs h

end

/-! ### Finite universes -/

/-- Whether a list of types is a universe. -/
def isClosed (types : List Ty) : Bool :=
  types.all fun
    | .iface _ supers => supers.all fun t => types.contains t && (t == .object || t.isInterface)
    | .array elem => types.contains elem
    | _ => true

/-- The universe of finitely many types. -/
def ofList (types : List Ty) (h : isClosed types = true) : Universe where
  Has t := t ∈ types
  of_iface hmem t ht := by
    have hiface := List.all_eq_true.mp h _ hmem
    simpa using List.all_eq_true.mp hiface t ht
  of_array hmem := by simpa using List.all_eq_true.mp h _ hmem

instance (types : List Ty) (h : isClosed types = true) (t : Ty) :
    Decidable ((ofList types h).Has t) :=
  inferInstanceAs (Decidable (t ∈ types))

end Universe

/-! ## Typed values -/

namespace Value

def isReference : Value → Bool
  | void | prim _ => false
  | null | str _ | boxed _ | array .. | object _ => true

/-- Whether a value may stand where `type` is declared, going by its own class. -/
def Fits (v : Value) (type : Ty) : Prop :=
  match type with
  | .void => v = void
  | .prim kind => ∃ d : Datum, v = prim d ∧ d.kind = kind
  | .iface .. => v.isReference = true
  | type => v = null ∨ ∃ t, v.runtimeType? = some t ∧ type.accepts t = true

mutual

/-- Whether a value is one of the universe: arrays carry an array type and hold values of its
    element type, opaque objects carry a reference type. -/
def WellFormed (U : Universe) : Value → Prop
  | array (.array elem) items => U.Has (.array elem) ∧ HoldsOnly U elem items
  | array _ _ => False
  | object t => U.Has t ∧ t.isReference = true
  | _ => True

/-- Whether all values of a list have the type `elem`. -/
def HoldsOnly (U : Universe) (elem : Ty) : List Value → Prop
  | [] => True
  | v :: vs => (v.WellFormed U ∧ v.Fits elem) ∧ HoldsOnly U elem vs

end

/-- Whether a value of the universe has a declared type. -/
structure HasType (U : Universe) (v : Value) (type : Ty) : Prop where
  wellFormed : v.WellFormed U
  fits : v.Fits type

variable {U : Universe} {v : Value} {src dst : Ty}

theorem holdsOnly_iff {elem : Ty} {items : List Value} :
    HoldsOnly U elem items ↔ ∀ v ∈ items, v.HasType U elem := by
  induction items with
  | nil => simp [HoldsOnly]
  | cons v vs ih =>
    rw [HoldsOnly, ih, List.forall_mem_cons]
    exact and_congr_left fun _ => ⟨fun h => ⟨h.1, h.2⟩, fun h => ⟨h.1, h.2⟩⟩

/-! ### References -/

theorem isReference_iff : v.isReference = true ↔ v = null ∨ ∃ t, v.runtimeType? = some t := by
  cases v <;> simp [isReference, runtimeType?]

/-- The class of a value is a reference type. -/
theorem WellFormed.isReference_runtimeType? {t : Ty} (hv : v.WellFormed U)
    (ht : v.runtimeType? = some t) : t.isReference = true := by
  cases v with
  | void | null | prim => cases ht
  | str s =>
    cases ht
    rfl
  | boxed d =>
    cases ht
    exact Ty.isReference_wrapper d.kind
  | array type items =>
    cases ht
    cases t with
    | array elem => rfl
    | void | null | prim | object | cls | iface => exact absurd hv (by simp [WellFormed])
  | object type =>
    cases ht
    exact hv.2

theorem fits_iff_accepts (hdst : dst.isReference = true) (hiface : dst.isInterface = false) :
    v.Fits dst ↔ v = null ∨ ∃ t, v.runtimeType? = some t ∧ dst.accepts t = true := by
  cases dst with
  | void | prim => cases hdst
  | iface => cases hiface
  | null | object | cls | array => rfl

theorem fits_interface_iff (hiface : dst.isInterface = true) :
    v.Fits dst ↔ v.isReference = true := by
  cases dst with
  | iface n is => rfl
  | void | null | prim | object | cls | array => cases hiface

theorem Fits.isReference (hv : v.Fits dst) (hdst : dst.isReference = true) :
    v.isReference = true := by
  cases hiface : dst.isInterface with
  | true => exact (fits_interface_iff hiface).mp hv
  | false =>
    rcases (fits_iff_accepts hdst hiface).mp hv with hnull | ⟨t, ht, -⟩
    · exact isReference_iff.mpr (.inl hnull)
    · exact isReference_iff.mpr (.inr ⟨t, ht⟩)

theorem WellFormed.fits_object (hv : v.WellFormed U) (href : v.isReference = true) :
    v.Fits .object := by
  rcases isReference_iff.mp href with hnull | ⟨t, ht⟩
  · exact .inl hnull
  · exact .inr ⟨t, ht, by simpa using hv.isReference_runtimeType? ht⟩

/-- A reference has every type above its own. -/
theorem HasType.of_accepts (hv : v.HasType U src) (hsrc : src.isReference = true)
    (hU : src.isInterface = true → U.Has src) (hdst : dst.accepts src = true) :
    v.HasType U dst := by
  have href := hv.fits.isReference hsrc
  refine ⟨hv.wellFormed, ?_⟩
  cases hiface : dst.isInterface with
  | true => exact (fits_interface_iff hiface).mpr href
  | false =>
    cases hsrcIface : src.isInterface with
    | true =>
      rcases Universe.of_accepts_interface (hU hsrcIface) hsrcIface hdst with rfl | h
      · exact hv.wellFormed.fits_object href
      · rw [hiface] at h
        cases h
    | false =>
      rw [fits_iff_accepts (Ty.isReference_of_accepts hdst hsrc) hiface]
      rcases (fits_iff_accepts hsrc hsrcIface).mp hv.fits with hnull | ⟨t, ht, hacc⟩
      · exact .inl hnull
      · exact .inr ⟨t, ht, Ty.accepts_trans t hdst hacc⟩

end Value

/-! ## Passing typed values -/

namespace Value

variable {U : Universe} {v : Value} {src dst : Ty}

theorem hasType_void : void.HasType U .void :=
  ⟨trivial, rfl⟩

theorem hasType_prim (d : Datum) : (prim d).HasType U (.prim d.kind) :=
  ⟨trivial, d, rfl, rfl⟩

theorem HasType.exists_prim {kind : Prim} (h : v.HasType U (.prim kind)) :
    ∃ d : Datum, v = prim d ∧ d.kind = kind :=
  h.fits

theorem conform_of_isReference (h : v.isReference = true) (type : Ty) (raw : Bool) :
    v.conform type raw = v := by
  cases v with
  | prim d => cases h
  | void | null | str | boxed | array | object => rfl

theorem hasType_coerce_prim (d : Datum) (kind : Prim) (raw : Bool) :
    ((prim d).coerce (.prim kind) raw).HasType U (.prim kind) := by
  obtain ⟨e, he, rfl⟩ := exists_coerce_prim d kind raw
  rw [he]
  exact hasType_prim e

theorem HasType.of_reference (hv : v.HasType U src) (hsrc : src.isReference = true)
    (hU : src.isInterface = true → U.Has src)
    (hdst : dst.isInterface = true ∨ dst.accepts src = true) : v.HasType U dst := by
  rcases hdst with hiface | hacc
  · exact ⟨hv.wellFormed, (fits_interface_iff hiface).mpr (hv.fits.isReference hsrc)⟩
  · exact hv.of_accepts hsrc hU hacc

/-- An argument that passes trivially has the type of the parameter once it is in line with it. -/
theorem HasType.conform {mode : Mode} (hv : v.HasType U src)
    (hpass : src.passing dst mode = .trivial) (hsrc : mode = .raw → src ≠ .void)
    (hdst : dst ≠ .void) (hU : src.isInterface = true → U.Has src) (raw : Bool) :
    (v.conform dst raw).HasType U dst := by
  rcases Ty.of_passing hpass hsrc with ⟨p, q, rfl, rfl⟩ | hfree
  · obtain ⟨d, rfl, -⟩ := hv.exists_prim
    exact hasType_coerce_prim d q raw
  · rcases Ty.of_passesFreely hfree hdst with ⟨p, q, rfl, rfl⟩ | ⟨href, -, habove⟩
    · obtain ⟨d, rfl, -⟩ := hv.exists_prim
      exact hasType_coerce_prim d q raw
    · rw [conform_of_isReference (hv.fits.isReference href)]
      exact hv.of_reference href hU habove

/-- A result that passes freely has the return type it is brought in line with. -/
theorem HasType.coerce (hv : v.HasType U src) (hpass : src.passesFreely dst = true)
    (hU : src.isInterface = true → U.Has src) : (v.coerce dst false).HasType U dst := by
  by_cases hdst : dst = .void
  · subst hdst
    rw [coerce_void]
    exact hasType_void
  · rcases Ty.of_passesFreely hpass hdst with ⟨p, q, rfl, rfl⟩ | ⟨href, href', habove⟩
    · obtain ⟨d, rfl, -⟩ := hv.exists_prim
      exact hasType_coerce_prim d q false
    · rw [coerce_of_isReference href']
      exact hv.of_reference href hU habove

/-- Arguments that pass trivially have the types of the parameters once they are in line. -/
theorem hasTypes_conformAll {args : List Value} {srcs dsts : List Ty} {mode : Mode}
    (hargs : List.Forall₂ (HasType U) args srcs) (hpass : Ty.PassAll mode srcs dsts)
    (hsrcs : mode = .raw → .void ∉ srcs) (hdsts : .void ∉ dsts)
    (hU : ∀ t ∈ srcs, t.isInterface = true → U.Has t) (raw : Bool) :
    List.Forall₂ (HasType U) (conformAll args dsts raw) dsts := by
  induction hargs generalizing dsts with
  | nil =>
    cases hpass
    exact .nil
  | @cons v src vs srcs hv _ ih =>
    cases hpass with
    | @cons _ dst _ dsts hhead htail =>
      rw [List.mem_cons, not_or] at hdsts
      obtain ⟨hUsrc, hU⟩ := List.forall_mem_cons.mp hU
      refine .cons ?_ (ih htail ?_ hdsts.2 hU)
      · apply hv.conform hhead ?_ (Ne.symm hdsts.1) hUsrc
        intro hraw hvoid
        exact hsrcs hraw (by simp [hvoid])
      · intro hraw hvoid
        exact hsrcs hraw (List.mem_cons_of_mem _ hvoid)

end Value

end CallBridge
