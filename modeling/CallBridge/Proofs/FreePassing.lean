import CallBridge.Proofs.SubtypeOrder

/-!
# Passing freely in several steps

A value that passes freely to one type and from there to another passes freely to
the other at once. For references this is not plain subtyping, since every reference
passes for an interface: it takes that nothing but the root and other interfaces
stands above an interface. Whole signatures follow, with arguments going one way
and results the other.
-/

namespace CallBridge

/-! ## Primitives -/

namespace Prim

variable {p q r : Prim}

theorem widensTo_iff : p.widensTo q = true ↔ p.fitsWord = true ∧ q.fitsWord = true ∧
    ((p.isSigned = q.isSigned ∧ p.bitWidth ≤ q.bitWidth) ∨
      (p.isSigned = false ∧ q.isSigned = true ∧ p.bitWidth < q.bitWidth)) := by
  unfold widensTo
  cases p.isSigned <;> cases q.isSigned <;> simp [and_assoc]

theorem widensTo_trans (hpq : p.widensTo q = true) (hqr : q.widensTo r = true) :
    p.widensTo r = true := by
  rw [widensTo_iff] at hpq hqr ⊢
  obtain ⟨hp, -, hpq⟩ := hpq
  obtain ⟨-, hr, hqr⟩ := hqr
  refine ⟨hp, hr, ?_⟩
  rcases hpq with ⟨hsame, hle⟩ | ⟨hpos, hneg, hlt⟩
  · rcases hqr with ⟨hsame', hle'⟩ | ⟨hpos, hneg, hlt⟩
    · exact .inl ⟨hsame.trans hsame', Nat.le_trans hle hle'⟩
    · exact .inr ⟨hsame.trans hpos, hneg, Nat.lt_of_le_of_lt hle hlt⟩
  · rcases hqr with ⟨hsame', hle'⟩ | ⟨hpos', -⟩
    · exact .inr ⟨hpos, hsame'.symm.trans hneg, Nat.lt_of_lt_of_le hlt hle'⟩
    · rw [hneg] at hpos'
      cases hpos'

end Prim

/-! ## Types -/

namespace Ty

variable {U : Universe} {src mid dst : Ty} {p q : Prim}

theorem passesFreely_prim_iff :
    (prim p).passesFreely (prim q) = true ↔ p = q ∨ p.widensTo q = true := by
  simp [passesFreely]

/-- Void passes freely for void only. -/
theorem eq_void_of_passesFreely (h : void.passesFreely dst = true) : dst = void := by
  by_contra hdst
  rcases of_passesFreely h hdst with ⟨p, q, hsrc, -⟩ | ⟨hsrc, -⟩
  · cases hsrc
  · cases hsrc

theorem passesFreely_prim_trans {r : Prim} (hpq : (prim p).passesFreely (prim q) = true)
    (hqr : (prim q).passesFreely (prim r) = true) : (prim p).passesFreely (prim r) = true := by
  rw [passesFreely_prim_iff] at hpq hqr ⊢
  rcases hpq with rfl | hpq
  · exact hqr
  · rcases hqr with rfl | hqr
    · exact .inr hpq
    · exact .inr (Prim.widensTo_trans hpq hqr)

/-- What stands above an interface, or is one, takes all that passes for the interface. -/
theorem above_trans (hmid : U.Has mid) (hsrc : src.isReference = true)
    (h : mid.isInterface = true ∨ mid.accepts src = true)
    (h' : dst.isInterface = true ∨ dst.accepts mid = true) :
    dst.isInterface = true ∨ dst.accepts src = true := by
  rcases h' with hiface | hacc
  · exact .inl hiface
  · rcases h with hiface | hacc'
    · rcases Universe.of_accepts_interface hmid hiface hacc with rfl | hiface'
      · exact .inr (by simpa using hsrc)
      · exact .inl hiface'
    · exact .inr (accepts_trans src hacc hacc')

theorem passesFreely_trans (hmid : U.Has mid) (h : src.passesFreely mid = true)
    (h' : mid.passesFreely dst = true) : src.passesFreely dst = true := by
  by_cases hdst : dst = void
  · rw [hdst]
    exact passesFreely_void src
  · have hvoid : mid ≠ void := by
      rintro rfl
      exact hdst (eq_void_of_passesFreely h')
    rcases of_passesFreely h hvoid with ⟨p, q, rfl, rfl⟩ | ⟨hsrc, href, habove⟩
    · rcases of_passesFreely h' hdst with ⟨_, r, -, rfl⟩ | ⟨href, -⟩
      · exact passesFreely_prim_trans h h'
      · cases href
    · rcases of_passesFreely h' hdst with ⟨_, r, rfl, -⟩ | ⟨-, href', habove'⟩
      · cases href
      · exact passesFreely_of_isReference hsrc href' (above_trans hmid hsrc habove habove')

theorem passAll_trans {srcs mids dsts : List Ty} (hmids : ∀ t ∈ mids, U.Has t)
    (h : PassAll .checked srcs mids) (h' : PassAll .checked mids dsts) :
    PassAll .checked srcs dsts := by
  induction h generalizing dsts with
  | nil => exact h'
  | cons hhead _ ih =>
    cases h' with
    | cons hhead' htail' =>
      obtain ⟨hmid, hmids⟩ := List.forall_mem_cons.mp hmids
      rw [passing_checked_iff] at hhead hhead'
      exact .cons (passing_checked_iff.mpr (passesFreely_trans hmid hhead hhead')) (ih hmids htail')

end Ty

/-! ## Signatures -/

namespace Signature

variable {U : Universe} {a b c : Signature}

/-- The types of a signature. -/
def types (s : Signature) : List Ty :=
  s.ret :: s.params

theorem passesFreely_iff : a.passesFreely b = true ↔ a.Passes .checked b := by
  have hparams : Ty.PassAll .checked a.params b.params ↔ a.params.length = b.params.length ∧
      ∀ src dst, (src, dst) ∈ a.params.zip b.params → src.passesFreely dst = true := by
    rw [Ty.PassAll, List.forall₂_iff_zip]
    simp only [Ty.passing_checked_iff]
  simp only [passesFreely, Bool.and_eq_true, beq_iff_eq, List.all_eq_true, Prod.forall, arity]
  constructor
  · rintro ⟨⟨harity, hret⟩, hall⟩
    exact ⟨returnsMatch_checked_iff.mpr hret, hparams.mpr ⟨harity, hall⟩⟩
  · rintro ⟨hret, hpass⟩
    obtain ⟨harity, hall⟩ := hparams.mp hpass
    exact ⟨⟨harity, returnsMatch_checked_iff.mp hret⟩, hall⟩

/-- Arguments pass from `a` through `b` to `c`, and results the other way. -/
theorem Passes.trans (hb : ∀ t ∈ b.types, U.Has t) (hab : a.Passes .checked b)
    (hbc : b.Passes .checked c) : a.Passes .checked c := by
  obtain ⟨hret, hparams⟩ := List.forall_mem_cons.mp hb
  refine ⟨returnsMatch_checked_iff.mpr ?_, Ty.passAll_trans hparams hab.params hbc.params⟩
  exact Ty.passesFreely_trans hret (returnsMatch_checked_iff.mp hbc.ret)
    (returnsMatch_checked_iff.mp hab.ret)

end Signature

theorem Host.canRetype_iff {h : Host} {new target : Signature} {mode : Mode} :
    h.canRetype new target mode = true ↔ h.retypes mode = true ∧ new.Passes mode target := by
  rw [canRetype, Bool.and_eq_true, beq_iff_eq, Signature.difference_eq_zero_iff]

/-! ## Registries -/

/-- Whether the interfaces of a registry extend only interfaces and the root. -/
def Registry.PlainInterfaces (r : Registry) : Prop :=
  ∀ t ∈ r.types, t.isInterface = true → ∀ u ∈ t.supertypes, u = .object ∨ u.isInterface = true

/-- The universe of all registered types. -/
def Universe.ofRegistry (r : Registry) (hr : r.SelfContained) (hifaces : r.PlainInterfaces) :
    Universe where
  Has t := t ∈ r.types
  of_iface hmem t ht :=
    ⟨hr _ hmem t (Ty.mem_parts_of_mem_supertypes ht), hifaces _ hmem rfl t ht⟩
  of_array hmem := hr _ hmem _ List.mem_cons_self

namespace Registry

/-- In a registry whose interfaces extend only interfaces and the root, every type passes freely for
    itself, and what passes freely from type to type passes freely at once. The same holds of calls
    of one signature that are handed to a function of another, and so of retypes. -/
theorem free_passing_composes (queries : List Query) (hqueries : initial.Sourced queries)
    (hifaces : (initial.after queries).PlainInterfaces) :
    let r := initial.after queries
    (∀ t : Ty, t.passesFreely t = true) ∧
    (∀ src dst : Ty, ∀ mid ∈ r.types, src.passesFreely mid = true → mid.passesFreely dst = true →
      src.passesFreely dst = true) ∧
    (∀ a b c : Signature, (∀ t ∈ b.types, t ∈ r.types) → a.passesFreely b = true →
      b.passesFreely c = true → a.passesFreely c = true) ∧
    (∀ (h : Host) (a b c : Signature), (∀ t ∈ b.types, t ∈ r.types) →
      h.canRetype a b .checked = true → h.canRetype b c .checked = true →
      h.canRetype a c .checked = true) := by
  intro r
  let U := Universe.ofRegistry r (selfContained_initial.after hqueries) hifaces
  have hpasses : ∀ {a b c : Signature}, (∀ t ∈ b.types, t ∈ r.types) → a.Passes .checked b →
      b.Passes .checked c → a.Passes .checked c :=
    fun hb => Signature.Passes.trans (U := U) hb
  refine ⟨Ty.passesFreely_refl, ?_, ?_, ?_⟩
  · intro src dst mid hmid
    exact Ty.passesFreely_trans (U := U) hmid
  · intro a b c hb hab hbc
    rw [Signature.passesFreely_iff] at hab hbc ⊢
    exact hpasses hb hab hbc
  · intro h a b c hb hab hbc
    rw [Host.canRetype_iff] at hab hbc ⊢
    exact ⟨hab.1, hpasses hb hab.2 hbc.2⟩

/-- A string passes for an interface and from there for the root; a byte passes for a short and from
    there for an int; the result goes from a char through an int to nothing. -/
theorem free_passing_composes_interface :
    let list : Ty := .iface "List" []
    let queue : Ty := .iface "Queue" [list, .object]
    let queries : List Query :=
      [.declare (.iface "List" []), .declare (.iface "Queue" [list, .object])]
    let a : Signature := ⟨[.string, .null, .prim .byte], .void⟩
    let b : Signature := ⟨[queue, queue, .prim .short], .prim .int⟩
    let c : Signature := ⟨[.object, list, .prim .int], .prim .char⟩
    initial.Sourced queries ∧ (initial.after queries).PlainInterfaces ∧
      (∀ t ∈ b.types, t ∈ (initial.after queries).types) ∧
      a.passesFreely b = true ∧ b.passesFreely c = true ∧ a.passesFreely c = true ∧
      ({} : Host).canRetype a c .checked = true := by
  intro list queue queries a b c
  have hqueries : initial.Sourced queries := ⟨by decide, by decide, trivial⟩
  have hifaces : (initial.after queries).PlainInterfaces := by
    unfold PlainInterfaces
    decide
  have hb : ∀ t ∈ b.types, t ∈ (initial.after queries).types := by decide
  obtain ⟨-, -, hsignatures, hretypes⟩ := free_passing_composes queries hqueries hifaces
  exact ⟨hqueries, hifaces, hb, rfl, rfl, hsignatures a b c hb rfl rfl,
    hretypes {} a b c hb (by decide) (by decide)⟩

/-- Below an interface that extends a class, strings pass where they do not belong. -/
example :
    let odd : Ty := .iface "Odd" [.number]
    Ty.string.passesFreely odd = true ∧ odd.passesFreely .number = true ∧
      Ty.string.passesFreely .number = false := by decide

end Registry

end CallBridge
