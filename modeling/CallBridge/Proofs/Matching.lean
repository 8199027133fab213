import CallBridge.Elementary.Reshape
import CallBridge.Proofs.Path
import Mathlib.Data.List.Forall2

/-!
# Matching parameter lists

The comparisons of signatures, read as relations between lists of types: every
type of the caller passes trivially as the type at the same place of the callee.
Each reshaping of an argument list is possible exactly when the host runs it, it
fits the caller's parameters, and the reshaped parameters match the target's.
-/

namespace CallBridge

open Shuffle (slice length_slice getElem?_slice slice_to_end)

/-! ## Lists of types -/

theorem forall₂_replicate_right_iff {α β : Type} {R : α → β → Prop} {xs : List α} {y : β}
    {n : Nat} : List.Forall₂ R xs (List.replicate n y) ↔ xs.length = n ∧ ∀ x ∈ xs, R x y := by
  have hcopies : List.Forall₂ R xs (List.replicate xs.length y) ↔ ∀ x ∈ xs, R x y := by
    rw [← List.map_const', List.forall₂_map_right_iff, List.forall₂_same]
  constructor
  · intro h
    obtain rfl : xs.length = n := by simpa using h.length_eq
    exact ⟨rfl, hcopies.mp h⟩
  · rintro ⟨rfl, h⟩
    exact hcopies.mpr h

theorem forall₂_replicate_left_iff {α β : Type} {R : α → β → Prop} {x : α} {ys : List β} {n : Nat} :
    List.Forall₂ R (List.replicate n x) ys ↔ ys.length = n ∧ ∀ y ∈ ys, R x y := by
  have hcopies : List.Forall₂ R (List.replicate ys.length x) ys ↔ ∀ y ∈ ys, R x y := by
    rw [← List.map_const', List.forall₂_map_left_iff, List.forall₂_same]
  constructor
  · intro h
    obtain rfl : n = ys.length := by simpa using h.length_eq
    exact ⟨rfl, hcopies.mp h⟩
  · rintro ⟨rfl, h⟩
    exact hcopies.mpr h

namespace Ty

/-- Every type of the first list passes trivially as the type at the same place of the second. -/
def PassAll (mode : Mode) (srcs dsts : List Ty) : Prop :=
  List.Forall₂ (fun src dst => src.passing dst mode = .trivial) srcs dsts

theorem passing_checked_iff {src dst : Ty} :
    src.passing dst .checked = .trivial ↔ src.passesFreely dst = true := by
  simp only [passing, passingChecked]
  split
  · simp [*]
  · split <;> simp [*]

/-- What passes freely is a primitive for a primitive, or a reference for an interface or for a type
    above its own. -/
theorem of_passesFreely {src dst : Ty} (h : src.passesFreely dst = true) (hdst : dst ≠ .void) :
    (∃ p q, src = .prim p ∧ dst = .prim q) ∨ (src.isReference = true ∧
      dst.isReference = true ∧ (dst.isInterface = true ∨ dst.accepts src = true)) := by
  unfold passesFreely at h
  rw [Bool.or_eq_true, beq_iff_eq] at h
  rcases h with rfl | h
  · cases src with
    | void => exact absurd rfl hdst
    | prim p => exact .inl ⟨p, p, rfl, rfl⟩
    | null | object | cls | iface | array => exact .inr ⟨rfl, rfl, .inr (accepts_self _)⟩
  · split at h
    · exact absurd rfl hdst
    · exact .inr ⟨rfl, h, .inr (by simpa [accepts] using h)⟩
    · exact .inl ⟨_, _, rfl, rfl⟩
    · simp only [Bool.and_eq_true, Bool.or_eq_true] at h
      exact .inr ⟨h.1.1, h.1.2, h.2⟩

theorem passesFreely_of_isReference {src dst : Ty} (hsrc : src.isReference = true)
    (hdst : dst.isReference = true) (h : dst.isInterface = true ∨ dst.accepts src = true) :
    src.passesFreely dst = true := by
  unfold passesFreely
  rw [Bool.or_eq_true]
  right
  split
  · rfl
  · exact hdst
  · cases hsrc
  · rw [hsrc, hdst, Bool.true_and, Bool.true_and, Bool.or_eq_true]
    exact h

/-- Raw passing adds only primitives to what passes freely, if there is a value at all. -/
theorem of_passing {src dst : Ty} {mode : Mode} (h : src.passing dst mode = .trivial)
    (hsrc : mode = .raw → src ≠ .void) :
    (∃ p q, src = .prim p ∧ dst = .prim q) ∨ src.passesFreely dst = true := by
  cases mode with
  | checked => exact .inr (passing_checked_iff.mp h)
  | raw =>
    simp only [passing, passingRaw] at h
    split at h
    · exact .inl ⟨_, _, rfl, rfl⟩
    · exact absurd rfl (hsrc rfl)
    · exact .inr (passing_checked_iff.mp h)

theorem elem?_eq_some_iff {t elem : Ty} : t.elem? = some elem ↔ t = .array elem := by
  cases t <;> simp [elem?]

theorem passesFreely_void (src : Ty) : src.passesFreely .void = true := by
  cases src <;> rfl

theorem not_passesFreely_prim {src : Ty} (h : src.isReference = true) (kind : Prim) :
    src.passesFreely (.prim kind) = false := by
  cases src with
  | void | prim => cases h
  | null | object | cls | iface | array => rfl

namespace PassAll

variable {mode : Mode} {ss ts us vs : List Ty}

theorem length_eq (h : PassAll mode ss ts) : ss.length = ts.length :=
  List.Forall₂.length_eq h

theorem append_iff (hlen : ss.length = us.length) :
    PassAll mode (ss ++ ts) (us ++ vs) ↔ PassAll mode ss us ∧ PassAll mode ts vs := by
  constructor
  · intro h
    have htake := List.forall₂_take ss.length h
    have hdrop := List.forall₂_drop ss.length h
    rw [List.take_left' rfl, List.take_left' hlen.symm] at htake
    rw [List.drop_left' rfl, List.drop_left' hlen.symm] at hdrop
    exact ⟨htake, hdrop⟩
  · rintro ⟨h₁, h₂⟩
    exact List.rel_append h₁ h₂

end PassAll

/-- A list of types matches itself. -/
theorem passAll_refl (ts : List Ty) : PassAll .checked ts ts :=
  List.forall₂_same.mpr fun t _ => passing_checked_iff.mpr (passesFreely_refl t)

/-- Copies of one type match a list if that type passes as each of them. -/
theorem passAll_replicate_iff {elem : Ty} {n : Nat} {ts : List Ty} :
    PassAll .checked (List.replicate n elem) ts ↔
      ts.length = n ∧ ∀ t ∈ ts, elem.passesFreely t = true := by
  rw [PassAll, forall₂_replicate_left_iff]
  simp only [passing_checked_iff]

end Ty

/-! ## Signatures -/

namespace Signature

variable {caller callee : Signature} {mode : Mode}

/-- Every argument passes trivially from `caller` to `callee`, and the result passes back. -/
structure Passes (mode : Mode) (caller callee : Signature) : Prop where
  ret : caller.returnsMatch callee mode = true
  params : Ty.PassAll mode caller.params callee.params

theorem returnsMatch_checked_iff :
    caller.returnsMatch callee .checked = true ↔ callee.ret.passesFreely caller.ret = true := by
  simp [returnsMatch, Ty.passing_checked_iff]

theorem passes_refl (s : Signature) : s.Passes .checked s where
  ret := returnsMatch_checked_iff.mpr (Ty.passesFreely_refl s.ret)
  params := Ty.passAll_refl s.params

theorem differsAt_eq_false_iff {i j : Nat} :
    caller.differsAt callee mode i j = false ↔
      ∃ src dst, caller.param? i = some src ∧ callee.param? j = some dst ∧
        src.passing dst mode = .trivial := by
  simp only [differsAt]
  split
  · rename_i src dst hsrc hdst
    simp [hsrc, hdst]
  · rename_i hnone
    simp only [Bool.true_eq_false, false_iff]
    rintro ⟨src, dst, hsrc, hdst, -⟩
    exact hnone src dst hsrc hdst

/-- Ranges compare as equal when their types match one by one. -/
theorem differenceFrom_eq_zero_iff {i j n : Nat} :
    caller.differenceFrom i callee j n mode = .zero ↔
      i + n ≤ caller.arity ∧ j + n ≤ callee.arity ∧
        Ty.PassAll mode (slice i n caller.params) (slice j n callee.params) := by
  simp only [differenceFrom]
  split
  · rename_i hin
    have hi := length_slice hin.1
    have hj := length_slice hin.2
    rw [Difference.ofPositions_eq_zero_iff, List.filter_eq_nil_iff]
    simp only [List.mem_range, Bool.not_eq_true, differsAt_eq_false_iff, Ty.PassAll,
      List.forall₂_iff_get, hi, hj, hin.1, hin.2, true_and, param?]
    refine forall_congr' fun k => ?_
    constructor
    · rintro h hk -
      obtain ⟨src, dst, hsrc, hdst, hpass⟩ := h hk
      rw [← getElem?_slice hk, List.getElem?_eq_some_iff] at hsrc hdst
      obtain ⟨_, rfl⟩ := hsrc
      obtain ⟨_, rfl⟩ := hdst
      exact hpass
    · intro h hk
      refine ⟨_, _, ?_, ?_, h hk hk⟩
      · rw [← getElem?_slice hk, List.get_eq_getElem, List.getElem?_eq_getElem]
      · rw [← getElem?_slice hk, List.get_eq_getElem, List.getElem?_eq_getElem]
  · rename_i hout
    simp only [reduceCtorEq, false_iff]
    rintro ⟨hi, hj, -⟩
    exact hout ⟨hi, hj⟩

theorem paramsMatch_iff {i j n : Nat} :
    caller.paramsMatch i callee j n = true ↔
      i + n ≤ caller.arity ∧ j + n ≤ callee.arity ∧
        Ty.PassAll .checked (slice i n caller.params) (slice j n callee.params) := by
  rw [paramsMatch, beq_iff_eq, differenceFrom_eq_zero_iff]

/-- Signatures whose results and arities agree compare by the positions that differ. -/
theorem difference_eq (hret : caller.returnsMatch callee mode = true)
    (harity : caller.arity = callee.arity) :
    caller.difference callee mode = .ofPositions
      ((List.range caller.arity).filter fun k => caller.differsAt callee mode k k) := by
  simp only [difference, hret, harity, differenceFrom, Bool.not_true, Bool.false_eq_true,
    if_false, Nat.zero_add, ne_eq, not_true_eq_false, Nat.le_refl, and_self, if_true]

theorem of_difference_ne_incompatible (h : caller.difference callee mode ≠ .incompatible) :
    caller.returnsMatch callee mode = true ∧ caller.arity = callee.arity := by
  simp only [difference] at h
  split at h
  · exact absurd rfl h
  · rename_i hret
    split at h
    · exact absurd rfl h
    · rename_i harity
      exact ⟨by simpa using hret, by simpa using harity⟩

theorem difference_eq_zero_iff :
    caller.difference callee mode = .zero ↔ Passes mode caller callee := by
  have hwhole : caller.arity = callee.arity →
      (caller.differenceFrom 0 callee 0 caller.arity mode = .zero ↔
        Ty.PassAll mode caller.params callee.params) := by
    intro harity
    rw [differenceFrom_eq_zero_iff, Nat.zero_add, ← harity, slice_to_end (by simp [arity]),
      slice_to_end (by rw [Nat.zero_add]; exact Nat.le_of_eq harity.symm)]
    simp
  constructor
  · intro h
    obtain ⟨hret, harity⟩ := of_difference_ne_incompatible (by rw [h]; simp)
    rw [difference, hret] at h
    exact ⟨hret, (hwhole harity).mp (by simpa [harity] using h)⟩
  · rintro ⟨hret, hpass⟩
    have harity : caller.arity = callee.arity := hpass.length_eq
    rw [difference, hret]
    simpa [harity] using (hwhole harity).mpr hpass

/-- The signatures differ at one position only. -/
theorem difference_eq_single_iff {arg : Nat} :
    caller.difference callee mode = .single arg ↔
      caller.returnsMatch callee mode = true ∧ caller.arity = callee.arity ∧
        ∀ k, (k < caller.arity ∧ caller.differsAt callee mode k k = true) ↔ k = arg := by
  have hmem : ∀ k,
      k ∈ (List.range caller.arity).filter (fun k => caller.differsAt callee mode k k) ↔
        k < caller.arity ∧ caller.differsAt callee mode k k = true := by
    intro k
    rw [List.mem_filter, List.mem_range]
  constructor
  · intro h
    obtain ⟨hret, harity⟩ := of_difference_ne_incompatible (by rw [h]; simp)
    rw [difference_eq hret harity, Difference.ofPositions_eq_single_iff] at h
    refine ⟨hret, harity, fun k => ?_⟩
    rw [← hmem, h, List.mem_singleton]
  · rintro ⟨hret, harity, hdiffers⟩
    rw [difference_eq hret harity, Difference.ofPositions_eq_single_iff, ← List.perm_singleton]
    rw [List.perm_ext_iff_of_nodup (List.nodup_range.filter _) (by simp)]
    intro k
    rw [hmem, hdiffers, List.mem_singleton]

end Signature

/-! ## Comparing in segments -/

namespace Signature

variable {caller callee : Signature}

/-- Segments of the caller's parameters, given by start and length, match the callee's parameters
    from `start` on one after the other, up to the end. -/
def MatchesFrom (caller callee : Signature) : (start : Nat) → List (Nat × Nat) → Prop
  | start, [] => callee.arity = start
  | start, (i, n) :: rest =>
    caller.paramsMatch i callee start n = true ∧ caller.MatchesFrom callee (start + n) rest

/-- The segments match one by one exactly when their concatenation matches. -/
theorem matchesFrom_iff {segments : List (Nat × Nat)} {start : Nat}
    (hin : ∀ seg ∈ segments, seg.1 + seg.2 ≤ caller.arity) (hstart : start ≤ callee.arity) :
    caller.MatchesFrom callee start segments ↔
      Ty.PassAll .checked (segments.flatMap fun (i, n) => slice i n caller.params)
        (callee.params.drop start) := by
  induction segments generalizing start with
  | nil =>
    simp only [MatchesFrom, List.flatMap_nil, Ty.PassAll, List.forall₂_nil_left_iff,
      List.drop_eq_nil_iff]
    exact ⟨fun h => Nat.le_of_eq h, fun h => Nat.le_antisymm h hstart⟩
  | cons seg rest ih =>
    obtain ⟨i, n⟩ := seg
    have hi : i + n ≤ caller.arity := hin (i, n) List.mem_cons_self
    have hrest : ∀ seg ∈ rest, seg.1 + seg.2 ≤ caller.arity :=
      fun seg hseg => hin seg (List.mem_cons_of_mem _ hseg)
    have hcut : callee.params.drop start =
        slice start n callee.params ++ callee.params.drop (start + n) := by
      rw [slice, ← List.drop_drop, List.take_append_drop]
    simp only [MatchesFrom, List.flatMap_cons, paramsMatch_iff]
    constructor
    · rintro ⟨⟨-, hend, hpass⟩, hmore⟩
      rw [hcut, Ty.PassAll.append_iff hpass.length_eq]
      exact ⟨hpass, (ih hrest hend).mp hmore⟩
    · intro h
      have hend : start + n ≤ callee.arity := by
        have hlen := h.length_eq
        rw [List.length_append, length_slice hi, List.length_drop] at hlen
        simp only [arity] at *
        omega
      rw [hcut, Ty.PassAll.append_iff (by rw [length_slice hi, length_slice hend])] at h
      exact ⟨⟨hi, hend, h.1⟩, (ih hrest hend).mpr h.2⟩

end Signature

/-! ## Converting one argument -/

namespace Signature

variable {new : Signature} {arg : Nat} {type : Ty}

theorem param?_withParam_ne {i : Nat} (h : i ≠ arg) :
    (new.withParam arg type).param? i = new.param? i := by
  simp [param?, List.getElem?_set_ne (Ne.symm h)]

theorem param?_withParam_self (h : arg < new.arity) :
    (new.withParam arg type).param? arg = some type := by
  simp [param?, List.getElem?_set_self h]

end Signature

namespace Host

variable {new target : Signature} {arg : Nat} {operand : Ty} {p : Ty → Bool}

theorem canConvertAt_iff :
    canConvertAt new target arg operand p = true ↔
      new.difference target .checked = .single arg ∧ ∃ src dst, new.param? arg = some src ∧
        target.param? arg = some dst ∧ p src = true ∧ operand.passesFreely dst = true := by
  simp only [canConvertAt, Bool.and_eq_true, beq_iff_eq]
  refine and_congr_right fun _ => ?_
  split
  · rename_i src dst hsrc hdst
    simp [hsrc, hdst]
  · rename_i hnone
    simp only [Bool.false_eq_true, false_iff]
    rintro ⟨src, dst, hsrc, hdst, -⟩
    exact hnone src dst hsrc hdst

theorem of_canConvertAt (h : canConvertAt new target arg operand p = true) :
    arg < new.arity ∧ new.arity = target.arity := by
  obtain ⟨hdiff, src, dst, hsrc, -⟩ := canConvertAt_iff.mp h
  obtain ⟨-, harity, -⟩ := Signature.difference_eq_single_iff.mp hdiff
  exact ⟨(List.getElem?_eq_some_iff.mp hsrc).1, harity⟩

/-- The argument that is converted does not pass by itself. -/
theorem not_passesFreely_of_single {src dst : Ty}
    (h : new.difference target .checked = .single arg) (hsrc : new.param? arg = some src)
    (hdst : target.param? arg = some dst) : src.passesFreely dst = false := by
  obtain ⟨-, -, hdiffers⟩ := Signature.difference_eq_single_iff.mp h
  have hdiffer := ((hdiffers arg).mpr rfl).2
  simp only [Signature.differsAt, hsrc, hdst, bne_iff_ne, ne_eq, Ty.passing_checked_iff] at hdiffer
  simpa using hdiffer

/-- Once the argument is converted, everything passes. -/
theorem passes_of_canConvertAt (h : canConvertAt new target arg operand p = true) :
    (new.withParam arg operand).Passes .checked target := by
  obtain ⟨hdiff, src, dst, -, hdst, -, hoperand⟩ := canConvertAt_iff.mp h
  obtain ⟨hret, harity, hdiffers⟩ := Signature.difference_eq_single_iff.mp hdiff
  have hret' : (new.withParam arg operand).returnsMatch target .checked = true := hret
  rw [← Signature.difference_eq_zero_iff, Signature.difference_eq hret' (by simpa using harity),
    Difference.ofPositions_eq_zero_iff, List.filter_eq_nil_iff, Signature.arity_withParam]
  intro k hk
  rw [List.mem_range] at hk
  rw [Bool.not_eq_true]
  by_cases hka : k = arg
  · subst hka
    exact Signature.differsAt_eq_false_iff.mpr ⟨operand, dst, Signature.param?_withParam_self hk,
      hdst, Ty.passing_checked_iff.mpr hoperand⟩
  · have hnot := mt (hdiffers k).mp hka
    rw [Signature.differsAt, Signature.param?_withParam_ne hka, ← Signature.differsAt]
    simpa [hk] using hnot

end Host

/-! ## Reshaping -/

namespace Shuffle

/-- Shuffled, the parameters of `new` match those of `target`, and the result passes back. -/
def Feeds (s : Shuffle) (new target : Signature) : Prop :=
  ∃ params, s.act? new.params = some params ∧ (new.withParams params).Passes .checked target

/-- A shuffle that rearranges segments feeds a target that they match. -/
theorem feeds_iff {s : Shuffle} {new target : Signature} (segments : List (Nat × Nat))
    (hact : s.act? new.params = some (segments.flatMap fun (i, n) => slice i n new.params))
    (hin : ∀ seg ∈ segments, seg.1 + seg.2 ≤ new.arity) :
    s.Feeds new target ↔
      new.returnsMatch target .checked = true ∧ new.MatchesFrom target 0 segments := by
  rw [Feeds, Signature.matchesFrom_iff hin (Nat.zero_le _), List.drop_zero]
  simp only [hact, Option.some.injEq, exists_eq_left']
  exact ⟨fun h => ⟨h.ret, h.params⟩, fun h => ⟨h.1, h.2⟩⟩

end Shuffle

namespace Host

variable {h : Host} {new target : Signature}

theorem canDrop_iff {pos count : Nat} (hcount : count ≠ 0) :
    h.canDrop new target pos count = true ↔ h.supports .dropArgs = true ∧
      (Shuffle.drop pos count).Buildable Ty.slotSize new.params ∧
      (Shuffle.drop pos count).Feeds new target := by
  have hfeeds : pos + count ≤ new.arity → ((Shuffle.drop pos count).Feeds new target ↔ _) :=
    fun hin => Shuffle.feeds_iff [(0, pos), (pos + count, new.arity - (pos + count))]
      (by rw [Shuffle.act?_drop_eq hin]; simp [Signature.arity]) (by simp; omega)
  simp only [Signature.MatchesFrom, Nat.zero_add] at hfeeds
  simp only [canDrop, if_neg hcount, Bool.and_eq_true, decide_eq_true_eq, Shuffle.Buildable]
  constructor
  · rintro ⟨⟨⟨⟨⟨hop, hret⟩, hin⟩, harity⟩, hfront⟩, hback⟩
    exact ⟨hop, ⟨by omega, hin⟩, (hfeeds hin).mpr ⟨hret, hfront, hback, by omega⟩⟩
  · rintro ⟨hop, ⟨-, hin⟩, hfeed⟩
    have hin : pos + count ≤ new.arity := hin
    obtain ⟨hret, hfront, hback, harity⟩ := (hfeeds hin).mp hfeed
    exact ⟨⟨⟨⟨⟨hop, hret⟩, hin⟩, by omega⟩, hfront⟩, hback⟩

theorem canDup_iff {pos count : Nat} (hcount : count ≠ 0) :
    h.canDup new target pos count = true ↔ h.supports .dupArgs = true ∧
      (Shuffle.dup pos count).Buildable Ty.slotSize new.params ∧
      (Shuffle.dup pos count).Feeds new target := by
  have hfeeds : pos + count ≤ new.arity → ((Shuffle.dup pos count).Feeds new target ↔ _) :=
    fun hin => Shuffle.feeds_iff [(0, new.arity), (pos, count)]
      (by rw [Shuffle.act?_dup_eq hin]; simp [Signature.arity]) (by simp; omega)
  simp only [Signature.MatchesFrom, Nat.zero_add] at hfeeds
  simp only [canDup, Bool.and_eq_true, decide_eq_true_eq, Shuffle.Buildable, and_assoc]
  constructor
  · rintro ⟨hop, hret, hin, harity, hfront, hcopies⟩
    exact ⟨hop, by omega, hin, (hfeeds hin).mpr ⟨hret, hfront, hcopies, harity⟩⟩
  · rintro ⟨hop, -, hin, hfeed⟩
    obtain ⟨hret, hfront, hcopies, harity⟩ := (hfeeds hin).mp hfeed
    exact ⟨hop, hret, hin, harity, hfront, hcopies⟩

theorem canSwap_iff {first second : Nat} :
    h.canSwap new target first second = true ↔ h.supports .swapArgs = true ∧
      (Shuffle.swap first second).Buildable Ty.slotSize new.params ∧
      (Shuffle.swap first second).Feeds new target := by
  have hfeeds : first < second → second < new.arity →
      ((Shuffle.swap first second).Feeds new target ↔ _) :=
    fun hlt hin => Shuffle.feeds_iff [(0, first), (second, 1),
        (first + 1, second - first - 1), (first, 1), (second + 1, new.arity - second - 1)]
      (by rw [Shuffle.act?_swap_eq hlt hin]; simp [Signature.arity]) (by simp; omega)
  have hmid : first < second → first + 1 + (second - first - 1) = second := by omega
  simp only [Signature.MatchesFrom, Nat.zero_add] at hfeeds
  simp only [canSwap, Bool.and_eq_true, decide_eq_true_eq, beq_iff_eq, Shuffle.Buildable,
    and_assoc]
  constructor
  · rintro ⟨hop, hlt, hin, harity, hret, hsize, hfront, hthere, hbetween, hback, hend⟩
    refine ⟨hop, hlt, hin, hsize, (hfeeds hlt hin).mpr ?_⟩
    rw [hmid hlt]
    exact ⟨hret, hfront, hback, hbetween, hthere, hend, by omega⟩
  · rintro ⟨hop, hlt, hin, hsize, hfeed⟩
    have hin : second < new.arity := hin
    have hparts := (hfeeds hlt hin).mp hfeed
    rw [hmid hlt] at hparts
    obtain ⟨hret, hfront, hback, hbetween, hthere, hend, harity⟩ := hparts
    exact ⟨hop, hlt, hin, by omega, hret, hsize, hfront, hthere, hbetween, hback, hend⟩

/-- Rotations that move one argument across at least two others. -/
theorem not_isWideRotation_iff {count right : Nat} (hcount : 2 < count) (hlt : right < count) :
    (right ≠ 0 ∧ isWideRotation count right = false) ↔ (right = 1 ∨ right = count - 1) := by
  have hwide :
      isWideRotation count right = (decide (1 < right) && decide (right < count - 1)) := rfl
  simp only [hwide, Bool.and_eq_false_iff, decide_eq_false_iff_not]
  omega

theorem rotationAmount_lt {count : Nat} (hcount : 0 < count) (amount : Int) :
    rotationAmount count amount < count := by
  rw [rotationAmount, if_neg (by omega)]
  have hlt := Int.emod_lt_of_pos amount (by omega : (0 : Int) < count)
  have hnonneg := Int.emod_nonneg amount (by omega : (count : Int) ≠ 0)
  omega

theorem rotationAmount_of_lt {count amount : Nat} (hlt : amount < count) :
    rotationAmount count amount = amount := by
  rw [rotationAmount, if_neg (by omega), ← Int.natCast_emod, Int.toNat_natCast,
    Nat.mod_eq_of_lt hlt]

theorem canRotate_iff {first count : Nat} {amount : Int} :
    h.canRotate new target first count amount = true ↔ h.supports .rotateArgs = true ∧
      (Shuffle.rotate first count (rotationAmount count amount)).Buildable Ty.slotSize new.params ∧
      (Shuffle.rotate first count (rotationAmount count amount)).Feeds new target := by
  have hlt : 2 < count → rotationAmount count amount < count :=
    fun hcount => rotationAmount_lt (by omega) amount
  generalize hright : rotationAmount count amount = right at *
  have hfeeds : first + count ≤ new.arity → right < count →
      ((Shuffle.rotate first count right).Feeds new target ↔ _) :=
    fun hin hlt => Shuffle.feeds_iff [(0, first), (first + (count - right), right),
        (first, count - right), (first + count, new.arity - (first + count))]
      (by rw [Shuffle.act?_rotate_eq hin (Nat.le_of_lt hlt)]; simp [Signature.arity])
      (by simp; omega)
  simp only [Signature.MatchesFrom, Nat.zero_add] at hfeeds
  have hend : right < count → first + right + (count - right) = first + count := by omega
  simp only [canRotate, hright, Bool.and_eq_true, decide_eq_true_eq, Bool.not_eq_true',
    Shuffle.Buildable, and_assoc]
  constructor
  · rintro ⟨hop, hcount, hin, hzero, hwide, harity, hret, hfront, hone, htwo, hback⟩
    have hamount := (not_isWideRotation_iff hcount (hlt hcount)).mp ⟨hzero, hwide⟩
    refine ⟨hop, hcount, hin, hamount, (hfeeds hin (hlt hcount)).mpr ?_⟩
    rw [hend (hlt hcount)]
    exact ⟨hret, hfront, htwo, hone, hback, by omega⟩
  · rintro ⟨hop, hcount, hin, hamount, hfeed⟩
    have hin : first + count ≤ new.arity := hin
    have hparts := (hfeeds hin (hlt hcount)).mp hfeed
    rw [hend (hlt hcount)] at hparts
    obtain ⟨hret, hfront, htwo, hone, hback, harity⟩ := hparts
    obtain ⟨hzero, hwide⟩ := (not_isWideRotation_iff hcount (hlt hcount)).mpr hamount
    exact ⟨hop, hcount, hin, hzero, hwide, by omega, hret, hfront, hone, htwo, hback⟩

/-- Spreading puts copies of the element type where the array stood. -/
theorem canSpread_iff {array : Ty} {pos count : Nat} :
    h.canSpread new target array pos count = true ↔
      h.supports .spreadArgs = true ∧ ∃ incoming elem, new.param? pos = some incoming ∧
        array = .array elem ∧ (incoming = array ∨ incoming.casts array = true) ∧
        (new.withParams (new.params.take pos ++ (List.replicate count elem ++
          new.params.drop (pos + 1)))).Passes .checked target := by
  simp only [canSpread]
  split
  · rename_i incoming elem hincoming helem
    have hpos : pos < new.arity := (List.getElem?_eq_some_iff.mp hincoming).1
    obtain rfl : array = .array elem := Ty.elem?_eq_some_iff.mp helem
    have hfront : (new.params.take pos).length = pos := by
      simp only [List.length_take, Signature.arity] at *
      omega
    have hlen : (new.params.drop (pos + 1)).length = new.arity - pos - 1 := by
      rw [List.length_drop, Signature.arity]
      omega
    have hback : slice (pos + 1) (new.arity - pos - 1) new.params = new.params.drop (pos + 1) :=
      slice_to_end (by simp only [Signature.arity]; omega)
    have hparts : target.arity = new.arity - 1 + count → target.params =
        slice 0 pos target.params ++ (slice pos count target.params ++
          slice (pos + count) (new.arity - pos - 1) target.params) := by
      intro harity
      have hwhole : slice 0 (pos + (count + (new.arity - pos - 1))) target.params =
          target.params := slice_to_end (by simp only [Signature.arity] at *; omega)
      rwa [Shuffle.slice_add, Shuffle.slice_add, Nat.zero_add, eq_comm] at hwhole
    simp only [Bool.and_eq_true, decide_eq_true_eq, Bool.or_eq_true, beq_iff_eq,
      Signature.paramsMatch_iff, List.all_eq_true, and_assoc]
    constructor
    · rintro ⟨hop, harity, hret, hcast, -, -, hfirst, -, -, hlast, hitems⟩
      refine ⟨hop, incoming, elem, hincoming, rfl, hcast, hret, ?_⟩
      rw [Signature.params_withParams, hparts harity]
      rw [hback] at hlast
      refine List.rel_append hfirst (List.rel_append ?_ hlast)
      have hcount : pos + count ≤ target.arity := by omega
      exact Ty.passAll_replicate_iff.mpr ⟨length_slice hcount, hitems⟩
    · rintro ⟨hop, incoming', elem', hincoming', helem', hcast, hret, hparams⟩
      obtain rfl := Option.some.inj (hincoming.symm.trans hincoming')
      obtain rfl : elem = elem' := by simpa using helem'
      have harity : target.arity = new.arity - 1 + count := by
        have hlength := hparams.length_eq
        simp only [Signature.params_withParams, List.length_append, hfront, hlen,
          List.length_replicate, Signature.arity] at *
        omega
      have hcount : pos + count ≤ target.arity := by omega
      rw [Signature.params_withParams, hparts harity, Ty.PassAll.append_iff, Ty.PassAll.append_iff,
        Ty.passAll_replicate_iff] at hparams
      · obtain ⟨hfirst, ⟨-, hitems⟩, hlast⟩ := hparams
        rw [← hback] at hlast
        exact ⟨hop, harity, hret, hcast, by omega, by omega, hfirst, by omega, by omega, hlast,
          hitems⟩
      · rw [List.length_replicate, length_slice hcount]
      · rw [hfront, length_slice (show 0 + pos ≤ target.arity by omega)]
  · rename_i hnone
    constructor
    · intro hfalse
      cases hfalse
    · rintro ⟨-, incoming, elem, hincoming, rfl, -⟩
      exact absurd rfl (hnone incoming elem hincoming)

theorem arity_of_canSpread {array : Ty} {pos count : Nat}
    (hcan : h.canSpread new target array pos count = true) :
    pos < new.arity ∧ target.arity + 1 = new.arity + count := by
  obtain ⟨-, incoming, elem, hincoming, -, -, hpass⟩ := canSpread_iff.mp hcan
  have hpos : pos < new.arity := (List.getElem?_eq_some_iff.mp hincoming).1
  have hlen := hpass.params.length_eq
  simp only [Signature.params_withParams, List.length_append, List.length_take,
    List.length_replicate, List.length_drop, Signature.arity] at *
  omega

end Host

end CallBridge
