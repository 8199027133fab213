import CallBridge.Proofs.FreePassing
import CallBridge.Proofs.MachinePredicates
import Mathlib.Data.Set.Subsingleton
import Mathlib.Order.Bounds.Basic

/-!
# What a difference tells

A comparison of two ranges of parameters counts the positions that differ up to
two and keeps the least. What it answers is said here by the set of these
positions, counted from the start of the ranges, and is the same whether the
search looks at all of them or stops at the second. Raw mode only lets more
values pass, so that no position differs in it that does not in checked mode.
-/

namespace CallBridge

/-! ## Sets of positions -/

namespace Difference

/-- Whether a difference tells that two ranges do not fit their lists, or else whether there are no,
    one or several differing offsets, and the least. -/
structure Classifies (d : Difference) (fits : Prop) (offsets : Set Nat) : Prop where
  incompatible_iff : d = .incompatible ↔ ¬ fits
  zero_iff : d = .zero ↔ fits ∧ offsets = ∅
  single_iff (k : Nat) : d = .single k ↔ fits ∧ offsets = {k}
  multiple_iff (k : Nat) : d = .multiple k ↔ fits ∧ offsets.Nontrivial ∧ IsLeast offsets k

theorem ofPositions_eq_multiple_iff {ps : List Nat} (hps : ps.Pairwise (· < ·)) {k : Nat} :
    ofPositions ps = .multiple k ↔ {i | i ∈ ps}.Nontrivial ∧ IsLeast {i | i ∈ ps} k := by
  match ps with
  | [] => simp [ofPositions]
  | [pos] => simp [ofPositions]
  | first :: second :: rest =>
    obtain ⟨hfirst, -⟩ := List.pairwise_cons.mp hps
    have hleast : IsLeast {i | i ∈ first :: second :: rest} first := by
      refine ⟨List.mem_cons_self, fun i hi => ?_⟩
      rcases List.mem_cons.mp hi with rfl | hi
      · exact Nat.le_refl i
      · exact Nat.le_of_lt (hfirst i hi)
    have hseveral : {i | i ∈ first :: second :: rest}.Nontrivial :=
      ⟨first, List.mem_cons_self, second, List.mem_cons_of_mem _ List.mem_cons_self,
        Nat.ne_of_lt (hfirst second List.mem_cons_self)⟩
    simp only [ofPositions, multiple.injEq]
    constructor
    · rintro rfl
      exact ⟨hseveral, hleast⟩
    · rintro ⟨-, hk⟩
      exact hleast.unique hk

/-- The class of an ascending list is that of the set of its entries. -/
theorem classifies_ofPositions {ps : List Nat} (hps : ps.Pairwise (· < ·)) :
    (ofPositions ps).Classifies True {i | i ∈ ps} where
  incompatible_iff := by simp [ofPositions_ne_incompatible]
  zero_iff := by
    rw [ofPositions_eq_zero_iff, true_and, List.eq_nil_iff_forall_not_mem,
      Set.eq_empty_iff_forall_notMem]
    rfl
  single_iff k := by
    rw [ofPositions_eq_single_iff, true_and]
    constructor
    · rintro rfl
      ext i
      exact List.mem_singleton
    · intro hset
      have hmem : ∀ i, i ∈ ps ↔ i = k := fun i => Set.ext_iff.mp hset i
      rw [← List.perm_singleton, List.perm_ext_iff_of_nodup (hps.imp Nat.ne_of_lt) (by simp)]
      intro i
      rw [hmem, List.mem_singleton]
  multiple_iff k := by rw [ofPositions_eq_multiple_iff hps, true_and]

end Difference

/-! ## Differing offsets -/

namespace Signature

variable {caller callee : Signature} {mode : Mode} {i j n : Nat}

/-- The offsets at which the `n` parameters of `caller` from `i` on do not pass trivially as those of
    `callee` from `j` on. -/
def differing (caller : Signature) (i : Nat) (callee : Signature) (j n : Nat) (mode : Mode) :
    Set Nat :=
  {k | k < n ∧ ∃ src dst, caller.param? (i + k) = some src ∧ callee.param? (j + k) = some dst ∧
    src.passing dst mode ≠ .trivial}

theorem differing_eq (hi : i + n ≤ caller.arity) (hj : j + n ≤ callee.arity) :
    {k | k ∈ (List.range n).filter fun k => caller.differsAt callee mode (i + k) (j + k)} =
      caller.differing i callee j n mode := by
  ext k
  simp only [differing, Set.mem_ofPred_eq, List.mem_filter, List.mem_range]
  refine and_congr_right fun hk => ?_
  have hsrc : caller.param? (i + k) = some _ :=
    List.getElem?_eq_getElem (show i + k < caller.arity by omega)
  have hdst : callee.param? (j + k) = some _ :=
    List.getElem?_eq_getElem (show j + k < callee.arity by omega)
  simp [differsAt, hsrc, hdst]

/-- What the comparison of two ranges tells. -/
theorem classifies_differenceFrom (caller callee : Signature) (mode : Mode) (i j n : Nat) :
    (caller.differenceFrom i callee j n mode).Classifies
      (i + n ≤ caller.arity ∧ j + n ≤ callee.arity) (caller.differing i callee j n mode) := by
  rw [differenceFrom]
  split
  · rename_i hfits
    -- Offsets are looked at in ascending order, so the first one found is the least.
    have hascending := (List.pairwise_lt_range (n := n)).filter
      fun k => caller.differsAt callee mode (i + k) (j + k)
    have hclass := Difference.classifies_ofPositions hascending
    rw [differing_eq hfits.1 hfits.2] at hclass
    simpa only [eq_true hfits] using hclass
  · rename_i hfits
    constructor <;> simp [hfits]

theorem differenceFrom?_eq (hi : i + n < UInt64.size) (hj : j + n < UInt64.size) :
    caller.differenceFrom? i callee j n mode = some (caller.differenceFrom i callee j n mode) := by
  rw [differenceFrom?, if_neg (by omega)]
  by_cases hin : caller.arity < i + n
  · rw [if_pos hin, differenceFrom, if_neg (by omega)]
  · rw [if_neg hin, if_neg (by omega)]

end Signature

/-! ## From checked to raw mode -/

theorem Ty.passing_raw_of_checked {src dst : Ty} (h : src.passing dst .checked = .trivial) :
    src.passing dst .raw = .trivial := by
  simp only [passing, passingRaw] at h ⊢
  split
  · split
    · rfl
    · exact h
  · split
    · rfl
    · exact h
  · exact h

namespace Signature

variable {caller callee : Signature} {i j n : Nat}

theorem differing_raw_subset (caller : Signature) (i : Nat) (callee : Signature) (j n : Nat) :
    caller.differing i callee j n .raw ⊆ caller.differing i callee j n .checked := by
  rintro k ⟨hk, src, dst, hsrc, hdst, hraw⟩
  exact ⟨hk, src, dst, hsrc, hdst, fun h => hraw (Ty.passing_raw_of_checked h)⟩

theorem returnsMatch_raw_of_checked (h : caller.returnsMatch callee .checked = true) :
    caller.returnsMatch callee .raw = true := by
  have hret : callee.ret.passing caller.ret .checked = .trivial :=
    Ty.passing_checked_iff.mpr (returnsMatch_checked_iff.mp h)
  rw [returnsMatch, Ty.passing_raw_of_checked hret]
  rfl

theorem differenceFrom_raw_of_checked (h : caller.differenceFrom i callee j n .checked = .zero) :
    caller.differenceFrom i callee j n .raw = .zero := by
  obtain ⟨hfits, hnone⟩ := (classifies_differenceFrom caller callee .checked i j n).zero_iff.mp h
  refine (classifies_differenceFrom caller callee .raw i j n).zero_iff.mpr ⟨hfits, ?_⟩
  exact Set.subset_eq_empty (differing_raw_subset caller i callee j n) hnone

theorem difference_raw_of_checked (h : caller.difference callee .checked = .zero) :
    caller.difference callee .raw = .zero := by
  rw [difference_eq_zero_iff] at h ⊢
  exact ⟨returnsMatch_raw_of_checked h.ret, h.params.imp fun _ _ => Ty.passing_raw_of_checked⟩

/-- A comparison of ranges tells exactly whether they fit, and whether no, one or several offsets
    differ, with the least of them. On words whose sums are words it has an answer, and the search
    that stops at the second difference comes to the same one. Whole signatures do not differ in
    checked mode exactly when calls pass freely. In raw mode fewer offsets differ and more return
    types match. -/
theorem difference_exact (caller callee : Signature) :
    (∀ mode i j n, (caller.differenceFrom i callee j n mode).Classifies
      (i + n ≤ caller.arity ∧ j + n ≤ callee.arity) (caller.differing i callee j n mode)) ∧
    (∀ mode i j n, i + n < UInt64.size → j + n < UInt64.size →
      caller.differenceFrom? i callee j n mode = some (caller.differenceFrom i callee j n mode) ∧
      Machine.differenceFrom caller i callee j n mode =
        some (caller.differenceFrom i callee j n mode)) ∧
    (caller.difference callee .checked = .zero ↔ caller.passesFreely callee = true) ∧
    (∀ i j n, caller.differing i callee j n .raw ⊆ caller.differing i callee j n .checked) ∧
    (caller.returnsMatch callee .checked = true → caller.returnsMatch callee .raw = true) ∧
    (∀ i j n, caller.differenceFrom i callee j n .checked = .zero →
      caller.differenceFrom i callee j n .raw = .zero) ∧
    (caller.difference callee .checked = .zero → caller.difference callee .raw = .zero) :=
  ⟨classifies_differenceFrom caller callee,
    fun _ _ _ _ hi hj => ⟨differenceFrom?_eq hi hj, Machine.differenceFrom_eq hi hj⟩,
    difference_eq_zero_iff.trans passesFreely_iff.symm,
    fun i j n => differing_raw_subset caller i callee j n, returnsMatch_raw_of_checked,
    fun _ _ _ => differenceFrom_raw_of_checked, difference_raw_of_checked⟩

/-- Ranges of one pair of signatures, compared from three places: two differences, one, which raw
    mode takes away, and a range that reaches past the end. -/
theorem difference_exact_ranges :
    let caller : Signature := ⟨[.prim .int, .null, .prim .long], .void⟩
    let callee : Signature := ⟨[.object, .prim .double], .void⟩
    Machine.differenceFrom caller 0 callee 0 2 .checked = some (.multiple 0) ∧
      (caller.differing 0 callee 0 2 .checked).Nontrivial ∧
      IsLeast (caller.differing 0 callee 0 2 .checked) 0 ∧
      caller.differing 1 callee 0 2 .checked = {1} ∧ caller.differing 1 callee 0 2 .raw = ∅ ∧
      caller.differenceFrom? 2 callee 0 2 .raw = some .incompatible := by
  intro caller callee
  obtain ⟨hclass, hsearch, -⟩ := difference_exact caller callee
  obtain ⟨-, hseveral, hleast⟩ := ((hclass .checked 0 0 2).multiple_iff 0).mp (by decide)
  obtain ⟨-, hone⟩ := ((hclass .checked 1 0 2).single_iff 1).mp (by decide)
  obtain ⟨-, hnone⟩ := (hclass .raw 1 0 2).zero_iff.mp (by decide)
  have hout := (hclass .raw 2 0 2).incompatible_iff.mpr (by decide)
  refine ⟨?_, hseveral, hleast, hone, hnone, ?_⟩
  · exact (hsearch .checked 0 0 2 (by decide) (by decide)).2
  · rw [(hsearch .raw 2 0 2 (by decide) (by decide)).1, hout]

end Signature

end CallBridge
