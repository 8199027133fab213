import CallBridge.Handle.Invoke
import CallBridge.Proofs.Matching

/-!
# Rotations as single moves

A call turns a run of arguments as a whole. The step that a host is given names one
argument instead, and the place to which it goes. Both come to the same list,
because only rotations by one place are built: one argument leaves its end of the
run and goes in again at the other end, and the rest moves up.
-/

namespace CallBridge

namespace Shuffle

variable {α : Type}

/-! ## Turning a run by one place -/

/-- A rotation exchanges the two parts of its run, whose lengths it is given by. -/
theorem act?_rotate_parts (front us vs back : List α) :
    (rotate front.length (us.length + vs.length) vs.length).act? (front ++ (us ++ (vs ++ back))) =
      some (front ++ (vs ++ (us ++ back))) := by
  have hrun : slice front.length (us.length + vs.length) (front ++ (us ++ (vs ++ back))) =
      us ++ vs := by
    rw [slice, List.drop_left, ← List.append_assoc, ← List.length_append, List.take_left]
  have hback : (front ++ (us ++ (vs ++ back))).drop (front.length + (us.length + vs.length)) =
      back := by
    rw [← List.drop_drop, List.drop_left, ← List.append_assoc, ← List.length_append, List.drop_left]
  have hin : front.length + (us.length + vs.length) ≤ (front ++ (us ++ (vs ++ back))).length := by
    simp only [List.length_append]
    omega
  rw [act?, if_pos ⟨hin, Nat.le_add_left _ _⟩, hrun, hback, rotateRight, List.length_append,
    Nat.add_sub_cancel, List.drop_left, List.take_left, List.take_left, List.append_assoc,
    List.append_assoc]

theorem eraseIdx_length_append (front back : List α) (x : α) :
    (front ++ x :: back).eraseIdx front.length = front ++ back := by
  rw [List.eraseIdx_append_of_length_le (Nat.le_refl _), Nat.sub_self]
  rfl

theorem insertIdx_length_append (front back : List α) (x : α) :
    (front ++ back).insertIdx front.length x = front ++ x :: back := by
  induction front with
  | nil => rfl
  | cons y front ih => exact congrArg (y :: ·) ih

/-- A run inside a list, cut in two. -/
theorem exists_parts {first : Nat} {xs : List α} (m n : Nat) (hin : first + (m + n) ≤ xs.length) :
    ∃ front us vs back : List α, front.length = first ∧ us.length = m ∧ vs.length = n ∧
      xs = front ++ (us ++ (vs ++ back)) := by
  refine ⟨xs.take first, slice first m xs, slice (first + m) n xs, xs.drop (first + (m + n)),
    ?_, length_slice (by omega), length_slice (by omega), ?_⟩
  · rw [List.length_take]
    omega
  · have hcut := take_append_slice_append_drop first (m + n) xs
    rw [slice_add, List.append_assoc, List.append_assoc] at hcut
    exact hcut.symm

/-- Rotating right by one place takes the last entry of the run to its start. -/
theorem act?_rotate_last {first count : Nat} {xs : List α} (hcount : 1 ≤ count)
    (hin : first + count ≤ xs.length) :
    ∃ x, xs[first + count - 1]? = some x ∧ (rotate first count 1).act? xs =
      some ((xs.eraseIdx (first + count - 1)).insertIdx first x) := by
  obtain ⟨front, us, vs, back, rfl, hus, hvs, rfl⟩ := exists_parts (count - 1) 1
    (show first + (count - 1 + 1) ≤ xs.length by omega)
  obtain ⟨x, rfl⟩ := List.length_eq_one_iff.mp hvs
  obtain rfl : us.length + 1 = count := by omega
  have hplace : front.length + (us.length + 1) - 1 = (front ++ us).length := by
    rw [List.length_append]
    omega
  rw [hplace, ← List.append_assoc front us]
  refine ⟨x, ?_, ?_⟩
  · rw [List.getElem?_append_right (Nat.le_refl _), Nat.sub_self]
    rfl
  · rw [List.singleton_append, eraseIdx_length_append, List.append_assoc, List.append_assoc,
      insertIdx_length_append]
    exact act?_rotate_parts front us [x] back

/-- Rotating right by all places but one takes the first entry of the run to its end. -/
theorem act?_rotate_first {first count : Nat} {xs : List α} (hcount : 1 ≤ count)
    (hin : first + count ≤ xs.length) :
    ∃ x, xs[first]? = some x ∧ (rotate first count (count - 1)).act? xs =
      some ((xs.eraseIdx first).insertIdx (first + count - 1) x) := by
  obtain ⟨front, us, vs, back, rfl, hus, hvs, rfl⟩ := exists_parts 1 (count - 1)
    (show first + (1 + (count - 1)) ≤ xs.length by omega)
  obtain ⟨x, rfl⟩ := List.length_eq_one_iff.mp hus
  obtain rfl : 1 + vs.length = count := by omega
  have hplace : front.length + (1 + vs.length) - 1 = (front ++ vs).length := by
    rw [List.length_append]
    omega
  rw [hplace, Nat.add_sub_cancel_left, List.singleton_append]
  refine ⟨x, ?_, ?_⟩
  · rw [List.getElem?_append_right (Nat.le_refl _), Nat.sub_self]
    rfl
  · rw [eraseIdx_length_append, ← List.append_assoc, insertIdx_length_append, List.append_assoc]
    exact act?_rotate_parts front [x] vs back

end Shuffle

/-! ## Amounts -/

namespace Host

variable {h : Host} {new : Signature} {target r : Handle} {first count : Nat} {amount other : Int}

theorem natCast_rotationAmount (hcount : count ≠ 0) (amount : Int) :
    (rotationAmount count amount : Int) = amount % count := by
  rw [rotationAmount, if_neg hcount]
  exact Int.toNat_of_nonneg (Int.emod_nonneg _ (by omega))

theorem rotationAmount_congr (hmod : other % count = amount % count) :
    rotationAmount count other = rotationAmount count amount := by
  rw [rotationAmount, rotationAmount, hmod]

/-- Nothing else of the amount is looked at. -/
theorem rotate_congr (hamount : rotationAmount count other = rotationAmount count amount) :
    h.rotate new target first count other = h.rotate new target first count amount := by
  unfold rotate canRotate
  rw [hamount]

theorem isWideRotation_iff {right : Nat} :
    isWideRotation count right = true ↔ 2 ≤ right ∧ right + 2 ≤ count := by
  have hwide :
      isWideRotation count right = (decide (1 < right) && decide (right < count - 1)) := rfl
  rw [hwide, Bool.and_eq_true, decide_eq_true_eq, decide_eq_true_eq]
  omega

/-- Runs of two and rotations that come back to the start are no rotations. -/
theorem rotate_eq_refuse (hnone : count ≤ 2 ∨ rotationAmount count amount = 0) :
    h.rotate new target first count amount = refuse new target := by
  have hcan : h.canRotate new target.signature first count amount = false := by
    rw [Bool.eq_false_iff, ne_eq, canRotate_iff]
    rintro ⟨-, ⟨hcount, -, hright⟩, -⟩
    omega
  have hwide : ¬ (2 < count ∧ isWideRotation count (rotationAmount count amount) = true) := by
    rw [isWideRotation_iff]
    omega
  simp only [rotate, if_neg hwide, hcan, Bool.false_eq_true, if_false]

/-- The only rotations that can never be run are those of more than one place either way. -/
theorem rotate_eq_unsupported_iff (hcount : 2 < count) :
    h.rotate new target first count amount = .error (.unsupported .wideRotation) ↔
      2 ≤ rotationAmount count amount ∧ rotationAmount count amount + 2 ≤ count := by
  rw [← isWideRotation_iff]
  constructor
  · intro hrefused
    by_contra hnarrow
    simp only [rotate, hnarrow, and_false, if_false] at hrefused
    split at hrefused
    · split at hrefused <;> cases hrefused
    · cases hrefused
  · intro hwide
    simp only [rotate, if_pos (And.intro hcount hwide)]

/-- A rotation that is built names the argument that leaves its end of the run, and counts the
    slots above the place at the other end. -/
theorem of_rotate_eq_ok (hok : h.rotate new target first count amount = .ok r) :
    2 < count ∧ ∃ moved dest tag,
      r = .adapter new (.rotate first count (rotationAmount count amount) moved tag
        (new.slotDepth (dest + 1))) target ∧
      ((rotationAmount count amount = 1 ∧ moved = first + count - 1 ∧ dest = first) ∨
        (rotationAmount count amount = count - 1 ∧ moved = first ∧ dest = first + count - 1)) := by
  simp only [rotate] at hok
  split at hok
  · cases hok
  · split at hok
    · rename_i hcan
      obtain ⟨-, ⟨hcount, -, hright⟩, -⟩ := canRotate_iff.mp hcan
      split at hok
      · cases hok
        refine ⟨by omega, _, _, _, rfl, ?_⟩
        split
        · exact .inl ⟨‹_›, rfl, rfl⟩
        · exact .inr ⟨hright.resolve_left ‹_›, rfl, rfl⟩
      · cases hok
    · cases hok

/-! ## What a rotation does -/

/-- A rotation depends on its amount only up to whole turns of the run. It can never be run if it
    moves more than one argument either way, and is refused if it moves none or if the run is too
    short. Every step that is built for it takes the recorded argument out of the list and puts it in
    again at the other end of the run; its destination counts the slots above that place. -/
theorem rotate_moves_one (h : Host) (new : Signature) (target : Handle) (first count : Nat)
    (amount : Int) :
    (∀ other : Int, other % count = amount % count →
      h.rotate new target first count other = h.rotate new target first count amount) ∧
    (3 ≤ count → (h.rotate new target first count amount = .error (.unsupported .wideRotation) ↔
      2 ≤ amount % count ∧ amount % count ≤ count - 2)) ∧
    (count ≤ 2 ∨ amount % count = 0 →
      h.rotate new target first count amount = refuse new target) ∧
    ∀ r, h.rotate new target first count amount = .ok r →
      ∃ right moved dest tag destSlot,
        r = .adapter new (.rotate first count right moved tag destSlot) target ∧
        (right : Int) = amount % count ∧
        ((moved = first + count - 1 ∧ dest = first) ∨
          (moved = first ∧ dest = first + count - 1)) ∧
        destSlot = Signature.slots (new.params.drop (dest + 1)) ∧
        ∀ args : List Value, first + count ≤ args.length → ∃ v, args[moved]? = some v ∧
          (Step.rotate first count right moved tag destSlot).run args =
            .ok ((args.eraseIdx moved).insertIdx dest v) := by
  refine ⟨fun other hmod => rotate_congr (rotationAmount_congr hmod), fun hcount => ?_,
    fun hnone => ?_, fun r hok => ?_⟩
  · have hright := natCast_rotationAmount (show count ≠ 0 by omega) amount
    rw [rotate_eq_unsupported_iff hcount, ← hright]
    omega
  · apply rotate_eq_refuse
    by_cases hcount : count = 0
    · exact .inl (by omega)
    · have hright := natCast_rotationAmount hcount amount
      omega
  · obtain ⟨hcount, moved, dest, tag, rfl, hends⟩ := of_rotate_eq_ok hok
    refine ⟨_, moved, dest, tag, _, rfl, natCast_rotationAmount (by omega) amount,
      hends.imp And.right And.right, rfl, fun args hargs => ?_⟩
    rcases hends with ⟨hright, rfl, rfl⟩ | ⟨hright, rfl, rfl⟩
    · obtain ⟨v, hv, hact⟩ := Shuffle.act?_rotate_last (by omega) hargs
      exact ⟨v, hv, by rw [hright, Step.run, Step.reorder, hact]⟩
    · obtain ⟨v, hv, hact⟩ := Shuffle.act?_rotate_first (by omega) hargs
      exact ⟨v, hv, by rw [hright, Step.run, Step.reorder, hact]⟩

/-- The least amount that a signed word can hold turns three arguments right by one place: the last
    one moves to the front, below the slots of the other two. -/
theorem rotate_moves_one_least :
    let new : Signature := ⟨[.prim .int, .object, .prim .long], .object⟩
    let f : Handle := .direct "f" ⟨[.prim .long, .prim .int, .object], .object⟩ HostFunction.echo
    let step : Step := .rotate 0 3 1 2 .long 3
    let least : Int := -9223372036854775808
    ({} : Host).rotate new f 0 3 least = .ok (.adapter new step f) ∧
      ({} : Host).rotate new f 0 3 1 = ({} : Host).rotate new f 0 3 least ∧
      step.run [.prim (.int 4), .null, .prim (.long 9)] =
        .ok [.prim (.long 9), .prim (.int 4), .null] := by
  intro new f step least
  have hbuilt :
      ({} : Host).rotate new f 0 3 least = .ok (.adapter new (.rotate 0 3 1 2 .long 3) f) := rfl
  obtain ⟨hmod, -, -, hnode⟩ := rotate_moves_one {} new f 0 3 least
  obtain ⟨right, moved, dest, tag, destSlot, hr, -, hends, -, hrun⟩ := hnode _ hbuilt
  cases hr
  obtain rfl : dest = 0 := by omega
  obtain ⟨v, hv, hrun⟩ := hrun [.prim (.int 4), .null, .prim (.long 9)] (by decide)
  cases hv
  exact ⟨hbuilt, hmod 1 (by decide), hrun⟩

end Host

end CallBridge
