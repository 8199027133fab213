import CallBridge.Shuffle.Basic

/-!
# Paths of shuffles

A path is a sequence of shuffles, each of which an elementary step can be built
for on the list that the shuffles before it have left. Shuffles look at positions
only, so a path over numbered arguments is also a path over whatever stands at
these numbers: parameter types, or the values of a call.
-/

namespace CallBridge

namespace Shuffle

variable {α β : Type}

/-! ## Shuffles that a step can be built for -/

/-- Whether a step can be built for a shuffle of `xs`: it moves something and stays inside the
    list, exchanges an earlier with a later entry of the same width, or moves a single entry
    across at least two others. -/
def Buildable (width : α → Nat) (xs : List α) : Shuffle → Prop
  | drop pos count => 1 ≤ count ∧ pos + count ≤ xs.length
  | dup pos count => 1 ≤ count ∧ pos + count ≤ xs.length
  | swap first second =>
    first < second ∧ second < xs.length ∧ xs[first]?.map width = xs[second]?.map width
  | rotate first count amount =>
    3 ≤ count ∧ first + count ≤ xs.length ∧ (amount = 1 ∨ amount = count - 1)

/-- Where all entries have one width, only positions matter. -/
theorem Buildable.uniform {width : α → Nat} {xs : List α} {s : Shuffle}
    (h : s.Buildable width xs) (w : Nat) : s.Buildable (fun _ => w) xs := by
  cases s with
  | drop pos count => exact h
  | dup pos count => exact h
  | swap first second =>
    obtain ⟨hlt, hin, _⟩ := h
    refine ⟨hlt, hin, ?_⟩
    rw [List.getElem?_eq_getElem hin, List.getElem?_eq_getElem (Nat.lt_trans hlt hin)]
    rfl
  | rotate first count amount => exact h

theorem buildable_map_iff {width : β → Nat} {xs : List α} {s : Shuffle} (f : α → β) :
    s.Buildable width (xs.map f) ↔ s.Buildable (width ∘ f) xs := by
  cases s <;> simp [Buildable]

/-! ## Slices -/

theorem length_slice {xs : List α} {pos count : Nat} (h : pos + count ≤ xs.length) :
    (slice pos count xs).length = count := by
  simp only [slice, List.length_take, List.length_drop]
  omega

theorem getElem?_slice {xs : List α} {pos count k : Nat} (h : k < count) :
    (slice pos count xs)[k]? = xs[pos + k]? := by
  rw [slice, List.getElem?_take_of_lt h, List.getElem?_drop]

@[simp] theorem slice_zero (count : Nat) (xs : List α) : slice 0 count xs = xs.take count := rfl

/-- A slice that reaches the end of the list. -/
theorem slice_to_end {xs : List α} {pos count : Nat} (h : xs.length ≤ pos + count) :
    slice pos count xs = xs.drop pos := by
  rw [slice, List.take_of_length_le]
  rw [List.length_drop]
  omega

/-- A slice falls into a front and a back. -/
theorem slice_add (pos m n : Nat) (xs : List α) :
    slice pos (m + n) xs = slice pos m xs ++ slice (pos + m) n xs := by
  rw [slice, slice, slice, List.take_add, List.drop_drop]

theorem slice_one {xs : List α} {i : Nat} (h : i < xs.length) : slice i 1 xs = [xs[i]] := by
  rw [slice, List.drop_eq_getElem_cons h]
  rfl

theorem take_append_slice_append_drop (pos count : Nat) (xs : List α) :
    xs.take pos ++ slice pos count xs ++ xs.drop (pos + count) = xs := by
  rw [slice, List.append_assoc, ← List.drop_drop, List.take_append_drop, List.take_append_drop]

/-- A list, cut around two of its entries. -/
theorem slices_around {first second : Nat} {xs : List α} (hlt : first < second)
    (hin : second < xs.length) :
    slice 0 first xs ++ (slice first 1 xs ++ (slice (first + 1) (second - first - 1) xs ++
      (slice second 1 xs ++ slice (second + 1) (xs.length - second - 1) xs))) = xs := by
  have hwhole : slice 0 (first + (1 + (second - first - 1 + (1 + (xs.length - second - 1))))) xs =
      xs := slice_to_end (by omega)
  rwa [slice_add, slice_add, slice_add, slice_add, Nat.zero_add,
    show first + 1 + (second - first - 1) = second by omega] at hwhole

/-! ### Shuffles as rearrangements of slices -/

theorem rotateRight_perm (amount : Nat) (xs : List α) : (rotateRight amount xs).Perm xs := by
  have hperm : (rotateRight amount xs).Perm
      (xs.take (xs.length - amount) ++ xs.drop (xs.length - amount)) := List.perm_append_comm
  rwa [List.take_append_drop] at hperm

/-- Dropping leaves what stands before and behind the range. -/
theorem act?_drop_eq {pos count : Nat} {xs : List α} (h : pos + count ≤ xs.length) :
    (drop pos count).act? xs =
      some (slice 0 pos xs ++ slice (pos + count) (xs.length - (pos + count)) xs) := by
  rw [act?, if_pos h, slice_zero, slice_to_end (by omega)]

theorem act?_dup_eq {pos count : Nat} {xs : List α} (h : pos + count ≤ xs.length) :
    (dup pos count).act? xs = some (xs ++ slice pos count xs) :=
  if_pos h

theorem act?_swap_parts (front mid back : List α) (x y : α) :
    (swap front.length (front.length + 1 + mid.length)).act?
      (front ++ ([x] ++ (mid ++ ([y] ++ back)))) =
        some (front ++ ([y] ++ (mid ++ ([x] ++ back)))) := by
  have hlen : ∀ z, front.length + 1 + mid.length = (front ++ [z] ++ mid).length := by
    intro z
    simp only [List.length_append, List.length_singleton]
  have hlist : ∀ z w, front ++ ([z] ++ (mid ++ ([w] ++ back))) =
      (front ++ [z] ++ mid) ++ w :: back := by
    intro z w
    simp only [List.append_assoc, List.cons_append, List.nil_append]
  have hfirst : (front ++ ([x] ++ (mid ++ ([y] ++ back))))[front.length]? = some x := by simp
  have hsecond : (front ++ ([x] ++ (mid ++ ([y] ++ back))))[front.length + 1 + mid.length]? =
      some y := by
    rw [hlist, hlen x, List.getElem?_append_right (Nat.le_refl _), Nat.sub_self]
    rfl
  have hset : (front ++ ([x] ++ (mid ++ ([y] ++ back)))).set front.length y =
      front ++ ([y] ++ (mid ++ ([y] ++ back))) := by simp
  simp only [act?, hfirst, hsecond, hset]
  rw [hlist, hlen y, List.set_append_right _ _ (Nat.le_refl _), Nat.sub_self, hlist]
  rfl

/-- A swap exchanges two slices of one entry each. -/
theorem act?_swap_eq {first second : Nat} {xs : List α} (hlt : first < second)
    (hin : second < xs.length) :
    (swap first second).act? xs =
      some (slice 0 first xs ++ (slice second 1 xs ++ (slice (first + 1) (second - first - 1) xs ++
        (slice first 1 xs ++ slice (second + 1) (xs.length - second - 1) xs)))) := by
  have hfront : (slice 0 first xs).length = first := length_slice (by omega)
  have hmid : (slice (first + 1) (second - first - 1) xs).length = second - first - 1 :=
    length_slice (by omega)
  have hact := act?_swap_parts (slice 0 first xs) (slice (first + 1) (second - first - 1) xs)
    (slice (second + 1) (xs.length - second - 1) xs) xs[first] xs[second]
  rwa [← slice_one, ← slice_one, slices_around hlt hin, hfront, hmid,
    show first + 1 + (second - first - 1) = second by omega] at hact

/-- A rotation exchanges the front and the back of its run. -/
theorem act?_rotate_eq {first count amount : Nat} {xs : List α} (hin : first + count ≤ xs.length)
    (hle : amount ≤ count) :
    (rotate first count amount).act? xs =
      some (slice 0 first xs ++ (slice (first + (count - amount)) amount xs ++
        (slice first (count - amount) xs ++
          slice (first + count) (xs.length - (first + count)) xs))) := by
  have hback : (slice first count xs).drop (count - amount) =
      slice (first + (count - amount)) amount xs := by
    rw [slice, slice, List.drop_take, List.drop_drop, Nat.sub_sub_self hle]
  have hfront : (slice first count xs).take (count - amount) = slice first (count - amount) xs := by
    rw [slice, slice, List.take_take, Nat.min_eq_left (Nat.sub_le _ _)]
  have hend : slice (first + count) (xs.length - (first + count)) xs = xs.drop (first + count) :=
    slice_to_end (by omega)
  rw [act?, if_pos ⟨hin, hle⟩, rotateRight, length_slice hin, hback, hfront, hend, slice_zero,
    List.append_assoc, List.append_assoc]

/-! ## Shuffles look at positions only -/

theorem slice_map (f : α → β) (pos count : Nat) (xs : List α) :
    slice pos count (xs.map f) = (slice pos count xs).map f := by
  simp [slice]

theorem rotateRight_map (f : α → β) (amount : Nat) (xs : List α) :
    rotateRight amount (xs.map f) = (rotateRight amount xs).map f := by
  simp [rotateRight]

theorem act?_map (f : α → β) (s : Shuffle) (xs : List α) :
    s.act? (xs.map f) = (s.act? xs).map (List.map f) := by
  cases s with
  | drop pos count =>
    simp only [act?, List.length_map]
    split <;> simp
  | dup pos count =>
    simp only [act?, List.length_map, slice_map]
    split <;> simp
  | swap first second =>
    simp only [act?, List.getElem?_map]
    cases xs[first]? with
    | none => rfl
    | some x =>
      cases xs[second]? with
      | none => rfl
      | some y => simp
  | rotate first count amount =>
    simp only [act?, List.length_map, slice_map, rotateRight_map]
    split <;> simp

theorem mem_of_mem_slice {pos count : Nat} {xs : List α} {x : α} (h : x ∈ slice pos count xs) :
    x ∈ xs :=
  List.mem_of_mem_drop (List.mem_of_mem_take h)

/-- Shuffles make nothing up. -/
theorem mem_of_act? {s : Shuffle} {xs ys : List α} (h : s.act? xs = some ys) {y : α}
    (hy : y ∈ ys) : y ∈ xs := by
  cases s with
  | drop pos count =>
    obtain ⟨-, ⟨⟩⟩ := Option.ite_none_right_eq_some.mp h
    rcases List.mem_append.mp hy with hy | hy
    · exact List.mem_of_mem_take hy
    · exact List.mem_of_mem_drop hy
  | dup pos count =>
    obtain ⟨-, ⟨⟩⟩ := Option.ite_none_right_eq_some.mp h
    rcases List.mem_append.mp hy with hy | hy
    · exact hy
    · exact mem_of_mem_slice hy
  | swap first second =>
    simp only [act?] at h
    split at h
    · rename_i x z hx hz
      cases h
      rcases List.mem_or_eq_of_mem_set hy with hy | rfl
      · rcases List.mem_or_eq_of_mem_set hy with hy | rfl
        · exact hy
        · exact List.mem_of_getElem? hz
      · exact List.mem_of_getElem? hx
    · cases h
  | rotate first count amount =>
    obtain ⟨-, ⟨⟩⟩ := Option.ite_none_right_eq_some.mp h
    simp only [List.mem_append, rotateRight] at hy
    rcases hy with (hy | hy | hy) | hy
    · exact List.mem_of_mem_take hy
    · exact mem_of_mem_slice (List.mem_of_mem_drop hy)
    · exact mem_of_mem_slice (List.mem_of_mem_take hy)
    · exact List.mem_of_mem_drop hy

theorem act_eq_of_act? {s : Shuffle} {xs ys : List α} (h : s.act? xs = some ys) :
    s.act xs = ys := by
  simp [act, h]

/-! ## Paths -/

/-- `Path width xs shuffles ys`: the shuffles, one after the other, lead from `xs` to `ys`, and a
    step can be built for each of them where it applies. -/
inductive Path (width : α → Nat) : List α → List Shuffle → List α → Prop where
  | nil (xs : List α) : Path width xs [] xs
  | cons {xs ys zs : List α} {s : Shuffle} {rest : List Shuffle} :
      s.Buildable width xs → s.act? xs = some ys → Path width ys rest zs →
      Path width xs (s :: rest) zs

namespace Path

variable {width : α → Nat} {xs ys zs : List α} {ss ts : List Shuffle}

theorem single {s : Shuffle} (hs : s.Buildable width xs) (hact : s.act? xs = some ys) :
    Path width xs [s] ys :=
  .cons hs hact (.nil ys)

theorem append (hss : Path width xs ss ys) (hts : Path width ys ts zs) :
    Path width xs (ss ++ ts) zs := by
  induction hss with
  | nil xs => exact hts
  | cons hs hact _ ih => exact .cons hs hact (ih hts)

theorem uniform (h : Path width xs ss ys) (w : Nat) : Path (fun _ => w) xs ss ys := by
  induction h with
  | nil xs => exact .nil xs
  | cons hs hact _ ih => exact .cons (hs.uniform w) hact ih

theorem actAll?_eq (h : Path width xs ss ys) : actAll? ss xs = some ys := by
  induction h with
  | nil xs => rfl
  | cons _ hact _ ih =>
    rw [actAll?, List.foldlM_cons, hact]
    exact ih

theorem actAll_eq (h : Path width xs ss ys) : actAll ss xs = ys := by
  induction h with
  | nil xs => rfl
  | cons _ hact _ ih =>
    rw [actAll, List.foldl_cons, act_eq_of_act? hact]
    exact ih

end Path

end Shuffle

end CallBridge
