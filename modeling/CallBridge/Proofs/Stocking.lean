import CallBridge.Proofs.Path
import CallBridge.Shuffle.Plan
import Mathlib.Data.List.Nodup

/-!
# Dropping and copying

The first two phases of a plan are paths. Dropping leads from all arguments to
those that the map uses, and copying from these to a list that holds every
argument as often as the map does.
-/

namespace CallBridge

namespace Shuffle

variable {width : Nat → Nat}

/-! ## Dropping -/

theorem act?_drop_middle (xs ys zs : List Nat) :
    (drop xs.length ys.length).act? (xs ++ ys ++ zs) = some (xs ++ zs) := by
  simp [act?, List.append_assoc, List.drop_append]

/-- Dropping the runs of positions that satisfy `p` leaves the others. The entries `run` belong to
    the run that is being collected, and `rest` has been dealt with. -/
theorem path_dropRuns (p : Nat → Bool) (n : Nat) (run rest : List Nat) :
    Path width (List.range n ++ run ++ rest)
      ((runsBelow p n run.length).map fun (pos, count) => drop pos count)
      ((List.range n).filter (fun j => !p j) ++ rest) := by
  induction n generalizing run rest with
  | zero =>
    cases run with
    | nil => exact .nil _
    | cons x run =>
      refine .single ⟨by simp, by simp⟩ ?_
      exact act?_drop_middle [] (x :: run) rest
  | succ n ih =>
    rw [List.range_succ, List.filter_append, runsBelow]
    by_cases hp : p n
    · have hrun := ih (n :: run) rest
      simpa [hp] using hrun
    · have hnext := ih [] (n :: rest)
      cases run with
      | nil => simpa [hp] using hnext
      | cons x run =>
        simp only [hp, List.length_cons, Nat.succ_ne_zero, if_false, Bool.false_eq_true,
          List.map_cons]
        have hact := act?_drop_middle (List.range n ++ [n]) (x :: run) rest
        refine .cons ⟨by simp, ?_⟩ (by simpa using hact) (by simpa [hp] using hnext)
        simp only [List.length_append, List.length_range, List.length_cons, List.length_nil]
        omega

theorem path_dropUnused (n : Nat) (map : List Nat) :
    Path width (List.range n) (dropUnused n map) (kept n map) := by
  have hpath : Path width _ _ _ := path_dropRuns (fun j => !map.contains j) n [] []
  simp only [List.append_nil, List.length_nil, Bool.not_not] at hpath
  exact hpath

/-! ## Copying -/

theorem act?_dup_front {pos count : Nat} {xs tail : List Nat} (h : pos + count ≤ xs.length) :
    (dup pos count).act? (xs ++ tail) = some (xs ++ tail ++ slice pos count xs) := by
  have hin : pos + count ≤ (xs ++ tail).length := by
    rw [List.length_append]
    omega
  have hslice : slice pos count (xs ++ tail) = slice pos count xs := by
    rw [slice, slice, List.drop_append_of_le_length (by omega),
      List.take_append_of_le_length (by rw [List.length_drop]; omega)]
  rw [act?, if_pos hin, hslice]

/-- The entries of `xs` at the positions below `n` that satisfy `p`. -/
def chosen (p : Nat → Bool) (n : Nat) (xs : List Nat) : List Nat :=
  ((List.range n).filter p).filterMap (xs[·]?)

theorem chosen_succ {p : Nat → Bool} {n : Nat} {xs : List Nat} (h : n < xs.length) :
    chosen p (n + 1) xs = chosen p n xs ++ if p n then [xs[n]] else [] := by
  by_cases hp : p n <;> simp [chosen, List.range_succ, hp, h]

/-- A condition on positions that is one on the entries chooses what satisfies it. -/
theorem chosen_eq_filter {p q : Nat → Bool} {xs : List Nat}
    (h : ∀ (i : Nat) (hi : i < xs.length), p i = q xs[i]) :
    chosen p xs.length xs = xs.filter q := by
  have hprefix : ∀ n ≤ xs.length, chosen p n xs = (xs.take n).filter q := by
    intro n
    induction n with
    | zero => intro _; rfl
    | succ n ih =>
      intro hn
      rw [chosen_succ hn, ih (by omega), List.take_succ_eq_append_getElem hn, List.filter_append,
        h n hn]
      by_cases hq : q xs[n] <;> simp [hq]
  simpa using hprefix xs.length (Nat.le_refl _)

/-- Copying the runs of positions that satisfy `p` appends what stands there, from left to right.
    The `len` positions from `n` on belong to the run that is being collected. -/
theorem path_dupRuns (p : Nat → Bool) (xs tail : List Nat) (n len : Nat)
    (h : n + len ≤ xs.length) :
    Path width (xs ++ tail)
      ((runsBelow p n len).reverse.map fun (pos, count) => dup pos count)
      (xs ++ tail ++ chosen p n xs ++ slice n len xs) := by
  induction n generalizing len with
  | zero =>
    by_cases hlen : len = 0
    · simpa [runsBelow, hlen, chosen, slice] using Path.nil _
    · have hact : (dup 0 len).act? (xs ++ tail) = _ := act?_dup_front h
      simp only [runsBelow, hlen, if_false, List.reverse_singleton, List.map_cons, List.map_nil]
      refine .single ⟨by omega, ?_⟩ (by simpa [chosen] using hact)
      rw [List.length_append]
      omega
  | succ n ih =>
    have hn : n < xs.length := by omega
    rw [runsBelow, chosen_succ hn]
    by_cases hp : p n
    · have hslice : slice n (len + 1) xs = xs[n] :: slice (n + 1) len xs := by
        simp only [slice]
        rw [List.drop_eq_getElem_cons hn, List.take_succ_cons]
      have hrun := ih (len + 1) (by omega)
      rw [hslice] at hrun
      simpa [hp] using hrun
    · have hnext := ih 0 (by omega)
      by_cases hlen : len = 0
      · simpa [hp, hlen, slice] using hnext
      · have hact : (dup (n + 1) len).act? (xs ++ (tail ++ chosen p n xs)) = _ := act?_dup_front h
        have hlast : Path width (xs ++ (tail ++ chosen p n xs)) [dup (n + 1) len]
            (xs ++ (tail ++ chosen p n xs) ++ slice (n + 1) len xs) := by
          refine .single ⟨by omega, ?_⟩ hact
          rw [List.length_append]
          omega
        have hfront : Path width (xs ++ tail)
            ((runsBelow p n 0).reverse.map fun (pos, count) => dup pos count)
            (xs ++ (tail ++ chosen p n xs)) := by
          simpa [slice] using hnext
        simpa [hp, hlen] using hfront.append hlast

/-- The kept arguments that are still short of copies before the sweep. -/
def shortOf (n : Nat) (map : List Nat) (sweep : Nat) : List Nat :=
  (kept n map).filter fun j => decide (sweep < map.count j - 1)

theorem path_sweeps (n : Nat) (map sweeps tail : List Nat) :
    Path width (kept n map ++ tail)
      (sweeps.flatMap fun sweep =>
        (runsBelow (fun i => decide (sweep < (extraCopies n map)[i]?.getD 0))
          (extraCopies n map).length 0).reverse.map fun (pos, count) => dup pos count)
      (kept n map ++ tail ++ sweeps.flatMap (shortOf n map)) := by
  induction sweeps generalizing tail with
  | nil => simpa using Path.nil _
  | cons sweep sweeps ih =>
    let short : Nat → Bool := fun i => decide (sweep < (extraCopies n map)[i]?.getD 0)
    have hlen : (extraCopies n map).length = (kept n map).length := List.length_map _
    have hshort : chosen short (kept n map).length (kept n map) = shortOf n map sweep := by
      apply chosen_eq_filter
      intro i hi
      simp [short, extraCopies, hi]
    have hsweep : Path width _ _ _ :=
      path_dupRuns short (kept n map) tail (kept n map).length 0 (Nat.le_refl _)
    rw [hshort, ← hlen] at hsweep
    simp only [slice, List.take_zero, List.append_nil, List.append_assoc] at hsweep
    have hrest := hsweep.append (ih (tail ++ shortOf n map sweep))
    simpa only [List.flatMap_cons, List.append_assoc] using hrest

/-- The arguments after dropping and copying. -/
def stocked (n : Nat) (map : List Nat) : List Nat :=
  kept n map ++ (List.range ((extraCopies n map).max?.getD 0)).flatMap (shortOf n map)

theorem path_copyRepeated (n : Nat) (map : List Nat) :
    Path width (kept n map) (copyRepeated n map) (stocked n map) := by
  have hpath : Path width _ _ _ :=
    path_sweeps n map (List.range ((extraCopies n map).max?.getD 0)) []
  simp only [List.append_nil] at hpath
  exact hpath

theorem count_kept {n : Nat} {map : List Nat} (hmap : ∀ j ∈ map, j < n) (j : Nat) :
    (kept n map).count j = if j ∈ map then 1 else 0 := by
  have hnodup : (kept n map).Nodup := List.nodup_range.filter _
  have hmem : j ∈ kept n map ↔ j ∈ map := by
    simp only [kept, List.mem_filter, List.mem_range, List.contains_iff_mem]
    exact ⟨fun h => h.2, fun h => ⟨hmap j h, h⟩⟩
  simp only [hnodup.count, hmem]

theorem count_shortOf {n : Nat} {map : List Nat} (hmap : ∀ j ∈ map, j < n) (j sweep : Nat) :
    (shortOf n map sweep).count j = if sweep < map.count j - 1 then 1 else 0 := by
  by_cases hshort : sweep < map.count j - 1
  · have hj : j ∈ map := List.count_pos_iff.mp (by omega)
    rw [shortOf, List.count_filter (by simpa using hshort), count_kept hmap, if_pos hj,
      if_pos hshort]
  · rw [if_neg hshort, List.count_eq_zero]
    simp [shortOf, hshort]

theorem count_sweeps {n : Nat} {map : List Nat} (hmap : ∀ j ∈ map, j < n) (j sweeps : Nat) :
    ((List.range sweeps).flatMap (shortOf n map)).count j = min sweeps (map.count j - 1) := by
  induction sweeps with
  | zero => simp
  | succ k ih =>
    rw [List.range_succ, List.flatMap_append, List.count_append, ih]
    simp only [List.flatMap_singleton, count_shortOf hmap]
    split <;> omega

/-- After dropping and copying, every argument is there as often as the map uses it. -/
theorem stocked_perm {n : Nat} {map : List Nat} (hmap : ∀ j ∈ map, j < n) :
    (stocked n map).Perm map := by
  rw [List.perm_iff_count]
  intro j
  rw [stocked, List.count_append, count_sweeps hmap, count_kept hmap]
  by_cases hj : j ∈ map
  · have hpos : 0 < map.count j := List.count_pos_iff.mpr hj
    have hkept : j ∈ kept n map := by
      rw [← List.count_pos_iff, count_kept hmap, if_pos hj]
      exact Nat.one_pos
    have hmax : map.count j - 1 ≤ (extraCopies n map).max?.getD 0 :=
      List.le_max?_getD_of_mem (List.mem_map_of_mem hkept)
    rw [if_pos hj]
    omega
  · rw [if_neg hj, List.count_eq_zero.mpr hj]
    omega

end Shuffle

end CallBridge
