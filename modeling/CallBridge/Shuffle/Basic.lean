/-!
# Shuffles

The four ways of reordering an argument list: dropping a range, appending copies
of a range, exchanging two entries and rotating a run. A shuffle that reaches
past the end of the list has no result.
-/

namespace CallBridge

/-- A reordering of an argument list. -/
inductive Shuffle where
  | drop (pos count : Nat)
  /-- Appends copies of the `count` entries from `pos` on. -/
  | dup (pos count : Nat)
  | swap (first second : Nat)
  /-- Rotates the `count` entries from `first` on right by `amount`. -/
  | rotate (first count amount : Nat)
  deriving DecidableEq, Repr

namespace Shuffle

variable {α : Type}

/-! ## Effect on a list -/

/-- The `count` entries from `pos` on. -/
def slice (pos count : Nat) (xs : List α) : List α :=
  (xs.drop pos).take count

/-- Rotates a list right by `amount`, which is at most its length. -/
def rotateRight (amount : Nat) (xs : List α) : List α :=
  xs.drop (xs.length - amount) ++ xs.take (xs.length - amount)

/-- The list after the shuffle, if the shuffle stays inside it. -/
def act? (s : Shuffle) (xs : List α) : Option (List α) :=
  match s with
  | drop pos count =>
    if pos + count ≤ xs.length then some (xs.take pos ++ xs.drop (pos + count)) else none
  | dup pos count =>
    if pos + count ≤ xs.length then some (xs ++ slice pos count xs) else none
  | swap first second =>
    match xs[first]?, xs[second]? with
    | some x, some y => some ((xs.set first y).set second x)
    | _, _ => none
  | rotate first count amount =>
    if first + count ≤ xs.length ∧ amount ≤ count then
      some (xs.take first ++ rotateRight amount (slice first count xs) ++ xs.drop (first + count))
    else none

/-- A shuffle that fits makes a list whose length depends on the old length only. -/
theorem length_of_act? {s : Shuffle} {xs ys : List α} (h : s.act? xs = some ys) :
    ys.length =
      match s with
      | drop _ count => xs.length - count
      | dup _ count => xs.length + count
      | swap .. | rotate .. => xs.length := by
  cases s with
  | drop pos count =>
    simp only [act?] at h
    split at h
    · cases h
      simp only [List.length_append, List.length_take, List.length_drop]
      omega
    · cases h
  | dup pos count =>
    simp only [act?] at h
    split at h
    · cases h
      simp only [slice, List.length_append, List.length_take, List.length_drop]
      omega
    · cases h
  | swap first second =>
    simp only [act?] at h
    split at h
    · cases h
      simp only [List.length_set]
    · cases h
  | rotate first count amount =>
    simp only [act?] at h
    split at h
    · cases h
      simp only [slice, rotateRight, List.length_append, List.length_take, List.length_drop]
      omega
    · cases h

/-- The list after the shuffle, which leaves a list alone that it does not fit. -/
def act (s : Shuffle) (xs : List α) : List α :=
  (s.act? xs).getD xs

/-- The list after a sequence of shuffles, if each of them fits. -/
def actAll? (shuffles : List Shuffle) (xs : List α) : Option (List α) :=
  shuffles.foldlM (fun ys s => s.act? ys) xs

/-- The list after a sequence of shuffles. -/
def actAll (shuffles : List Shuffle) (xs : List α) : List α :=
  shuffles.foldl (fun ys s => s.act ys) xs

/-! ## Measures used to choose between shuffles -/

def isSwap : Shuffle → Bool
  | swap .. => true
  | _ => false

/-- The number of neighbouring entries between the ends of what the shuffle touches. -/
def span : Shuffle → Nat
  | swap first second => second - first + 1
  | drop _ count => count
  | dup _ count => count
  | rotate _ count _ => count

end Shuffle

end CallBridge
