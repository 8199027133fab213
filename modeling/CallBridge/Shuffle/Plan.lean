import CallBridge.Shuffle.Basic

/-!
# Planning shuffles

An argument map lists, for each parameter of the callee, the caller argument that
feeds it. The plan realises a map in three phases: unused arguments are dropped,
repeated ones are copied to the end, and what is then there is put in order from
left to right, each time by the swap or single-argument rotation that settles the
most positions.
-/

namespace CallBridge

namespace Shuffle

/-! ## Runs of positions -/

/-- The maximal runs of positions below `n` that satisfy `p`, as start and length, rightmost run
    first. The `len` positions from `n` on are known to belong to the run being collected. -/
def runsBelow (p : Nat → Bool) : (n len : Nat) → List (Nat × Nat)
  | 0, len => if len = 0 then [] else [(0, len)]
  | n + 1, len =>
    if p n then runsBelow p n (len + 1)
    else if len = 0 then runsBelow p n 0
    else (n + 1, len) :: runsBelow p n 0

/-! ## Dropping and copying -/

/-- Drops each run of unused arguments, from right to left so that earlier positions hold. -/
def dropUnused (n : Nat) (map : List Nat) : List Shuffle :=
  (runsBelow (fun j => !map.contains j) n 0).map fun (pos, count) => drop pos count

/-- The arguments that the map uses, in the caller's order. -/
def kept (n : Nat) (map : List Nat) : List Nat :=
  (List.range n).filter map.contains

/-- How many copies of each kept argument are needed beyond the first. -/
def extraCopies (n : Nat) (map : List Nat) : List Nat :=
  (kept n map).map fun j => map.count j - 1

/-- Appends the missing copies in sweeps: each sweep copies, from left to right, every run of
    arguments that is still short of copies. -/
def copyRepeated (n : Nat) (map : List Nat) : List Shuffle :=
  let extra := extraCopies n map
  (List.range (extra.max?.getD 0)).flatMap fun sweep =>
    (runsBelow (fun i => decide (sweep < extra[i]?.getD 0)) extra.length 0).reverse.map
      fun (pos, count) => dup pos count

/-! ## Putting in order -/

/-- The shuffles that bring the argument wanted at `i` there from a later position: swaps of
    entries of equal width, rotations of a run that ends at the wanted entry, and rotations that
    move the entry at `i` further right when the wanted one follows it. -/
def candidates (width : Nat → Nat) (map cur : List Nat) (i : Nat) : List Shuffle :=
  ((List.range map.length).drop (i + 1)).flatMap fun k =>
    (if cur[k]? = map[i]? then
      (if cur[i]?.map width = cur[k]?.map width then [swap i k] else []) ++
        (if i + 2 ≤ k then [rotate i (k - i + 1) 1] else [])
    else []) ++
    (if i + 2 ≤ k ∧ cur[i + 1]? = map[i]? then [rotate i (k - i + 1) (k - i)] else [])

/-- The number of positions from `i` on that hold what the map wants there. -/
def settled (map cur : List Nat) (i : Nat) : Nat :=
  ((cur.drop i).zip (map.drop i)).countP fun (x, y) => x == y

/-- What a candidate is judged by. -/
structure Merit where
  /-- Positions settled afterwards. -/
  settled : Nat
  isSwap : Bool
  span : Nat

/-- Whether merit `b` is at least as good as `a`: more positions settled, then a swap rather than
    a rotation, then the shorter span. -/
def Merit.le (a b : Merit) : Bool :=
  if a.settled ≠ b.settled then decide (a.settled < b.settled)
  else if a.isSwap ≠ b.isSwap then b.isSwap
  else decide (b.span ≤ a.span)

def merit (map cur : List Nat) (i : Nat) (s : Shuffle) : Merit where
  settled := settled map (s.act cur) i
  isSwap := s.isSwap
  span := s.span

/-- The best of some shuffles; of equally good ones the last. -/
def best? (map cur : List Nat) (i : Nat) : List Shuffle → Option Shuffle
  | [] => none
  | s :: rest =>
    match best? map cur i rest with
    | some t => if (merit map cur i s).le (merit map cur i t) then some t else some s
    | none => some s

/-- Exchanges the last two arguments, at `i` and `i + 1`, when their widths differ: around the
    argument before them, or with none before them by copying the left one past the right one. -/
def exchangeLast (width : Nat → Nat) (cur : List Nat) (i : Nat) : List Shuffle :=
  match i with
  | 0 => [dup 0 1, drop 0 1]
  | pivot + 1 =>
    if cur[pivot]?.map width = cur[i + 1]?.map width then [swap pivot (i + 1), rotate pivot 3 1]
    else [rotate pivot 3 2, swap pivot (i + 1)]

/-- The shuffles that settle the positions `todo`, in this order, on the list `cur`. -/
def reorder (width : Nat → Nat) (map : List Nat) : (todo cur : List Nat) → List Shuffle
  | [], _ => []
  | i :: todo, cur =>
    if cur[i]? = map[i]? then reorder width map todo cur
    else
      match best? map cur i (candidates width map cur i) with
      | some s => s :: reorder width map todo (s.act cur)
      | none =>
        let last := exchangeLast width cur i
        last ++ reorder width map todo (actAll last cur)

/-- The shuffles that turn the caller's arguments, whose slot widths are given, into the list that
    the map asks for. -/
def plan (widths map : List Nat) : List Shuffle :=
  let n := widths.length
  let front := dropUnused n map ++ copyRepeated n map
  front ++ reorder (fun j => widths[j]?.getD 0) map (List.range map.length)
    (actAll front (List.range n))

end Shuffle

end CallBridge
