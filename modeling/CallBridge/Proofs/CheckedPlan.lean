import CallBridge.Proofs.Growth

/-!
# The plan with every read checked

`Shuffle.plan` reads lists by position and computes new positions from old ones. A
read past the end of a list, or a number that is too large, would go unnoticed
there. The planner is written once more with its loops as a machine runs them, and
with every read, sum and difference and every trial of a shuffle checked: it has a
result only if none of them fails. How sums and differences are computed is a
parameter. For a map that names existing arguments the result is the plan, as soon
as sums up to the length of the longest list on the way have results.
-/

namespace CallBridge

/-! ## Arithmetic -/

/-- How sums and differences of positions and counts are computed. -/
structure Arithmetic where
  add : Nat → Nat → Option Nat
  sub : Nat → Nat → Option Nat

namespace Arithmetic

/-- All sums up to the bound, and all differences that are not below zero, have their results. -/
structure Exact (arith : Arithmetic) (bound : Nat) : Prop where
  add {a b : Nat} : a + b ≤ bound → arith.add a b = some (a + b)
  sub {a b : Nat} : b ≤ a → arith.sub a b = some (a - b)

theorem Exact.mono {arith : Arithmetic} {m n : Nat} (h : arith.Exact n) (hle : m ≤ n) :
    arith.Exact m where
  add hsum := h.add (Nat.le_trans hsum hle)
  sub := h.sub

/-- Numbers of any size, where only a difference below zero has no result. -/
def unbounded : Arithmetic where
  add a b := some (a + b)
  sub a b := if b ≤ a then some (a - b) else none

theorem unbounded_exact (bound : Nat) : unbounded.Exact bound where
  add _ := rfl
  sub hle := if_pos hle

end Arithmetic

namespace Shuffle

namespace Checked

/-! ## The checked planner -/

section Planner

variable (arith : Arithmetic)

/-- Applies a shuffle. The end of the range that it touches is computed first. -/
def act {α : Type} (s : Shuffle) (xs : List α) : Option (List α) :=
  match s with
  | drop pos count | dup pos count | rotate pos count _ => do
    let _ ← arith.add pos count
    s.act? xs
  | swap .. => s.act? xs

def actAll {α : Type} (ss : List Shuffle) (xs : List α) : Option (List α) :=
  ss.foldlM (fun ys s => act arith s ys) xs

def span : Shuffle → Option Nat
  | swap first second => do arith.add (← arith.sub second first) 1
  | drop _ count | dup _ count | rotate _ count _ => some count

/-- How often the map uses each of `n` arguments, counted up one use at a time. -/
def uses (n : Nat) (map : List Nat) : Option (List Nat) :=
  map.foldlM (fun counts j => do return counts.set j (← arith.add (← counts[j]?) 1))
    (List.replicate n 0)

/-- The runs of positions below `start` that satisfy a condition, as start and length, from right to
    left; `stop` is the end of the run that is being followed. -/
def runsBelow (p : Nat → Option Bool) : (start : Nat) → (stop : Option Nat) →
    Option (List (Nat × Nat))
  | 0, none => some []
  | 0, some stop => some [(0, stop)]
  | start + 1, stop => do
    if ← p start then runsBelow p start (some (stop.getD (start + 1)))
    else
      match stop with
      | none => runsBelow p start none
      | some stop => return (start + 1, ← arith.sub stop (start + 1)) :: (← runsBelow p start none)

def dropUnused (n : Nat) (counts : List Nat) : Option (List Shuffle) := do
  let runs ← runsBelow arith (fun j => counts[j]?.map (· == 0)) n none
  return runs.map fun (pos, count) => drop pos count

/-- The copies still needed of each argument that is there. An argument that is not used at all
    would make the count wrap around. -/
def extraCopies (counts cur : List Nat) : Option (List Nat) :=
  cur.mapM fun j => do arith.sub (← counts[j]?) 1

/-- Looks at one more position, with the runs that are complete, the last one first, and the start
    of the run that is being followed. -/
def extendRuns (extra : List Nat) (state : List (Nat × Nat) × Option Nat) (pos : Nat) :
    Option (List (Nat × Nat) × Option Nat) := do
  if 0 < (← extra[pos]?) then return (state.1, some (state.2.getD pos))
  else
    match state.2 with
    | none => return (state.1, none)
    | some start => return ((start, ← arith.sub pos start) :: state.1, none)

/-- The runs of arguments that are short of copies, from left to right. -/
def shortRuns (extra : List Nat) : Option (List (Nat × Nat)) := do
  let (runs, start) ← (List.range extra.length).foldlM (extendRuns arith extra) ([], none)
  match start with
  | none => return runs.reverse
  | some start => return ((start, ← arith.sub extra.length start) :: runs).reverse

/-- One sweep after the other: each run that is short of copies is copied, and each of its
    arguments is short of one copy less afterwards. -/
def copyRepeated : (sweeps : Nat) → (extra : List Nat) → Option (List Shuffle)
  | 0, _ => some []
  | sweeps + 1, extra => do
    let runs ← shortRuns arith extra
    let left ← extra.mapM fun e => if 0 < e then arith.sub e 1 else some e
    return (runs.map fun (pos, count) => dup pos count) ++ (← copyRepeated sweeps left)

/-- The candidates for position `i`, which holds `held` and wants `wanted`, that reach up to `k`. -/
def candidatesUpTo (widths cur : List Nat) (i held wanted k : Nat) : Option (List Shuffle) := do
  let entry ← cur[k]?
  let toward ←
    if entry = wanted then do
      let here ← widths[held]?
      let there ← widths[entry]?
      let rotations ←
        if (← arith.add i 2) ≤ k then pure [rotate i (← arith.add (← arith.sub k i) 1) 1]
        else pure []
      pure ((if here = there then [swap i k] else []) ++ rotations)
    else pure []
  let away ←
    if (← arith.add i 2) ≤ k then do
      let next ← cur[← arith.add i 1]?
      if next = wanted then do
        let count ← arith.add (← arith.sub k i) 1
        pure [rotate i count (← arith.sub count 1)]
      else pure []
    else pure []
  return toward ++ away

def candidates (widths map cur : List Nat) (i held wanted : Nat) : Option (List Shuffle) := do
  let found ← ((List.range map.length).drop (← arith.add i 1)).mapM
    (candidatesUpTo arith widths cur i held wanted)
  return found.flatten

/-- The merit of a shuffle, which is tried out and compared with the map position by position. -/
def merit (map cur : List Nat) (i : Nat) (s : Shuffle) : Option Merit := do
  let next ← act arith s cur
  let hits ← (List.range' i (map.length - i)).mapM fun p => do
    let held ← next[p]?
    let wanted ← map[p]?
    return held == wanted
  return { settled := hits.count true, isSwap := s.isSwap, span := ← span arith s }

/-- The last one of greatest merit. -/
def best : List (Shuffle × Merit) → Option (Shuffle × Merit)
  | [] => none
  | a :: rest =>
    match best rest with
    | some b => if a.2.le b.2 then some b else some a
    | none => some a

def exchangeLast (widths cur : List Nat) (i : Nat) : Option (List Shuffle) :=
  if i = 0 then some [dup 0 1, drop 0 1]
  else do
    let pivot ← arith.sub i 1
    let next ← arith.add i 1
    let here ← widths[← cur[pivot]?]?
    let there ← widths[← cur[next]?]?
    return if here = there then [swap pivot next, rotate pivot 3 1]
      else [rotate pivot 3 2, swap pivot next]

def reorder (widths map : List Nat) : (todo cur : List Nat) → Option (List Shuffle)
  | [], _ => some []
  | i :: todo, cur => do
    let held ← cur[i]?
    let wanted ← map[i]?
    if held = wanted then reorder widths map todo cur
    else
      let judged ← (← candidates arith widths map cur i held wanted).mapM fun s => do
        return (s, ← merit arith map cur i s)
      match best judged with
      | some (s, _) => return s :: (← reorder widths map todo (← act arith s cur))
      | none =>
        let last ← exchangeLast arith widths cur i
        return last ++ (← reorder widths map todo (← actAll arith last cur))

/-- The plan, if nothing fails on the way. -/
def plan (widths map : List Nat) : Option (List Shuffle) := do
  let n := widths.length
  let counts ← uses arith n map
  let drops ← dropUnused arith n counts
  let cur ← actAll arith drops (List.range n)
  let extra ← extraCopies arith counts cur
  let dups ← copyRepeated arith (extra.max?.getD 0) extra
  let cur ← actAll arith dups cur
  let order ← reorder arith widths map (List.range map.length) cur
  return drops ++ dups ++ order

end Planner

/-! ## Shuffles that are tried out -/

section Acting

variable {α : Type} {width : α → Nat} {xs ys : List α} {s : Shuffle} {ss : List Shuffle}
variable {arith : Arithmetic} {bound : Nat}

/-- A shuffle that fits touches a range that ends inside the list. -/
theorem act_eq (harith : arith.Exact xs.length) (hact : s.act? xs = some ys) :
    act arith s xs = some ys := by
  have hchecked : ∀ pos count, pos + count ≤ xs.length →
      (do let _ ← arith.add pos count; s.act? xs) = some ys := by
    intro pos count hin
    rw [harith.add hin, hact]
    rfl
  cases s with
  | swap first second => exact hact
  | drop pos count => exact hchecked pos count (Option.ite_none_right_eq_some.mp hact).1
  | dup pos count => exact hchecked pos count (Option.ite_none_right_eq_some.mp hact).1
  | rotate first count amount =>
    exact hchecked first count (Option.ite_none_right_eq_some.mp hact).1.1

theorem actAll_eq (harith : arith.Exact bound) (hwithin : Within bound xs ss) :
    actAll arith ss xs = actAll? ss xs := by
  induction hwithin with
  | nil hlen => rfl
  | cons hlen hact hrest ih =>
    rw [actAll, List.foldlM_cons, act_eq (harith.mono hlen) hact, actAll?, List.foldlM_cons, hact]
    exact ih

theorem span_eq (harith : arith.Exact xs.length) (hs : s.Buildable width xs) :
    span arith s = some s.span := by
  cases s with
  | drop | dup | rotate => rfl
  | swap first second =>
    obtain ⟨hlt, hin, -⟩ := hs
    simp only [span, harith.sub (Nat.le_of_lt hlt), Option.bind_eq_bind, Option.bind_some]
    exact harith.add (by omega)

end Acting

/-! ## Reads that succeed -/

theorem mapM_eq_map {α β : Type} {f : α → Option β} {g : α → β} {xs : List α}
    (h : ∀ x ∈ xs, f x = some (g x)) : xs.mapM f = some (xs.map g) := by
  induction xs with
  | nil => rfl
  | cons x xs ih =>
    have hrest := ih fun y hy => h y (List.mem_cons_of_mem _ hy)
    simp [h x List.mem_cons_self, hrest]

theorem getElem?_rangeMap {n j : Nat} (f : Nat → Nat) (hj : j < n) :
    ((List.range n).map f)[j]? = some (f j) := by
  simp [hj]

/-! ## Dropping and copying -/

section Stocking

variable {arith : Arithmetic} {bound : Nat}

/-- No count exceeds the number of entries of the map. -/
theorem foldlM_uses (harith : arith.Exact bound) {n : Nat} {map : List Nat}
    (hmap : ∀ j ∈ map, j < n) (f : Nat → Nat) (hf : ∀ j, f j + map.length ≤ bound) :
    map.foldlM (fun counts j => do return counts.set j (← arith.add (← counts[j]?) 1))
      ((List.range n).map f) = some ((List.range n).map fun j => f j + map.count j) := by
  induction map generalizing f with
  | nil => simp
  | cons k map ih =>
    have hset : ((List.range n).map f).set k (f k + 1) =
        (List.range n).map fun j => f j + if k = j then 1 else 0 := by
      apply List.ext_getElem (by simp)
      intro j _ _
      by_cases hkj : k = j <;> simp [hkj]
    simp only [List.length_cons] at hf
    have hone : f k + 1 ≤ bound := Nat.le_trans (by omega) (hf k)
    rw [List.foldlM_cons, getElem?_rangeMap f (hmap k List.mem_cons_self)]
    simp only [Option.bind_eq_bind, Option.bind_some, Option.pure_def, harith.add hone, hset]
    simp only [Option.bind_eq_bind, Option.pure_def] at ih
    rw [ih fun j hj => hmap j (List.mem_cons_of_mem _ hj)]
    · congr 1
      apply List.map_congr_left
      intro j _
      simp only [List.count_cons, beq_iff_eq]
      omega
    · intro j
      have hj := hf j
      split <;> omega

theorem uses_eq {n : Nat} {map : List Nat} (harith : arith.Exact map.length)
    (hmap : ∀ j ∈ map, j < n) : uses arith n map = some ((List.range n).map map.count) := by
  have hzero : List.replicate n 0 = (List.range n).map fun _ => 0 := by
    rw [List.map_const', List.length_range]
  rw [uses, hzero, foldlM_uses harith hmap _ (by simp)]
  simp

theorem runsBelow_eq (harith : arith.Exact bound) {p : Nat → Option Bool} {q : Nat → Bool} {n : Nat}
    (h : ∀ j < n, p j = some (q j)) (len : Nat) :
    runsBelow arith p n (if len = 0 then none else some (n + len)) =
      some (Shuffle.runsBelow q n len) := by
  induction n generalizing len with
  | zero =>
    rw [Nat.zero_add, Shuffle.runsBelow]
    split <;> rfl
  | succ n ih =>
    have hhere := h n (Nat.lt_succ_self n)
    have hnone := ih (fun j hj => h j (Nat.lt_succ_of_lt hj)) 0
    have hsome := ih (fun j hj => h j (Nat.lt_succ_of_lt hj)) (len + 1)
    simp only [Nat.add_eq_zero_iff, Nat.one_ne_zero, and_false, if_false, if_true] at hnone hsome
    cases len with
    | zero =>
      simp only [runsBelow, Shuffle.runsBelow, hhere, hnone, if_true, Option.getD_none,
        Option.bind_eq_bind, Option.bind_some]
      rw [hsome]
      split <;> rfl
    | succ len =>
      have hrun : n + (len + 1 + 1) = n + 1 + (len + 1) := by omega
      rw [hrun] at hsome
      simp only [runsBelow, Shuffle.runsBelow, hhere, hnone, Nat.succ_ne_zero, if_false,
        Option.getD_some, hsome, harith.sub (show n + 1 ≤ n + 1 + (len + 1) by omega),
        Nat.add_sub_cancel_left, Option.bind_eq_bind, Option.bind_some]
      split <;> rfl

theorem dropUnused_eq (harith : arith.Exact bound) (n : Nat) (map : List Nat) :
    dropUnused arith n ((List.range n).map map.count) = some (Shuffle.dropUnused n map) := by
  have hruns : runsBelow arith (fun j => ((List.range n).map map.count)[j]?.map (· == 0)) n none =
      some (Shuffle.runsBelow (fun j => !map.contains j) n 0) := by
    refine runsBelow_eq harith (fun j hj => ?_) 0
    rw [getElem?_rangeMap _ hj, Option.map_some, Option.some.injEq, Bool.eq_iff_iff]
    simp [List.count_eq_zero]
  rw [dropUnused, hruns]
  rfl

theorem extraCopies_eq (harith : arith.Exact bound) (n : Nat) (map : List Nat) :
    extraCopies arith ((List.range n).map map.count) (kept n map) =
      some (Shuffle.extraCopies n map) := by
  apply mapM_eq_map
  intro j hj
  simp only [kept, List.mem_filter, List.mem_range, List.contains_iff_mem] at hj
  have hused : 1 ≤ map.count j := List.count_pos_iff.mpr hj.2
  rw [getElem?_rangeMap _ hj.1]
  exact harith.sub hused

/-- The runs that are complete after `n` positions, and the one that is being followed, are those
    that are found from the other end. -/
theorem foldlM_extendRuns (harith : arith.Exact bound) {extra : List Nat} {n : Nat}
    (hn : n ≤ extra.length) :
    ∃ runs start, (List.range n).foldlM (extendRuns arith extra) ([], none) = some (runs, start) ∧
      (∀ first, start = some first → first ≤ n) ∧
      ∀ len, Shuffle.runsBelow (fun i => decide (0 < extra[i]?.getD 0)) n len =
        match start with
        | none => if len = 0 then runs else (n, len) :: runs
        | some first => (first, n + len - first) :: runs := by
  induction n with
  | zero =>
    refine ⟨[], none, rfl, by simp, fun len => ?_⟩
    rw [Shuffle.runsBelow]
  | succ n ih =>
    obtain ⟨runs, start, hfold, hstart, hruns⟩ := ih (by omega)
    have hread : extra[n]? = some extra[n] := List.getElem?_eq_getElem (by omega)
    rw [List.range_succ, List.foldlM_append, hfold]
    simp only [Option.bind_eq_bind, Option.bind_some, List.foldlM_cons, List.foldlM_nil,
      extendRuns, hread, Shuffle.runsBelow, hruns, Option.getD_some, decide_eq_true_eq]
    by_cases hpos : 0 < extra[n]
    · simp only [if_pos hpos]
      refine ⟨runs, some (start.getD n), rfl, ?_, fun len => ?_⟩
      · rintro first ⟨⟩
        cases start with
        | none => exact Nat.le_succ n
        | some first => exact Nat.le_succ_of_le (hstart first rfl)
      · rw [show n + 1 + len = n + (len + 1) by omega]
        cases start with
        | none =>
          simp only [Nat.succ_ne_zero, if_false, Option.getD_none, Nat.add_sub_cancel_left]
        | some first => rfl
    · simp only [if_neg hpos]
      cases start with
      | none => exact ⟨runs, none, rfl, by simp, fun len => rfl⟩
      | some first =>
        simp only [harith.sub (hstart first rfl)]
        exact ⟨(first, n - first) :: runs, none, rfl, by simp, fun len => rfl⟩

theorem shortRuns_eq (harith : arith.Exact bound) (extra : List Nat) :
    shortRuns arith extra = some (Shuffle.runsBelow (fun i => decide (0 < extra[i]?.getD 0))
      extra.length 0).reverse := by
  obtain ⟨runs, start, hfold, hstart, hruns⟩ :=
    foldlM_extendRuns harith (Nat.le_refl extra.length)
  rw [shortRuns, hfold, hruns]
  cases start with
  | none => rfl
  | some first =>
    simp only [Option.bind_eq_bind, Option.bind_some, harith.sub (hstart first rfl)]
    rfl

/-- After `k` sweeps each argument is short of `k` copies less. -/
theorem copyRepeated_eq (harith : arith.Exact bound) (extra : List Nat) (k sweeps : Nat) :
    copyRepeated arith sweeps (extra.map (· - k)) =
      some ((List.range' k sweeps).flatMap fun sweep =>
        (Shuffle.runsBelow (fun i => decide (sweep < extra[i]?.getD 0)) extra.length 0).reverse.map
          fun (pos, count) => dup pos count) := by
  induction sweeps generalizing k with
  | zero => rfl
  | succ sweeps ih =>
    have hshort : (fun i : Nat => decide (0 < (extra.map (· - k))[i]?.getD 0)) =
        fun i => decide (k < extra[i]?.getD 0) := by
      funext i
      rw [List.getElem?_map, decide_eq_decide]
      cases extra[i]? with
      | none => simp
      | some e =>
        simp only [Option.map_some, Option.getD_some]
        omega
    have hless : ((extra.map (· - k)).mapM fun e => if 0 < e then arith.sub e 1 else some e) =
        some (extra.map (· - (k + 1))) := by
      have hsub : ∀ e ∈ extra.map (· - k),
          (if 0 < e then arith.sub e 1 else some e) = some (e - 1) := by
        intro e _
        split
        · exact harith.sub ‹_›
        · congr 1
          omega
      rw [mapM_eq_map hsub, List.map_map]
      rfl
    rw [copyRepeated, shortRuns_eq harith, hshort, hless, List.length_map, List.range'_succ,
      List.flatMap_cons]
    simp only [Option.bind_eq_bind, Option.bind_some, ih]
    rfl

theorem copyRepeated_extraCopies (harith : arith.Exact bound) (n : Nat) (map : List Nat) :
    copyRepeated arith ((Shuffle.extraCopies n map).max?.getD 0) (Shuffle.extraCopies n map) =
      some (Shuffle.copyRepeated n map) := by
  have hsweeps := copyRepeated_eq harith (Shuffle.extraCopies n map) 0
    ((Shuffle.extraCopies n map).max?.getD 0)
  simp only [Nat.sub_zero, List.map_id_fun', id_eq, ← List.range_eq_range'] at hsweeps
  exact hsweeps

end Stocking

/-! ## Putting in order -/

section Reorder

variable {arith : Arithmetic} {widths map cur : List Nat} {i : Nat}

theorem getElem?_widths {j : Nat} (hj : j < widths.length) :
    widths[j]? = some (widthOf widths j) := by
  rw [widthOf, List.getElem?_eq_getElem hj, Option.getD_some]

theorem candidatesUpTo_eq (harith : arith.Exact map.length) (h : SettledBelow map cur i)
    (hmap : ∀ j ∈ map, j < widths.length) {held wanted k : Nat} (hheld : cur[i]? = some held)
    (hin : held < widths.length) (hwanted : map[i]? = some wanted) (hik : i < k)
    (hk : k < map.length) :
    candidatesUpTo arith widths cur i held wanted k = some
      ((if cur[k]? = map[i]? then
        (if cur[i]?.map (widthOf widths) = cur[k]?.map (widthOf widths) then [swap i k] else []) ++
          (if i + 2 ≤ k then [rotate i (k - i + 1) 1] else [])
      else []) ++
      (if i + 2 ≤ k ∧ cur[i + 1]? = map[i]? then [rotate i (k - i + 1) (k - i)] else [])) := by
  obtain ⟨entry, hentry, hentryIn⟩ := h.exists_entry hmap hk
  obtain ⟨next, hnext, -⟩ := h.exists_entry hmap (by omega : i + 1 < map.length)
  have hcount : k - i + 1 - 1 = k - i := by omega
  simp only [candidatesUpTo, hentry, hnext, hheld, hwanted, getElem?_widths hin,
    getElem?_widths hentryIn, harith.add (show i + 2 ≤ map.length by omega),
    harith.add (show i + 1 ≤ map.length by omega), harith.sub (Nat.le_of_lt hik),
    harith.add (show k - i + 1 ≤ map.length by omega), harith.sub (show 1 ≤ k - i + 1 by omega),
    hcount, Option.bind_eq_bind, Option.bind_some, Option.pure_def, Option.some.injEq,
    Option.map_some]
  by_cases hew : entry = wanted <;> by_cases hfar : i + 2 ≤ k <;>
    by_cases hnw : next = wanted <;> simp [hew, hfar, hnw]

theorem candidates_eq (harith : arith.Exact map.length) (h : SettledBelow map cur i)
    (hmap : ∀ j ∈ map, j < widths.length) {held wanted : Nat} (hheld : cur[i]? = some held)
    (hin : held < widths.length) (hwanted : map[i]? = some wanted) (hi : i < map.length) :
    candidates arith widths map cur i held wanted =
      some (Shuffle.candidates (widthOf widths) map cur i) := by
  have hall : ∀ k ∈ (List.range map.length).drop (i + 1), i < k ∧ k < map.length := by
    intro k hk
    rw [List.range_eq_range', List.drop_range', List.mem_range'_1] at hk
    omega
  have hmapM := mapM_eq_map fun k hk =>
    candidatesUpTo_eq harith h hmap hheld hin hwanted (hall k hk).1 (hall k hk).2
  rw [candidates, harith.add hi, Option.bind_eq_bind, Option.bind_some, hmapM]
  rfl

/-- Counting position by position agrees with counting in the two lists at once. -/
theorem settled_eq {next : List Nat} (hlen : next.length = map.length) :
    settled map next i = ((List.range' i (map.length - i)).map fun p =>
      next[p]?.getD 0 == map[p]?.getD 0).count true := by
  have hlists : ((List.range' i (map.length - i)).map fun p =>
      next[p]?.getD 0 == map[p]?.getD 0) =
        ((next.drop i).zip (map.drop i)).map fun (x, y) => x == y := by
    apply List.ext_getElem
    · simp [hlen]
    · intro k hk _
      have hkm : i + k < map.length := by
        simp only [List.length_map, List.length_range'] at hk
        omega
      simp [hkm, hlen]
  rw [hlists, List.count_eq_countP, List.countP_map, settled]
  congr 1
  funext ⟨x, y⟩
  simp

theorem merit_eq {width : Nat → Nat} {s : Shuffle} {next : List Nat}
    (harith : arith.Exact cur.length) (hs : s.Buildable width cur) (hact : s.act? cur = some next)
    (hlen : next.length = map.length) :
    merit arith map cur i s = some (Shuffle.merit map cur i s) := by
  have hhits : ((List.range' i (map.length - i)).mapM fun p => do
      let held ← next[p]?
      let wanted ← map[p]?
      return held == wanted) = some ((List.range' i (map.length - i)).map fun p =>
        next[p]?.getD 0 == map[p]?.getD 0) := by
    apply mapM_eq_map
    intro p hp
    rw [List.mem_range'_1] at hp
    rw [List.getElem?_eq_getElem (by omega), List.getElem?_eq_getElem (by omega)]
    rfl
  simp only [merit, act_eq harith hact, span_eq harith hs, Option.bind_eq_bind, Option.bind_some,
    Option.pure_def] at hhits ⊢
  rw [hhits, Shuffle.merit, act_eq_of_act? hact, settled_eq hlen]
  rfl

theorem best_eq (ss : List Shuffle) :
    best (ss.map fun s => (s, Shuffle.merit map cur i s)) =
      (best? map cur i ss).map fun s => (s, Shuffle.merit map cur i s) := by
  induction ss with
  | nil => rfl
  | cons s rest ih =>
    simp only [List.map_cons, best, best?, ih]
    cases best? map cur i rest with
    | none => rfl
    | some t =>
      simp only [Option.map_some]
      split <;> rfl

theorem exchangeLast_eq (harith : arith.Exact map.length) (h : SettledBelow map cur i)
    (hmap : ∀ j ∈ map, j < widths.length) (hi : i + 2 = map.length) :
    exchangeLast arith widths cur i = some (Shuffle.exchangeLast (widthOf widths) cur i) := by
  cases i with
  | zero => rfl
  | succ pivot =>
    obtain ⟨before, hbefore, hbeforeIn⟩ := h.exists_entry hmap (by omega : pivot < map.length)
    obtain ⟨last, hlast, hlastIn⟩ :=
      h.exists_entry hmap (by omega : pivot + 1 + 1 < map.length)
    simp only [exchangeLast, Shuffle.exchangeLast, Nat.succ_ne_zero, if_false,
      harith.sub (show 1 ≤ pivot + 1 by omega), Nat.add_sub_cancel,
      harith.add (show pivot + 1 + 1 ≤ map.length by omega), hbefore, hlast,
      getElem?_widths hbeforeIn, getElem?_widths hlastIn, Option.bind_eq_bind, Option.bind_some,
      Option.pure_def, Option.map_some, Option.some.injEq]

/-- The induction follows `SettledBelow.realizes`: the settled prefix is what makes every read
    succeed. -/
theorem reorder_eq {k : Nat} (harith : arith.Exact (max map.length 3)) (h : SettledBelow map cur i)
    (hmap : ∀ j ∈ map, j < widths.length) (hk : i + k = map.length) :
    reorder arith widths map (List.range' i k) cur =
      some (Shuffle.reorder (widthOf widths) map (List.range' i k) cur) := by
  have hexact : arith.Exact map.length := harith.mono (Nat.le_max_left ..)
  induction k generalizing i cur with
  | zero => rfl
  | succ k ih =>
    have hlt : i < map.length := by omega
    have hcur : arith.Exact cur.length := h.perm.length_eq ▸ hexact
    obtain ⟨held, hheld, hin⟩ := h.exists_entry hmap hlt
    have hwanted := List.getElem?_eq_getElem hlt
    rw [List.range'_succ, reorder, Shuffle.reorder]
    simp only [hheld, hwanted, Option.bind_eq_bind, Option.bind_some, Option.some.injEq]
    by_cases hi : held = map[i]
    · rw [if_pos hi, if_pos hi]
      exact ih (h.next (by rw [hheld, hwanted, hi])) (by omega)
    · have hjudged : ∀ s ∈ Shuffle.candidates (widthOf widths) map cur i,
          (do return (s, ← merit arith map cur i s) : Option (Shuffle × Merit)) =
            some (s, Shuffle.merit map cur i s) := by
        intro s hs
        obtain ⟨hbuild, ys, hact, hys⟩ := h.candidate hs
        rw [merit_eq hcur hbuild hact hys.perm.length_eq]
        rfl
      have hall := mapM_eq_map hjudged
      simp only [Option.bind_eq_bind] at hall
      rw [if_neg hi, if_neg hi, candidates_eq hexact h hmap hheld hin hwanted hlt,
        Option.bind_some, hall, Option.bind_some, best_eq]
      have hne : cur[i]? ≠ map[i]? := by
        rw [hheld, hwanted]
        exact fun heq => hi (Option.some.inj heq)
      rcases h.best_cases (widthOf widths) hlt hne with
        ⟨s, ys, hbest, -, hact, hys⟩ | ⟨hbest, hi2, hlast⟩
      · simp only [hbest, Option.map_some, act_eq hcur hact, act_eq_of_act? hact,
          Option.bind_some, ih hys (by omega), Option.pure_def]
      · have hdone : SettledBelow map map (i + 1) := ⟨.refl _, rfl⟩
        have hwithin : Within (max map.length 3) cur _ := hlast.path.within (by
          rw [growth_exchangeLast, h.perm.length_eq]
          split <;> omega)
        simp only [hbest, Option.map_none, exchangeLast_eq hexact h hmap hi2,
          actAll_eq harith hwithin, hlast.path.actAll?_eq, hlast.path.actAll_eq, Option.bind_some,
          ih hdone (by omega), Option.pure_def]

end Reorder

/-- No number on the way is larger than the longest list. -/
theorem plan_eq {arith : Arithmetic} {widths map : List Nat}
    (harith : arith.Exact (max widths.length (max map.length 3)))
    (hmap : ∀ j ∈ map, j < widths.length) :
    plan arith widths map = some (Shuffle.plan widths map) := by
  have hdrop : Path (widthOf widths) _ _ _ := path_dropUnused widths.length map
  have hcopy : Path (widthOf widths) _ _ _ := path_copyRepeated widths.length map
  have hstart : SettledBelow map (stocked widths.length map) 0 := .start (stocked_perm hmap)
  have horder := reorder_eq (harith.mono (Nat.le_max_right ..)) hstart hmap
    (Nat.zero_add map.length)
  have hwidths : arith.Exact widths.length := harith.mono (Nat.le_max_left ..)
  have hentries : arith.Exact map.length := harith.mono (by omega)
  have hdropped : Within widths.length _ _ := hdrop.within (by simp [growth_dropUnused])
  have hcopied : Within map.length _ _ := hcopy.within (Nat.le_of_eq (kept_add_growth hmap))
  rw [← List.range_eq_range'] at horder
  simp only [plan, uses_eq hentries hmap, dropUnused_eq hwidths, actAll_eq hwidths hdropped,
    hdrop.actAll?_eq, extraCopies_eq hentries, copyRepeated_extraCopies hentries,
    actAll_eq hentries hcopied, hcopy.actAll?_eq, horder, Option.bind_eq_bind, Option.bind_some,
    Option.pure_def]
  rw [Shuffle.plan, (hdrop.append hcopy).actAll_eq]
  rfl

end Checked

/-! ## The planner -/

/-- For a map that names existing arguments, planning reads nothing that is missing, and the plan
    turns the caller's arguments into exactly the list that the map asks for. Where every argument
    takes one or two slots, a step can be built for each shuffle on the list it applies to. -/
theorem plan_path_to_map (widths map : List Nat) (hmap : ∀ j ∈ map, j < widths.length) :
    Checked.plan .unbounded widths map = some (plan widths map) ∧
      actAll? (plan widths map) (List.range widths.length) = some map ∧
      ((∀ w ∈ widths, w = 1 ∨ w = 2) →
        Path (widthOf widths) (List.range widths.length) (plan widths map) map) := by
  have hplan := realizes_plan hmap
  refine ⟨Checked.plan_eq (Arithmetic.unbounded_exact _) hmap, hplan.path.actAll?_eq,
    fun hwidths => ?_⟩
  rcases hplan.even with hpath | huneven
  · exact hpath
  · exact absurd huneven (not_endsUnevenly hmap hwidths)

/-- Two arguments of different width are exchanged around a third, after a drop and a copy. -/
theorem plan_path_to_map_uneven_pair :
    (∀ j ∈ [0, 2, 0, 1], j < [1, 2, 1, 2].length) ∧
      actAll? (plan [1, 2, 1, 2] [0, 2, 0, 1]) (List.range 4) = some [0, 2, 0, 1] ∧
      Path (widthOf [1, 2, 1, 2]) (List.range 4) (plan [1, 2, 1, 2] [0, 2, 0, 1]) [0, 2, 0, 1] := by
  have hmap : ∀ j ∈ [0, 2, 0, 1], j < [1, 2, 1, 2].length := by decide
  obtain ⟨-, hact, hpath⟩ := plan_path_to_map [1, 2, 1, 2] [0, 2, 0, 1] hmap
  exact ⟨hmap, hact, hpath (by decide)⟩

end Shuffle

end CallBridge
