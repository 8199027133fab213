import CallBridge.Proofs.Growth
import CallBridge.Proofs.Rewiring
import Mathlib.Data.List.Dedup

/-!
# Lengths of plans

How many shuffles each phase of a plan takes. Dropping takes one for each maximal
run of unused arguments, and between two runs there is an argument that is used.
Every copying shuffle makes the list longer, so there are at most as many of them
as copies. Putting in order takes one shuffle for each position at most, except
that the exchange of the last two arguments takes two, which also settle the last
position. A rewired handle has one node for each shuffle.
-/

namespace CallBridge

open Shuffle (Path)

namespace Shuffle

/-! ## Maximal runs -/

/-- The `count` positions from `pos` on satisfy `p`, and no neighbour of theirs below `n` does. -/
structure IsRun (p : Nat → Prop) (n pos count : Nat) : Prop where
  nonempty : 0 < count
  within : pos + count ≤ n
  inside (k : Nat) : pos ≤ k → k < pos + count → p k
  before (k : Nat) : k + 1 = pos → ¬ p k
  after : pos + count < n → ¬ p (pos + count)

section Runs

variable {p : Nat → Prop} {n pos count other len : Nat}

/-- A position that does not satisfy `p` ends no run. -/
theorem IsRun.end_ne (hrun : IsRun p n pos count) {k : Nat} (hk : ¬ p k) : pos + count ≠ k + 1 := by
  intro hend
  have hpos := hrun.nonempty
  exact hk (hrun.inside k (by omega) (by omega))

/-- Of two runs, one that ends inside the other is the other. -/
theorem IsRun.eq_of_le (hrun : IsRun p n pos count) (hother : IsRun p n other len)
    (hlt : other < pos + count) (hle : pos + count ≤ other + len) : pos = other ∧ count = len := by
  have hpos := hrun.nonempty
  have hin := hother.within
  obtain rfl : pos = other := by
    rcases Nat.lt_trichotomy pos other with hlow | heq | hhigh
    · exact absurd (hrun.inside (other - 1) (by omega) (by omega))
        (hother.before (other - 1) (by omega))
    · exact heq
    · exact absurd (hother.inside (pos - 1) (by omega) (by omega))
        (hrun.before (pos - 1) (by omega))
  refine ⟨rfl, ?_⟩
  by_contra hne
  exact hrun.after (by omega) (hother.inside (pos + count) (by omega) (by omega))

end Runs

section RunsBelow

variable {p : Nat → Bool}

/-- The runs that are collected are the maximal ones. The `len` positions from `n` on belong to the
    run that is being collected, which ends there. -/
theorem mem_runsBelow_iff {bound n len pos count : Nat} (hle : n + len ≤ bound)
    (hrun : ∀ k, n ≤ k → k < n + len → p k = true) (hend : n + len < bound → ¬ p (n + len) = true) :
    (pos, count) ∈ runsBelow p n len ↔
      IsRun (fun k => p k = true) bound pos count ∧ pos + count ≤ n + len := by
  induction n generalizing len with
  | zero =>
    rw [runsBelow]
    by_cases hlen : len = 0
    · rw [if_pos hlen]
      simp only [List.not_mem_nil, false_iff, not_and]
      intro hother
      have hpos := hother.nonempty
      omega
    · have hown : IsRun (fun k => p k = true) bound 0 len :=
        ⟨Nat.pos_of_ne_zero hlen, hle, hrun, fun k hk => by omega, hend⟩
      rw [if_neg hlen]
      simp only [List.mem_singleton, Prod.mk.injEq]
      constructor
      · rintro ⟨rfl, rfl⟩
        exact ⟨hown, Nat.le_refl _⟩
      · rintro ⟨hother, hle⟩
        have hpos := hother.nonempty
        exact hother.eq_of_le hown (by omega) hle
  | succ n ih =>
    rw [runsBelow]
    by_cases hp : p n = true
    · have hmore := ih (show n + (len + 1) ≤ bound by omega)
        (fun k hnk hk => by
          rcases Nat.eq_or_lt_of_le hnk with rfl | hlt
          · exact hp
          · exact hrun k hlt (by omega))
        (by rwa [Nat.add_comm len 1, ← Nat.add_assoc])
      rw [if_pos hp, hmore, Nat.add_comm len 1, ← Nat.add_assoc]
    · -- The position `n` is in no run, so what is left ends before it.
      have hrest := ih (show n + 0 ≤ bound by omega) (fun k hnk hk => by omega) (fun _ => hp)
      rw [if_neg hp]
      by_cases hlen : len = 0
      · rw [if_pos hlen, hrest]
        refine and_congr_right fun hother => ?_
        have hne := hother.end_ne hp
        omega
      · have hown : IsRun (fun k => p k = true) bound (n + 1) len :=
          ⟨Nat.pos_of_ne_zero hlen, hle, hrun, fun k hk => Nat.succ.inj hk ▸ hp, hend⟩
        rw [if_neg hlen, List.mem_cons, hrest, Prod.mk.injEq]
        constructor
        · rintro (⟨rfl, rfl⟩ | ⟨hother, hle⟩)
          · exact ⟨hown, Nat.le_refl _⟩
          · exact ⟨hother, by omega⟩
        · rintro ⟨hother, hle⟩
          have hne := hother.end_ne hp
          by_cases hlow : pos + count ≤ n + 0
          · exact .inr ⟨hother, hlow⟩
          · exact .inl (hother.eq_of_le hown (by omega) hle)

theorem start_le_of_mem_runsBelow {n len : Nat} {run : Nat × Nat}
    (hmem : run ∈ runsBelow p n len) : run.1 ≤ n := by
  induction n generalizing len with
  | zero =>
    rw [runsBelow] at hmem
    split at hmem
    · cases hmem
    · obtain rfl := List.mem_singleton.mp hmem
      exact Nat.le_refl 0
  | succ n ih =>
    rw [runsBelow] at hmem
    split at hmem
    · exact Nat.le_succ_of_le (ih hmem)
    · split at hmem
      · exact Nat.le_succ_of_le (ih hmem)
      · rcases List.mem_cons.mp hmem with rfl | hmem
        · exact Nat.le_refl _
        · exact Nat.le_succ_of_le (ih hmem)

theorem pairwise_runsBelow (p : Nat → Bool) (n len : Nat) :
    (runsBelow p n len).Pairwise fun run next => next.1 < run.1 := by
  induction n generalizing len with
  | zero =>
    rw [runsBelow]
    split <;> simp
  | succ n ih =>
    rw [runsBelow]
    split
    · exact ih _
    · split
      · exact ih _
      · exact .cons (fun next hnext => Nat.lt_succ_of_le (start_le_of_mem_runsBelow hnext)) (ih 0)

/-- Two runs have a position between them. -/
theorem two_mul_length_runsBelow_le (p : Nat → Bool) (n len : Nat) :
    2 * (runsBelow p n len).length ≤ n + if len = 0 then 1 else 2 := by
  induction n generalizing len with
  | zero =>
    rw [runsBelow]
    split <;> simp
  | succ n ih =>
    rw [runsBelow]
    split
    · have hmore := ih (len + 1)
      rw [if_neg (Nat.succ_ne_zero len)] at hmore
      split <;> omega
    · have hrest := ih 0
      rw [if_pos rfl] at hrest
      split
      · omega
      · rw [List.length_cons]
        omega

end RunsBelow

/-! ## Shuffles of each phase -/

/-- There is one drop for each maximal run of unused arguments, from right to left. -/
theorem dropUnused_eq_runs (n : Nat) (map : List Nat) :
    ∃ runs : List (Nat × Nat), dropUnused n map = runs.map (fun run => drop run.1 run.2) ∧
      runs.Pairwise (fun run next => next.1 < run.1) ∧
      ∀ pos count, (pos, count) ∈ runs ↔ IsRun (· ∉ map) n pos count := by
  have hunused : (fun j => (!map.contains j) = true) = (· ∉ map) := by
    funext j
    simp
  refine ⟨runsBelow (fun j => !map.contains j) n 0, rfl, pairwise_runsBelow _ n 0,
    fun pos count => ?_⟩
  rw [mem_runsBelow_iff (Nat.le_refl n) (fun k hnk hk => by omega) (fun h => by omega), hunused]
  exact ⟨And.left, fun hrun => ⟨hrun, hrun.within⟩⟩

theorem length_dropUnused_le (n : Nat) (map : List Nat) :
    (dropUnused n map).length ≤ (n + 1) / 2 := by
  have hruns := two_mul_length_runsBelow_le (fun j => !map.contains j) n 0
  rw [if_pos rfl] at hruns
  rw [dropUnused, List.length_map]
  omega

/-- Shuffles that all copy something make a list longer by at least one entry each. -/
theorem Path.length_le_growth {α : Type} {width : α → Nat} {xs ys : List α} {ss : List Shuffle}
    (hpath : Path width xs ss ys) (hdup : ∀ s ∈ ss, ∃ pos count, s = dup pos count) :
    ss.length ≤ growth ss := by
  induction hpath with
  | nil xs => exact Nat.le_refl 0
  | @cons xs ys zs s rest hs hact hrest ih =>
    obtain ⟨pos, count, rfl⟩ := hdup s List.mem_cons_self
    have htail := ih fun s hmem => hdup s (List.mem_cons_of_mem _ hmem)
    have hcount : 1 ≤ count := hs.1
    rw [List.length_cons, growth]
    omega

theorem eq_dup_of_mem_copyRepeated {n : Nat} {map : List Nat} {s : Shuffle}
    (hmem : s ∈ copyRepeated n map) : ∃ pos count, s = dup pos count := by
  obtain ⟨sweep, -, hmem⟩ := List.mem_flatMap.mp hmem
  obtain ⟨run, -, rfl⟩ := List.mem_map.mp hmem
  exact ⟨run.1, run.2, rfl⟩

/-- The arguments that are kept are the different entries of the map. -/
theorem length_kept {n : Nat} {map : List Nat} (hmap : ∀ j ∈ map, j < n) :
    (kept n map).length = map.dedup.length := by
  have hnodup : (kept n map).Nodup := List.nodup_range.filter _
  apply List.Perm.length_eq
  rw [List.perm_ext_iff_of_nodup hnodup (List.nodup_dedup map)]
  intro j
  rw [List.mem_dedup, ← List.count_pos_iff, count_kept hmap]
  by_cases hj : j ∈ map <;> simp [hj]

theorem length_copyRepeated_le {n : Nat} {map : List Nat} (hmap : ∀ j ∈ map, j < n) :
    (copyRepeated n map).length ≤ map.length - map.dedup.length := by
  have hpath : Path (fun _ => 0) _ _ _ := path_copyRepeated n map
  have hcopies := hpath.length_le_growth fun s => eq_dup_of_mem_copyRepeated
  have hgrowth := kept_add_growth hmap
  rw [length_kept hmap] at hgrowth
  omega

theorem length_exchangeLast (width : Nat → Nat) (cur : List Nat) (i : Nat) :
    (exchangeLast width cur i).length = 2 := by
  cases i with
  | zero => rfl
  | succ pivot =>
    rw [exchangeLast]
    split <;> rfl

/-- At most one shuffle for each position that is left: a candidate settles its position, and the
    exchange of the last two settles both. -/
theorem SettledBelow.length_reorder_le {width : Nat → Nat} {map cur : List Nat} {i k : Nat}
    (h : SettledBelow map cur i) (hk : i + k = map.length) :
    (reorder width map (List.range' i k) cur).length ≤ k := by
  induction k generalizing i cur with
  | zero => exact Nat.le_refl 0
  | succ k ih =>
    rw [List.range'_succ, reorder]
    by_cases hi : cur[i]? = map[i]?
    · rw [if_pos hi]
      exact Nat.le_succ_of_le (ih (h.next hi) (by omega))
    · rw [if_neg hi]
      rcases h.best_cases width (by omega) hi with
        ⟨s, ys, hbest, -, hact, hys⟩ | ⟨hbest, hlast, hrealizes⟩
      · simp only [hbest, act_eq_of_act? hact, List.length_cons]
        exact Nat.succ_le_succ (ih hys (by omega))
      · -- Two positions are left, and the list is in order afterwards.
        simp only [hbest, hrealizes.path.actAll_eq, reorder_self, List.append_nil,
          length_exchangeLast]
        omega

/-- What a plan does after dropping and copying. -/
theorem plan_eq_append {widths map : List Nat} (hmap : ∀ j ∈ map, j < widths.length) :
    ∃ moves, plan widths map =
        dropUnused widths.length map ++ copyRepeated widths.length map ++ moves ∧
      moves.length ≤ map.length := by
  have hfront : Path (fun _ => 0) _ _ _ :=
    (path_dropUnused widths.length map).append (path_copyRepeated widths.length map)
  have hstart : SettledBelow map (stocked widths.length map) 0 := .start (stocked_perm hmap)
  refine ⟨_, rfl, ?_⟩
  rw [hfront.actAll_eq, List.range_eq_range']
  exact hstart.length_reorder_le (Nat.zero_add map.length)

theorem length_plan_le {widths map : List Nat} (hmap : ∀ j ∈ map, j < widths.length) :
    (plan widths map).length ≤
      (widths.length + 1) / 2 + (map.length - map.dedup.length) + map.length := by
  obtain ⟨moves, hplan, hmoves⟩ := plan_eq_append hmap
  have hdrops := length_dropUnused_le widths.length map
  have hcopies := length_copyRepeated_le hmap
  rw [hplan, List.length_append, List.length_append]
  omega

end Shuffle

/-! ## Nodes of a rewired handle -/

namespace Host

variable {h : Host} {new : Signature} {type : Nat → Ty} {js map : List Nat} {ss : List Shuffle}
variable {target r : Handle}

/-- A stack of shuffles has one node for each of them. -/
theorem chain_of_shuffles (hpath : Path (fun _ => 0) js ss map)
    (hok : h.shuffles (new.withParams (js.map type)) ss target = .ok r) :
    ∃ nodes, r.chain = nodes ++ target.chain ∧ nodes.length = ss.length := by
  induction hpath generalizing r with
  | nil js =>
    cases hok
    exact ⟨[], rfl, rfl⟩
  | @cons js ks map s rest hs hact hrest ih =>
    obtain ⟨inner, hinner, hok⟩ := (shuffles_cons_eq_ok_iff hact).mp hok
    obtain ⟨nodes, hchain, hlen⟩ := ih hinner
    obtain ⟨step, -, rfl⟩ := of_shuffle_eq_ok (hs.withParams new type) hok
    refine ⟨.adapter (new.withParams (js.map type)) step inner :: nodes, ?_, ?_⟩
    · rw [Handle.chain, hchain, List.cons_append]
    · rw [List.length_cons, List.length_cons, hlen]

/-- A plan takes one drop for each maximal run of unused arguments, from right to left, at most one
    copying shuffle for each copy, and at most one more shuffle for each entry of the map. A handle
    that is rewired by a map other than the identity has one node for each shuffle. -/
theorem plan_is_short :
    (∀ widths map : List Nat, (∀ j ∈ map, j < widths.length) →
      (∃ runs : List (Nat × Nat),
        Shuffle.dropUnused widths.length map = runs.map (fun run => .drop run.1 run.2) ∧
        runs.Pairwise (fun run next => next.1 < run.1) ∧
        ∀ pos count, (pos, count) ∈ runs ↔
          Shuffle.IsRun (· ∉ map) widths.length pos count) ∧
      (Shuffle.dropUnused widths.length map).length ≤ (widths.length + 1) / 2 ∧
      (∀ s ∈ Shuffle.copyRepeated widths.length map, ∃ pos count, s = .dup pos count) ∧
      (Shuffle.copyRepeated widths.length map).length ≤ map.length - map.dedup.length ∧
      ∃ moves, Shuffle.plan widths map = Shuffle.dropUnused widths.length map ++
          Shuffle.copyRepeated widths.length map ++ moves ∧
        moves.length ≤ map.length) ∧
    ∀ (h : Host) (new : Signature) (target r : Handle) (map : List Nat),
      new.isIdentityMap target.signature map = false → h.rewire new target map = .ok r →
      ∃ nodes, r.chain = nodes ++ target.chain ∧
        nodes.length = (Shuffle.plan new.widths map).length ∧
        nodes.length ≤ (new.arity + 1) / 2 + (map.length - map.dedup.length) + map.length := by
  constructor
  · intro widths map hmap
    exact ⟨Shuffle.dropUnused_eq_runs widths.length map,
      Shuffle.length_dropUnused_le widths.length map, fun s => Shuffle.eq_dup_of_mem_copyRepeated,
      Shuffle.length_copyRepeated_le hmap, Shuffle.plan_eq_append hmap⟩
  · intro h new target r map hmap hok
    obtain ⟨hcheck, hstack⟩ := (rewire_eq_ok_iff hmap).mp hok
    obtain ⟨hin, -⟩ := (Signature.checkMap_eq_ok_iff hmap).mp hcheck
    obtain ⟨nodes, hchain, hlen⟩ := chain_of_shuffles (Signature.realizes_plan hin).path hstack
    have hbound : (Shuffle.plan new.widths map).length ≤ _ :=
      Shuffle.length_plan_le (by simpa using hin)
    rw [Signature.length_widths] at hbound
    exact ⟨nodes, hchain, hlen, hlen ▸ hbound⟩

/-- Two used arguments between three unused ones, of different slot sizes and in the other order:
    three drops and an exchange of two shuffles, which is as many nodes as there can be. -/
theorem plan_is_short_full :
    let new : Signature := ⟨[.object, .prim .int, .object, .prim .long, .object], .object⟩
    let f : Handle := .direct "f" ⟨[.prim .long, .prim .int], .object⟩ HostFunction.echo
    (∀ j ∈ [3, 1], j < new.widths.length) ∧ new.isIdentityMap f.signature [3, 1] = false ∧
      (∃ moves, Shuffle.plan new.widths [3, 1] =
        [.drop 4 1, .drop 2 1, .drop 0 1] ++ [] ++ moves ∧ moves.length ≤ 2) ∧
      ∃ r nodes, ({} : Host).rewire new f [3, 1] = .ok r ∧ r.chain = nodes ++ f.chain ∧
        nodes.length = (5 + 1) / 2 + (2 - [3, 1].dedup.length) + 2 := by
  intro new f
  have hin : ∀ j ∈ [3, 1], j < new.widths.length := by decide
  have hmap : new.isIdentityMap f.signature [3, 1] = false := by decide
  obtain ⟨hphases, hnodes⟩ := plan_is_short
  have hdrops : Shuffle.dropUnused new.widths.length [3, 1] =
      [.drop 4 1, .drop 2 1, .drop 0 1] := by decide
  have hcopies : Shuffle.copyRepeated new.widths.length [3, 1] = [] := by decide
  have hplan : (Shuffle.plan new.widths [3, 1]).length =
      (5 + 1) / 2 + (2 - [3, 1].dedup.length) + 2 := by decide
  obtain ⟨-, -, -, -, hmoves⟩ := hphases new.widths [3, 1] hin
  rw [hdrops, hcopies] at hmoves
  obtain ⟨r, hok⟩ : ∃ r, ({} : Host).rewire new f [3, 1] = .ok r :=
    (exists_rewire_iff hmap rfl).mpr ⟨by decide, by decide⟩
  obtain ⟨nodes, hchain, hlen, -⟩ := hnodes {} new f r [3, 1] hmap hok
  exact ⟨hin, hmap, hmoves, r, nodes, hok, hchain, hlen.trans hplan⟩

end Host

end CallBridge
