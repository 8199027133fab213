import CallBridge.Proofs.Stocking

/-!
# Putting in order

The last phase of a plan settles the positions from left to right. Each shuffle
it chooses keeps what is settled and settles one position more. It finds no
shuffle only where the last two arguments are exchanged and differ in width; it
then goes around the argument before them, which works unless that one has a
third width.
-/

namespace CallBridge

namespace Shuffle

/-! ## Effect of one shuffle -/

section Effect

variable {xs : List Nat}

/-- A swap keeps what stands before it and exchanges its two entries. -/
theorem act?_swap_spec {first second : Nat} (hlt : first < second) (hin : second < xs.length) :
    ∃ ys, (swap first second).act? xs = some ys ∧ ys.Perm xs ∧ ys.take first = xs.take first ∧
      ys[first]? = xs[second]? ∧ ys[second]? = xs[first]? := by
  have hfirst := List.getElem?_eq_getElem (Nat.lt_trans hlt hin)
  have hsecond := List.getElem?_eq_getElem hin
  refine ⟨(xs.set first xs[second]).set second xs[first], ?_, ?_, ?_, ?_, ?_⟩
  · simp only [act?, hfirst, hsecond]
  · exact List.set_set_perm (Nat.lt_trans hlt hin) hin
  · rw [List.take_set_of_le (by omega), List.take_set_of_le (Nat.le_refl _)]
  · rw [List.getElem?_set_ne (by omega), List.getElem?_set_self (by omega), hsecond]
  · rw [List.getElem?_set_self (by rw [List.length_set]; exact hin), hfirst]

/-- A rotation keeps what stands before it and brings an entry from inside the run to its start. -/
theorem act?_rotate_spec {first count amount : Nat} (hin : first + count ≤ xs.length)
    (hpos : 1 ≤ amount) (hle : amount ≤ count) :
    ∃ ys, (rotate first count amount).act? xs = some ys ∧ ys.Perm xs ∧
      ys.take first = xs.take first ∧ ys[first]? = xs[first + (count - amount)]? := by
  have hlen : (slice first count xs).length = count := by
    simp only [slice, List.length_take, List.length_drop]
    omega
  have htake : (xs.take first).length = first := by
    rw [List.length_take]
    omega
  refine ⟨_, if_pos ⟨hin, hle⟩, ?_, ?_, ?_⟩
  · conv => rhs; rw [← take_append_slice_append_drop first count xs]
    exact ((rotateRight_perm amount _).append_left _).append_right _
  · rw [List.append_assoc, List.take_append_of_le_length (by omega),
      List.take_of_length_le (by omega)]
  · rw [List.append_assoc, List.getElem?_append_right (by omega), htake, Nat.sub_self,
      rotateRight, hlen, List.append_assoc, List.getElem?_append_left
        (by rw [List.length_drop, hlen]; omega), List.getElem?_drop, slice, Nat.add_zero,
      List.getElem?_take_of_lt (by omega), List.getElem?_drop]

end Effect

/-! ## The settled prefix -/

/-- The list is a rearrangement of the map and agrees with it before position `i`. -/
structure SettledBelow (map cur : List Nat) (i : Nat) : Prop where
  perm : cur.Perm map
  agrees : cur.take i = map.take i

namespace SettledBelow

variable {map cur : List Nat} {i : Nat}

theorem start (hperm : cur.Perm map) : SettledBelow map cur 0 :=
  ⟨hperm, rfl⟩

theorem eq_map (h : SettledBelow map cur map.length) : cur = map := by
  have hagrees := h.agrees
  rwa [List.take_length, ← h.perm.length_eq, List.take_length] at hagrees

theorem next (h : SettledBelow map cur i) (hi : cur[i]? = map[i]?) :
    SettledBelow map cur (i + 1) :=
  ⟨h.perm, by rw [List.take_add_one, List.take_add_one, h.agrees, hi]⟩

/-- A shuffle behind the prefix that brings the wanted entry to position `i` settles it. -/
theorem advance (h : SettledBelow map cur i) {ys : List Nat} (hperm : ys.Perm cur)
    (htake : ys.take i = cur.take i) (hi : ys[i]? = map[i]?) : SettledBelow map ys (i + 1) :=
  next ⟨hperm.trans h.perm, htake.trans h.agrees⟩ hi

/-- A rearranged map has an entry at each position of the map, which is one of its entries. -/
theorem exists_entry (h : SettledBelow map cur i) {n k : Nat} (hmap : ∀ j ∈ map, j < n)
    (hk : k < map.length) : ∃ j, cur[k]? = some j ∧ j < n := by
  have hcur : k < cur.length := by rwa [h.perm.length_eq]
  exact ⟨cur[k], List.getElem?_eq_getElem hcur,
    hmap _ (h.perm.mem_iff.mp (List.getElem_mem hcur))⟩

/-- What is wanted at an unsettled position stands further right. -/
theorem exists_later (h : SettledBelow map cur i) (hlt : i < map.length)
    (hne : cur[i]? ≠ map[i]?) : ∃ k, i < k ∧ k < map.length ∧ cur[k]? = map[i]? := by
  have hdrop : (cur.drop i).Perm (map.drop i) := by
    have hperm := h.perm
    rw [← List.take_append_drop i cur, ← List.take_append_drop i map, h.agrees] at hperm
    exact (List.perm_append_left_iff _).mp hperm
  have hwanted : map[i] ∈ map.drop i := by
    rw [List.drop_eq_getElem_cons hlt]
    exact List.mem_cons_self
  obtain ⟨d, hd⟩ := List.mem_iff_getElem?.mp (hdrop.mem_iff.mpr hwanted)
  rw [List.getElem?_drop] at hd
  have hfound : cur[i + d]? = map[i]? := by rw [hd, List.getElem?_eq_getElem hlt]
  have hbound : i + d < cur.length := (List.getElem?_eq_some_iff.mp hd).1
  have hd0 : d ≠ 0 := by
    rintro rfl
    exact hne hfound
  exact ⟨i + d, by omega, by rwa [h.perm.length_eq] at hbound, hfound⟩

end SettledBelow

/-! ## Candidates -/

section Candidates

variable {width : Nat → Nat} {map cur : List Nat} {i : Nat} {s : Shuffle}

theorem mem_candidates :
    s ∈ candidates width map cur i ↔ ∃ k, i < k ∧ k < map.length ∧
      ((cur[k]? = map[i]? ∧ cur[i]?.map width = cur[k]?.map width ∧ s = swap i k) ∨
        (cur[k]? = map[i]? ∧ i + 2 ≤ k ∧ s = rotate i (k - i + 1) 1) ∨
        (i + 2 ≤ k ∧ cur[i + 1]? = map[i]? ∧ s = rotate i (k - i + 1) (k - i))) := by
  have hrange : ∀ k, k ∈ (List.range map.length).drop (i + 1) ↔ i < k ∧ k < map.length := by
    intro k
    rw [List.range_eq_range', List.drop_range', List.mem_range'_1]
    omega
  simp only [candidates, List.mem_flatMap, hrange, and_assoc]
  refine exists_congr fun k => and_congr_right fun _ => and_congr_right fun _ => ?_
  rw [List.mem_append]
  constructor
  · rintro (h | h)
    · split at h
      · rename_i hk
        rcases List.mem_append.mp h with h | h
        · split at h
          · exact .inl ⟨hk, ‹_›, List.mem_singleton.mp h⟩
          · cases h
        · split at h
          · exact .inr (.inl ⟨hk, ‹_›, List.mem_singleton.mp h⟩)
          · cases h
      · cases h
    · split at h
      · rename_i hk
        exact .inr (.inr ⟨hk.1, hk.2, List.mem_singleton.mp h⟩)
      · cases h
  · rintro (⟨hk, hw, rfl⟩ | ⟨hk, h2, rfl⟩ | ⟨h2, hk, rfl⟩)
    · simp [hk, hw]
    · simp [hk, h2]
    · simp [hk, h2]

/-- A candidate is a shuffle that a step can be built for, and it settles the position. -/
theorem SettledBelow.candidate (h : SettledBelow map cur i) (hs : s ∈ candidates width map cur i) :
    s.Buildable width cur ∧ ∃ ys, s.act? cur = some ys ∧ SettledBelow map ys (i + 1) := by
  have hlen := h.perm.length_eq
  obtain ⟨k, hik, hkm, hs⟩ := mem_candidates.mp hs
  rcases hs with ⟨hk, hw, rfl⟩ | ⟨hk, h2, rfl⟩ | ⟨h2, hk, rfl⟩
  · obtain ⟨ys, hact, hperm, htake, hi, -⟩ := act?_swap_spec hik (by omega : k < cur.length)
    exact ⟨⟨hik, by omega, hw⟩, ys, hact, h.advance hperm htake (hi.trans hk)⟩
  · obtain ⟨ys, hact, hperm, htake, hi⟩ :=
      act?_rotate_spec (by omega : i + (k - i + 1) ≤ cur.length) (Nat.le_refl 1) (by omega)
    rw [show i + (k - i + 1 - 1) = k by omega] at hi
    exact ⟨⟨by omega, by omega, .inl rfl⟩, ys, hact, h.advance hperm htake (hi.trans hk)⟩
  · obtain ⟨ys, hact, hperm, htake, hi⟩ := act?_rotate_spec
      (by omega : i + (k - i + 1) ≤ cur.length) (by omega : 1 ≤ k - i) (by omega)
    rw [show i + (k - i + 1 - (k - i)) = i + 1 by omega] at hi
    exact ⟨⟨by omega, by omega, .inr (by omega)⟩, ys, hact, h.advance hperm htake (hi.trans hk)⟩

/-- Without a candidate, the last two arguments are exchanged and differ in width. -/
theorem SettledBelow.no_candidate (h : SettledBelow map cur i) (hlt : i < map.length)
    (hne : cur[i]? ≠ map[i]?) (hnone : candidates width map cur i = []) :
    i + 2 = map.length ∧ cur[i + 1]? = map[i]? ∧
      cur[i]?.map width ≠ cur[i + 1]?.map width := by
  have hnot : ∀ s, s ∉ candidates width map cur i := by simp [hnone]
  obtain ⟨k, hik, hkm, hk⟩ := h.exists_later hlt hne
  have hk1 : k = i + 1 := by
    by_contra hfar
    exact hnot _ (mem_candidates.mpr ⟨k, hik, hkm, .inr (.inl ⟨hk, by omega, rfl⟩)⟩)
  subst hk1
  refine ⟨?_, hk, ?_⟩
  · by_contra hlong
    exact hnot _ (mem_candidates.mpr
      ⟨i + 2, by omega, by omega, .inr (.inr ⟨Nat.le_refl _, hk, rfl⟩)⟩)
  · intro hw
    exact hnot _ (mem_candidates.mpr ⟨i + 1, hik, hkm, .inl ⟨hk, hw, rfl⟩⟩)

theorem best?_eq_none_iff {ss : List Shuffle} : best? map cur i ss = none ↔ ss = [] := by
  cases ss with
  | nil => simp [best?]
  | cons s rest =>
    simp only [best?]
    split
    · split <;> simp
    · simp

theorem mem_of_best? {ss : List Shuffle} (h : best? map cur i ss = some s) : s ∈ ss := by
  induction ss generalizing s with
  | nil => simp [best?] at h
  | cons t rest ih =>
    simp only [best?] at h
    split at h
    · rename_i u hu
      split at h
      · cases h
        exact List.mem_cons_of_mem _ (ih hu)
      · cases h
        exact List.mem_cons_self
    · cases h
      exact List.mem_cons_self

end Candidates

/-! ## Exchanging the last two arguments -/

section Ending

variable {width : Nat → Nat} {map cur : List Nat} {i : Nat}

/-- Where only the last two arguments are left, the list is the map with these exchanged. -/
theorem SettledBelow.last_pair (h : SettledBelow map cur i) (hi : i + 2 = map.length)
    (hnext : cur[i + 1]? = map[i]?) :
    ∃ front a b, front.length = i ∧ cur = front ++ [a, b] ∧ map = front ++ [b, a] := by
  have hlen := h.perm.length_eq
  obtain ⟨a, b, hcur⟩ := List.length_eq_two.mp
    (show (cur.drop i).length = 2 by rw [List.length_drop]; omega)
  obtain ⟨c, d, hmap⟩ := List.length_eq_two.mp
    (show (map.drop i).length = 2 by rw [List.length_drop]; omega)
  obtain ⟨front, hfront⟩ : ∃ front, front = map.take i := ⟨_, rfl⟩
  have hcur' : cur = front ++ [a, b] := by
    rw [hfront, ← h.agrees, ← hcur, List.take_append_drop]
  have hmap' : map = front ++ [c, d] := by rw [hfront, ← hmap, List.take_append_drop]
  have hcb : c = b := by
    have hb : (cur.drop i)[1]? = some b := by rw [hcur]; rfl
    have hc : (map.drop i)[0]? = some c := by rw [hmap]; rfl
    rw [List.getElem?_drop] at hb hc
    rw [hnext] at hb
    exact Option.some.inj (hc.symm.trans hb)
  have hda : d = a := by
    have hperm := h.perm
    rw [hcur', hmap', hcb] at hperm
    have hswap : [a, b].Perm [d, b] :=
      ((List.perm_append_left_iff _).mp hperm).trans (List.Perm.swap d b [])
    have hsingle : [a].Perm [d] := (List.perm_append_right_iff [b]).mp hswap
    exact (List.singleton_perm_singleton.mp hsingle).symm
  subst hcb hda
  exact ⟨front, d, c, by rw [hfront, List.length_take]; omega, hcur', hmap'⟩

theorem act?_swap_triple (front : List Nat) (x y z : Nat) :
    (swap front.length (front.length + 2)).act? (front ++ [x, y, z]) =
      some (front ++ [z, y, x]) := by
  simp [act?]

theorem act?_rotate_triple (front : List Nat) (x y z : Nat) :
    (rotate front.length 3 1).act? (front ++ [x, y, z]) = some (front ++ [z, x, y]) ∧
      (rotate front.length 3 2).act? (front ++ [x, y, z]) = some (front ++ [y, z, x]) := by
  simp [act?, slice, rotateRight]

theorem buildable_swap_triple {front : List Nat} {x y z : Nat} (h : width x = width z) :
    (swap front.length (front.length + 2)).Buildable width (front ++ [x, y, z]) := by
  refine ⟨by omega, by simp, ?_⟩
  simp [h]

theorem buildable_rotate_triple (front : List Nat) (x y z : Nat) {amount : Nat}
    (h : amount = 1 ∨ amount = 2) :
    (rotate front.length 3 amount).Buildable width (front ++ [x, y, z]) :=
  ⟨Nat.le_refl 3, by simp, h⟩

/-- The pair is exchanged around an argument as wide as the second of the pair. -/
theorem path_swap_rotate {front : List Nat} {c a b : Nat} (h : width c = width b) :
    Path width (front ++ [c, a, b]) [swap front.length (front.length + 2), rotate front.length 3 1]
      (front ++ [c, b, a]) :=
  .cons (buildable_swap_triple h) (act?_swap_triple front c a b)
    (.single (buildable_rotate_triple front b a c (.inl rfl)) (act?_rotate_triple front b a c).1)

/-- The pair is exchanged around an argument as wide as the first of the pair. -/
theorem path_rotate_swap {front : List Nat} {c a b : Nat} (h : width c = width a) :
    Path width (front ++ [c, a, b]) [rotate front.length 3 2, swap front.length (front.length + 2)]
      (front ++ [c, b, a]) :=
  .cons (buildable_rotate_triple front c a b (.inr rfl)) (act?_rotate_triple front c a b).2
    (.single (buildable_swap_triple h.symm) (act?_swap_triple front a b c))

/-- The shuffles end by exchanging the third last with the last argument of the map, and the last
    three arguments have three different widths. -/
def EndsUnevenly (width : Nat → Nat) (map : List Nat) (ss : List Shuffle) : Prop :=
  3 ≤ map.length ∧ ss.getLast? = some (swap (map.length - 3) (map.length - 1)) ∧
    ((map.drop (map.length - 3)).map width).Nodup

instance (width : Nat → Nat) (map : List Nat) (ss : List Shuffle) :
    Decidable (EndsUnevenly width map ss) :=
  inferInstanceAs (Decidable (_ ∧ _ ∧ _))

/-- What can become of a list on its way to the map: positions always fit, and widths do unless the
    last exchange is uneven. -/
structure Realizes (width : Nat → Nat) (map cur : List Nat) (ss : List Shuffle) : Prop where
  path : Path (fun _ => 0) cur ss map
  even : Path width cur ss map ∨ EndsUnevenly width map ss

theorem Realizes.of_path {ss : List Shuffle} (h : Path width cur ss map) :
    Realizes width map cur ss :=
  ⟨h.uniform 0, .inl h⟩

/-- A path in front of a list that is on its way. -/
theorem Realizes.prepend {front ss : List Shuffle} {xs : List Nat}
    (hfront : Path width xs front cur) (h : Realizes width map cur ss) :
    Realizes width map xs (front ++ ss) := by
  refine ⟨(hfront.uniform 0).append h.path, ?_⟩
  rcases h.even with heven | ⟨hlen, hlast, hwidths⟩
  · exact .inl (hfront.append heven)
  · refine .inr ⟨hlen, ?_, hwidths⟩
    rw [List.getLast?_append, hlast]
    rfl

theorem realizes_exchangeLast {front : List Nat} {a b : Nat} (hab : width a ≠ width b) :
    Realizes width (front ++ [b, a]) (front ++ [a, b])
      (exchangeLast width (front ++ [a, b]) front.length) := by
  rcases List.eq_nil_or_concat front with rfl | ⟨front, c, rfl⟩
  · have hdup : (dup 0 1).act? [a, b] = some [a, b, a] := rfl
    have hdrop : (drop 0 1).act? [a, b, a] = some [b, a] := rfl
    apply Realizes.of_path
    exact .cons ⟨Nat.le_refl 1, by simp⟩ hdup (.single ⟨Nat.le_refl 1, by simp⟩ hdrop)
  · have hlen : (front ++ [c]).length = front.length + 1 := by simp
    have hpivot : (front ++ [c, a, b])[front.length]? = some c := by simp
    have hlast : (front ++ [c, a, b])[front.length + 1 + 1]? = some b := by
      rw [Nat.add_assoc, List.getElem?_append_right (by omega), Nat.add_sub_cancel_left]
      rfl
    simp only [List.concat_eq_append, List.append_assoc, List.cons_append, List.nil_append, hlen,
      exchangeLast, hpivot, hlast, Option.map_some, Option.some.injEq]
    by_cases hcb : width c = width b
    · rw [if_pos hcb]
      exact .of_path (path_swap_rotate hcb)
    · rw [if_neg hcb]
      refine ⟨path_rotate_swap rfl, ?_⟩
      by_cases hca : width c = width a
      · exact .inl (path_rotate_swap hca)
      · refine .inr ⟨by simp, by simp, ?_⟩
        simp [hcb, hca, Ne.symm hab]

/-- What is done at a position that is not settled: the best candidate settles it, or only the last
    two arguments are left and are exchanged. -/
theorem SettledBelow.best_cases (h : SettledBelow map cur i) (width : Nat → Nat)
    (hlt : i < map.length) (hne : cur[i]? ≠ map[i]?) :
    (∃ s ys, best? map cur i (candidates width map cur i) = some s ∧ s.Buildable width cur ∧
      s.act? cur = some ys ∧ SettledBelow map ys (i + 1)) ∨
    (best? map cur i (candidates width map cur i) = none ∧ i + 2 = map.length ∧
      Realizes width map cur (exchangeLast width cur i)) := by
  cases hbest : best? map cur i (candidates width map cur i) with
  | some s =>
    obtain ⟨hbuild, ys, hact, hys⟩ := h.candidate (mem_of_best? hbest)
    exact .inl ⟨s, ys, rfl, hbuild, hact, hys⟩
  | none =>
    obtain ⟨hi, hnext, hw⟩ := h.no_candidate hlt hne (best?_eq_none_iff.mp hbest)
    obtain ⟨front, a, b, rfl, rfl, rfl⟩ := h.last_pair hi hnext
    exact .inr ⟨rfl, hi, realizes_exchangeLast (by simpa using hw)⟩

end Ending

/-! ## The whole phase -/

section Reorder

variable {width : Nat → Nat} {map cur : List Nat} {i : Nat}

/-- A list that is in order needs no shuffles. -/
theorem reorder_self (todo : List Nat) : reorder width map todo map = [] := by
  induction todo with
  | nil => rfl
  | cons i todo ih => simp [reorder, ih]

/-- What remains to be done at position `i` of a list that is settled below `i`. -/
theorem SettledBelow.realizes {k : Nat} (h : SettledBelow map cur i) (hk : i + k = map.length) :
    Realizes width map cur (reorder width map (List.range' i k) cur) := by
  induction k generalizing i cur with
  | zero =>
    obtain rfl : i = map.length := hk
    rw [h.eq_map]
    exact .of_path (.nil map)
  | succ k ih =>
    rw [List.range'_succ, reorder]
    by_cases hi : cur[i]? = map[i]?
    · rw [if_pos hi]
      exact ih (h.next hi) (by omega)
    · rw [if_neg hi]
      rcases h.best_cases width (by omega) hi with
        ⟨s, ys, hbest, hbuild, hact, hys⟩ | ⟨hbest, -, hlast⟩
      · have hrest := ih hys (by omega)
        simp only [hbest, act_eq_of_act? hact]
        exact hrest.prepend (.single hbuild hact)
      · simp only [hbest, hlast.path.actAll_eq, reorder_self, List.append_nil]
        exact hlast

end Reorder

/-! ## The whole plan -/

/-- The slot width of a caller argument. -/
def widthOf (widths : List Nat) (j : Nat) : Nat :=
  widths[j]?.getD 0

theorem realizes_plan {widths map : List Nat} (hmap : ∀ j ∈ map, j < widths.length) :
    Realizes (widthOf widths) map (List.range widths.length) (plan widths map) := by
  have hfront : Path (widthOf widths) (List.range widths.length)
      (dropUnused widths.length map ++ copyRepeated widths.length map)
      (stocked widths.length map) :=
    (path_dropUnused widths.length map).append (path_copyRepeated widths.length map)
  have hstart : SettledBelow map (stocked widths.length map) 0 := .start (stocked_perm hmap)
  have horder : Realizes (widthOf widths) map _ _ := hstart.realizes (Nat.zero_add map.length)
  rw [← List.range_eq_range'] at horder
  rw [plan, hfront.actAll_eq]
  exact horder.prepend hfront

/-- The last shuffle of a path is one that a step can be built for. -/
theorem Path.buildable_getLast? {α : Type} {width : α → Nat} {xs ys : List α} {ss : List Shuffle}
    {s : Shuffle} (h : Path width xs ss ys) (hlast : ss.getLast? = some s) :
    ∃ zs, s.Buildable width zs ∧ s.act? zs = some ys := by
  induction h with
  | nil xs => simp at hlast
  | @cons xs ys zs t rest ht hact hrest ih =>
    cases rest with
    | nil =>
      cases hrest
      obtain rfl : t = s := by simpa using hlast
      exact ⟨xs, ht, hact⟩
    | cons u rest => exact ih (by simpa using hlast)

/-- An uneven end is no path. -/
theorem EndsUnevenly.not_path {width : Nat → Nat} {map xs : List Nat} {ss : List Shuffle}
    (h : EndsUnevenly width map ss) : ¬ Path width xs ss map := by
  intro hpath
  obtain ⟨hlen, hlast, hwidths⟩ := h
  obtain ⟨zs, ⟨hlt, hin, hw⟩, hact⟩ := hpath.buildable_getLast? hlast
  -- The swap leaves the two widths equal, as it found them.
  obtain ⟨ys, hact', -, -, hfirst, hsecond⟩ := act?_swap_spec hlt hin
  obtain rfl : ys = map := Option.some.inj (hact'.symm.trans hact)
  have hequal : ys[ys.length - 3]?.map width = ys[ys.length - 1]?.map width := by
    rw [hfirst, hsecond, hw]
  obtain ⟨p, q, r, hlist⟩ := List.length_eq_three.mp
    (show (ys.drop (ys.length - 3)).length = 3 by rw [List.length_drop]; omega)
  have hp : ys[ys.length - 3]? = some p := by
    rw [← Nat.add_zero (ys.length - 3), ← List.getElem?_drop, hlist]
    rfl
  have hr : ys[ys.length - 1]? = some r := by
    rw [show ys.length - 1 = ys.length - 3 + 2 by omega, ← List.getElem?_drop, hlist]
    rfl
  have hpr : width p = width r := by
    simpa only [hp, hr, Option.map_some, Option.some.injEq] using hequal
  rw [hlist] at hwidths
  simp [hpr] at hwidths

/-- Two widths leave no room for an uneven end. -/
theorem not_endsUnevenly {widths map : List Nat} {ss : List Shuffle}
    (hmap : ∀ j ∈ map, j < widths.length) (hwidths : ∀ w ∈ widths, w = 1 ∨ w = 2) :
    ¬ EndsUnevenly (widthOf widths) map ss := by
  rintro ⟨hlen, -, hnodup⟩
  obtain ⟨p, q, r, hlist⟩ := List.length_eq_three.mp
    (show (map.drop (map.length - 3)).length = 3 by rw [List.length_drop]; omega)
  have hw : ∀ j ∈ map.drop (map.length - 3), widthOf widths j = 1 ∨ widthOf widths j = 2 := by
    intro j hj
    have hj' := hmap j (List.mem_of_mem_drop hj)
    rw [widthOf, List.getElem?_eq_getElem hj']
    exact hwidths _ (List.getElem_mem hj')
  rw [hlist] at hnodup hw
  have hp := hw p (by simp)
  have hq := hw q (by simp)
  have hr := hw r (by simp)
  simp only [List.map_cons, List.map_nil, List.nodup_cons, List.mem_cons, List.not_mem_nil,
    or_false, not_or] at hnodup
  omega

end Shuffle

end CallBridge
