import CallBridge.Proofs.Ordering

/-!
# Lists on the way

How long the lists are that a plan leads through. Only copying makes a list longer.
It stops at the length of the map, and the one copy that may be made after that is
for an exchange of two arguments with no third one. So no list on the way is longer
than the caller's arguments, the map, or three entries.
-/

namespace CallBridge

namespace Shuffle

variable {α : Type} {width : α → Nat} {xs ys : List α} {ss ts : List Shuffle}

/-! ## Growth -/

/-- How many entries a sequence of shuffles adds, not counting what it drops. -/
def growth : List Shuffle → Nat
  | [] => 0
  | .dup _ count :: ss => count + growth ss
  | _ :: ss => growth ss

@[simp] theorem growth_append (ss ts : List Shuffle) :
    growth (ss ++ ts) = growth ss + growth ts := by
  induction ss with
  | nil => simp [growth]
  | cons s ss ih => cases s <;> simp [growth, ih, Nat.add_assoc]

theorem growth_cons (s : Shuffle) (ss : List Shuffle) :
    growth (s :: ss) = growth [s] + growth ss :=
  growth_append [s] ss

theorem growth_eq_zero (h : ∀ pos count, .dup pos count ∉ ss) : growth ss = 0 := by
  induction ss with
  | nil => rfl
  | cons s ss ih =>
    have hrest := ih fun pos count hmem => h pos count (List.mem_cons_of_mem _ hmem)
    cases s with
    | dup pos count => exact absurd List.mem_cons_self (h pos count)
    | drop | swap | rotate => exact hrest

theorem length_le_of_act? {s : Shuffle} (hact : s.act? xs = some ys) :
    ys.length ≤ xs.length + growth [s] := by
  have hlen := length_of_act? hact
  cases s <;> simp only [growth] <;> simp only at hlen <;> omega

/-- Shuffles that drop nothing end with all that they add. -/
theorem Path.length_eq_add_growth (hpath : Path width xs ss ys)
    (hdrop : ∀ pos count, .drop pos count ∉ ss) : ys.length = xs.length + growth ss := by
  induction hpath with
  | nil xs => rfl
  | @cons xs ys zs s rest hs hact hrest ih =>
    have htail := ih fun pos count hmem => hdrop pos count (List.mem_cons_of_mem _ hmem)
    have hlen := length_of_act? hact
    cases s with
    | drop pos count => exact absurd List.mem_cons_self (hdrop pos count)
    | dup | swap | rotate =>
      simp only [growth] at *
      omega

/-- Each shuffle fits the list it applies to, and no list on the way is longer than the bound. -/
inductive Within (bound : Nat) : List α → List Shuffle → Prop where
  | nil {xs : List α} : xs.length ≤ bound → Within bound xs []
  | cons {xs ys : List α} {s : Shuffle} {rest : List Shuffle} :
      xs.length ≤ bound → s.act? xs = some ys → Within bound ys rest →
      Within bound xs (s :: rest)

theorem Path.within {bound : Nat} (hpath : Path width xs ss ys)
    (hbound : xs.length + growth ss ≤ bound) : Within bound xs ss := by
  induction hpath with
  | nil xs => exact .nil (by omega)
  | @cons xs ys zs s rest hs hact hrest ih =>
    have hlen := length_le_of_act? hact
    rw [growth_cons] at hbound
    exact .cons (by omega) hact (ih (by omega))

theorem Within.append {bound : Nat} (hpath : Path width xs ss ys) (hss : Within bound xs ss)
    (hts : Within bound ys ts) : Within bound xs (ss ++ ts) := by
  induction hpath with
  | nil xs => exact hts
  | cons hs hact hrest ih =>
    cases hss with
    | cons hlen hact' hss =>
      obtain rfl := Option.some.inj (hact.symm.trans hact')
      exact .cons hlen hact (ih hss hts)

/-! ## The lists that the plan leads through -/

theorem growth_dropUnused (n : Nat) (map : List Nat) : growth (dropUnused n map) = 0 := by
  apply growth_eq_zero
  simp [dropUnused]

/-- Copying adds what the map asks for beyond the arguments that are kept. -/
theorem kept_add_growth {n : Nat} {map : List Nat} (hmap : ∀ j ∈ map, j < n) :
    (kept n map).length + growth (copyRepeated n map) = map.length := by
  have hpath : Path (fun _ => 0) _ _ _ := path_copyRepeated n map
  rw [← hpath.length_eq_add_growth, (stocked_perm hmap).length_eq]
  intro pos count hmem
  simp [copyRepeated] at hmem

theorem growth_exchangeLast (width : Nat → Nat) (cur : List Nat) (i : Nat) :
    growth (exchangeLast width cur i) = if i = 0 then 1 else 0 := by
  cases i with
  | zero => rfl
  | succ pivot =>
    simp only [exchangeLast]
    split <;> rfl

theorem growth_of_mem_candidates {width : Nat → Nat} {map cur : List Nat} {i : Nat} {s : Shuffle}
    (hs : s ∈ candidates width map cur i) : growth [s] = 0 := by
  obtain ⟨k, -, -, hs⟩ := mem_candidates.mp hs
  rcases hs with ⟨-, -, rfl⟩ | ⟨-, -, rfl⟩ | ⟨-, -, rfl⟩ <;> rfl

/-- An entry is added only when the first two are the last two. -/
theorem growth_reorder {width : Nat → Nat} {map : List Nat} (todo cur : List Nat) (h : 0 ∉ todo) :
    growth (reorder width map todo cur) = 0 := by
  induction todo generalizing cur with
  | nil => rfl
  | cons i todo ih =>
    rw [List.mem_cons, not_or] at h
    rw [reorder]
    split
    · exact ih cur h.2
    · split
      · rename_i s hbest
        rw [growth_cons, growth_of_mem_candidates (mem_of_best? hbest), ih _ h.2]
      · rw [growth_append, growth_exchangeLast, if_neg (Ne.symm h.1), ih _ h.2]

theorem SettledBelow.growth_reorder_le {map cur : List Nat} (h : SettledBelow map cur 0)
    (width : Nat → Nat) :
    cur.length + growth (reorder width map (List.range' 0 map.length) cur) ≤ max map.length 3 := by
  have hlen := h.perm.length_eq
  cases hm : map.length with
  | zero =>
    rw [List.range'_zero, reorder, growth]
    omega
  | succ m =>
    have hrest : ∀ ys, growth (reorder width map (List.range' 1 m) ys) = 0 := fun ys =>
      growth_reorder _ ys (by simp [List.mem_range'_1])
    rw [List.range'_succ, reorder]
    by_cases hfirst : cur[0]? = map[0]?
    · rw [if_pos hfirst, hrest]
      omega
    · rw [if_neg hfirst]
      rcases h.best_cases width (by omega) hfirst with ⟨s, ys, hbest, -⟩ | ⟨hbest, htwo, -⟩
      · simp only [hbest]
        rw [growth_cons, growth_of_mem_candidates (mem_of_best? hbest), hrest]
        omega
      · simp only [hbest]
        rw [growth_append, growth_exchangeLast, if_pos rfl, hrest]
        omega

/-- No list on the way is longer than the arguments, the map, or three entries. -/
theorem plan_within {widths map : List Nat} (hmap : ∀ j ∈ map, j < widths.length) :
    Within (max widths.length (max map.length 3)) (List.range widths.length) (plan widths map) := by
  have hdrop : Path (widthOf widths) _ _ _ := path_dropUnused widths.length map
  have hcopy : Path (widthOf widths) _ _ _ := path_copyRepeated widths.length map
  have hstart : SettledBelow map (stocked widths.length map) 0 := .start (stocked_perm hmap)
  have horder : Realizes (widthOf widths) map _ _ := hstart.realizes (Nat.zero_add map.length)
  have hgrowth := hstart.growth_reorder_le (widthOf widths)
  have hcopied := kept_add_growth hmap
  rw [← List.range_eq_range'] at horder hgrowth
  rw [plan, (hdrop.append hcopy).actAll_eq]
  refine .append (hdrop.append hcopy) (.append hdrop (hdrop.within ?_) (hcopy.within ?_))
    (horder.path.within ?_)
  · rw [growth_dropUnused, List.length_range]
    omega
  · omega
  · exact Nat.le_trans hgrowth (Nat.le_max_right _ _)

end Shuffle

end CallBridge
