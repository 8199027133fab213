import CallBridge.Proofs.Agreement
import CallBridge.Proofs.CheckedPlan
import CallBridge.Proofs.CollectedCalls
import CallBridge.Proofs.MachineConstructors
import CallBridge.Proofs.Outcomes

/-!
# Requests on a machine of words

The adaptation argument by argument, the rewiring and the requests to a collector,
as a machine of 64-bit words runs them. The signatures between two steps are no
longer than the longest list that the plan leads through, so that every
constructor on the way has an answer. No request faults, however large its
operands are, and operands that reach past the caller's arguments are refused.
-/

namespace CallBridge

theorem Signature.Storable.of_arity {s u : Signature} (h : s.Storable)
    (harity : u.arity = s.arity) : u.Storable := by
  rw [Storable, harity]
  exact h

/-- Whether every position, count and map entry of the request is a word, and the amount of a
    rotation a signed one. -/
def Request.InWords : Request → Prop
  | .cast arg _ | .primCast arg _ | .unbox arg _ | .box arg _ => arg < UInt64.size
  | .drop pos count | .dup pos count | .spread _ pos count =>
    pos < UInt64.size ∧ count < UInt64.size
  | .swap first second => first < UInt64.size ∧ second < UInt64.size
  | .rotate first count amount =>
    first < UInt64.size ∧ count < UInt64.size ∧
      Int64.minValue.toInt ≤ amount ∧ amount ≤ Int64.maxValue.toInt
  | .rewire map => ∀ j ∈ map, j < UInt64.size
  | .retype _ | .adapt | .collect | .flyby | .ricochet => True

instance : DecidablePred Request.InWords
  | .cast .. | .primCast .. | .unbox .. | .box .. => inferInstanceAs (Decidable (_ < _))
  | .drop .. | .dup .. | .spread .. | .swap .. => inferInstanceAs (Decidable (_ ∧ _))
  | .rotate .. => inferInstanceAs (Decidable (_ ∧ _ ∧ _ ∧ _))
  | .rewire map => inferInstanceAs (Decidable (∀ j ∈ map, j < UInt64.size))
  | .retype _ | .adapt | .collect | .flyby | .ricochet => inferInstanceAs (Decidable True)

/-- Whether the request names an argument that the caller does not hand over, or a parameter that
    the target does not have. A reshaping of no argument names none. -/
def Request.ReachesPast (new target : Signature) : Request → Prop
  | .cast arg _ | .primCast arg _ | .unbox arg _ | .box arg _ => new.arity ≤ arg
  | .drop pos count => count ≠ 0 ∧ new.arity < pos + count
  | .dup pos count => new.arity < pos + count
  | .swap first second => first ≠ second ∧ new.arity ≤ max first second
  | .rotate first count _ => new.arity < first + count
  | .spread _ pos count => new.arity ≤ pos ∨ target.arity < pos + count
  | .rewire map => ∃ j ∈ map, new.arity ≤ j
  | .retype _ | .adapt | .collect | .flyby | .ricochet => False

instance (new target : Signature) : DecidablePred (Request.ReachesPast new target)
  | .cast .. | .primCast .. | .unbox .. | .box .. => inferInstanceAs (Decidable (_ ≤ _))
  | .drop .. | .swap .. => inferInstanceAs (Decidable (_ ≠ _ ∧ _))
  | .dup .. | .rotate .. => inferInstanceAs (Decidable (_ < _))
  | .spread .. => inferInstanceAs (Decidable (_ ∨ _))
  | .rewire map => inferInstanceAs (Decidable (∃ j ∈ map, new.arity ≤ j))
  | .retype _ | .adapt | .collect | .flyby | .ricochet => inferInstanceAs (Decidable False)

namespace Machine

/-- Goes on with the result of a construction, or hands its refusal on. -/
def andThen {α β : Type} (x : Option (Except AdaptError α))
    (f : α → Option (Except AdaptError β)) : Option (Except AdaptError β) := do
  match ← x with
  | .ok a => f a
  | .error e => return .error e

theorem andThen_eq {α β : Type} {x : Option (Except AdaptError α)} {y : Except AdaptError α}
    {f : α → Option (Except AdaptError β)} {g : α → Except AdaptError β} (hx : x = some y)
    (hf : ∀ a, y = .ok a → f a = some (g a)) :
    andThen x f = some (y >>= g) := by
  subst hx
  cases y with
  | error e => rfl
  | ok a => exact hf a rfl

/-! ## Adapting -/

def convertAt (h : Host) (new : Signature) (t : Handle) (i : Nat) (src dst : Ty) :
    Option (Except AdaptError Handle) :=
  match src.isPrimitive, dst.isPrimitive with
  | true, true => primCast h new t i dst
  | true, false => some (.error (.unsupported .boxing))
  | false, true => unbox h new t i dst
  | false, false => cast h new t i dst

/-- The last position whose argument does not pass freely, looked for from the end. -/
def lastConversion? (new old : Signature) : Option (Option Nat) :=
  (List.range new.arity).reverse.findM? fun i => do
    return !(← new.param? i).passesFreely (← old.param? i)

def adaptStep (h : Host) (new : Signature) (last : Nat) (mid : Signature) (adapter : Handle)
    (i : Nat) : Option (Except AdaptError (Signature × Handle)) := do
  let src ← new.param? i
  let dst ← mid.param? i
  if src.passesFreely dst then return .ok (mid, adapter)
  else
    let mid ← (if i = last then some new else mid.withParam? i src)
    andThen (convertAt h mid adapter i src dst) fun adapter =>
      some do return (mid, ← Host.ensure mid adapter)

def adaptSteps (h : Host) (new : Signature) (last : Nat) :
    (positions : List Nat) → (mid : Signature) → (adapter : Handle) →
      Option (Except AdaptError Handle)
  | [], _, adapter => some (.ok adapter)
  | i :: rest, mid, adapter =>
    andThen (adaptStep h new last mid adapter i) fun (mid, adapter) =>
      adaptSteps h new last rest mid adapter

def finish (h : Host) (new : Signature) (adapter : Handle) : Option (Except AdaptError Handle) :=
  andThen (if adapter.signature = new then some (.ok adapter) else retype h new adapter .checked)
    fun adapter => some (Host.ensure new adapter)

def adapt (h : Host) (new : Signature) (t : Handle) : Option (Except AdaptError Handle) :=
  let old := t.signature
  if old = new then some (.ok t)
  else if !old.adaptsTo new then some (.error (.notConvertible old new))
  else do
    let last? ← lastConversion? new old
    andThen
      (match last? with
      | some last => adaptSteps h new last (List.range (last + 1)) (old.withRet new.ret) t
      | none => some (.ok t))
      (finish h new)

section Adapting

variable {h : Host} {new old mid : Signature} {t adapter : Handle} {i last : Nat} {src dst : Ty}

theorem convertAt_eq (hnew : new.Storable) (ht : t.signature.Storable) :
    convertAt h new t i src dst = some (h.convertAt new t i src dst) := by
  rw [convertAt, Host.convertAt]
  cases src.isPrimitive with
  | true =>
    cases dst.isPrimitive with
    | true => exact primCast_eq hnew ht
    | false => rfl
  | false =>
    cases dst.isPrimitive with
    | true => exact unbox_eq hnew ht
    | false => exact cast_eq hnew ht

theorem findM?_eq {α : Type} {p : α → Option Bool} {q : α → Bool} {xs : List α}
    (h : ∀ x ∈ xs, p x = some (q x)) : xs.findM? p = some (xs.find? q) := by
  induction xs with
  | nil => rfl
  | cons x xs ih =>
    rw [List.findM?, h x List.mem_cons_self, List.find?_cons]
    cases q x with
    | true => rfl
    | false => exact ih fun y hy => h y (List.mem_cons_of_mem _ hy)

theorem lastConversion?_eq (harity : new.arity = old.arity) :
    lastConversion? new old = some (new.lastConversion? old) := by
  rw [Signature.lastConversion?, List.getLast?_eq_head?_reverse, ← List.filter_reverse,
    List.head?_filter]
  refine findM?_eq fun i hi => ?_
  rw [List.mem_reverse, List.mem_range] at hi
  have hsrc : new.param? i = some _ := List.getElem?_eq_getElem hi
  have hdst : old.param? i = some _ := List.getElem?_eq_getElem (Nat.lt_of_lt_of_eq hi harity)
  rw [hsrc, hdst]
  rfl

/-- A step keeps the number of arguments. -/
theorem arity_of_adaptStep {mid' : Signature} {adapter' : Handle} (hmid : mid.arity = new.arity)
    (hadapter : adapter.signature.arity = new.arity)
    (hok : h.adaptStep new last mid adapter i = .ok (mid', adapter')) :
    mid'.arity = new.arity ∧ adapter'.signature.arity = new.arity := by
  unfold Host.adaptStep at hok
  split at hok
  · split at hok
    · cases hok
      exact ⟨hmid, hadapter⟩
    · have hnext : ∀ src, (if i = last then new else mid.withParam i src).arity = new.arity := by
        intro src
        split
        · rfl
        · rw [Signature.arity_withParam, hmid]
      obtain ⟨made, -, hok⟩ := bind_eq_ok_iff.mp hok
      obtain ⟨checked, hensure, hok⟩ := bind_eq_ok_iff.mp hok
      cases hok
      obtain ⟨hsignature, rfl⟩ := Host.ensure_eq_ok_iff.mp hensure
      rw [hsignature]
      exact ⟨hnext _, hnext _⟩
  · cases hok
    exact ⟨hmid, hadapter⟩

theorem arity_of_adaptSteps {positions : List Nat} {r : Handle} (hmid : mid.arity = new.arity)
    (hadapter : adapter.signature.arity = new.arity)
    (hok : h.adaptSteps new last positions mid adapter = .ok r) :
    r.signature.arity = new.arity := by
  induction positions generalizing mid adapter with
  | nil =>
    cases hok
    exact hadapter
  | cons i rest ih =>
    obtain ⟨⟨mid', adapter'⟩, hstep, hok⟩ := bind_eq_ok_iff.mp hok
    obtain ⟨hmid', hadapter'⟩ := arity_of_adaptStep hmid hadapter hstep
    exact ih hmid' hadapter' hok

theorem adaptStep_eq (hnew : new.Storable) (hmid : mid.arity = new.arity)
    (hadapter : adapter.signature.arity = new.arity) (hi : i < new.arity) :
    adaptStep h new last mid adapter i = some (h.adaptStep new last mid adapter i) := by
  have hsrc : new.param? i = some _ := List.getElem?_eq_getElem hi
  have hi' : i < mid.arity := Nat.lt_of_lt_of_eq hi hmid.symm
  have hdst : mid.param? i = some _ := List.getElem?_eq_getElem hi'
  rw [adaptStep, Host.adaptStep, hsrc, hdst]
  simp only [Option.bind_eq_bind, Option.bind_some, Signature.withParam?, if_pos hi',
    ← apply_ite some]
  split
  · rfl
  · refine andThen_eq (convertAt_eq ?_ (hnew.of_arity hadapter)) fun _ _ => rfl
    split
    · exact hnew
    · exact (hnew.of_arity hmid).withParam i _

theorem adaptSteps_eq {positions : List Nat} (hnew : new.Storable) (hmid : mid.arity = new.arity)
    (hadapter : adapter.signature.arity = new.arity) (hpositions : ∀ i ∈ positions, i < new.arity) :
    adaptSteps h new last positions mid adapter =
      some (h.adaptSteps new last positions mid adapter) := by
  induction positions generalizing mid adapter with
  | nil => rfl
  | cons i rest ih =>
    refine andThen_eq (adaptStep_eq hnew hmid hadapter (hpositions i List.mem_cons_self)) ?_
    rintro ⟨mid', adapter'⟩ hok
    obtain ⟨hmid', hadapter'⟩ := arity_of_adaptStep hmid hadapter hok
    exact ih hmid' hadapter' fun j hj => hpositions j (List.mem_cons_of_mem _ hj)

theorem finish_eq (hnew : new.Storable) (hadapter : adapter.signature.Storable) :
    finish h new adapter = some (h.finish new adapter) := by
  rw [finish, Host.finish]
  split
  · rfl
  · exact andThen_eq (retype_eq hnew hadapter .checked) fun _ _ => rfl

theorem adapt_eq (hnew : new.Storable) : adapt h new t = some (h.adapt new t) := by
  simp only [adapt, Host.adapt]
  split
  · rfl
  · split
    · rfl
    · rename_i hadapts
      have harity : new.arity = t.signature.arity := by
        simp only [Bool.not_eq_true', Bool.not_eq_false, Signature.adaptsTo, Bool.and_eq_true,
          beq_iff_eq] at hadapts
        exact hadapts.1.1
      have ht : t.signature.Storable := hnew.of_arity harity.symm
      simp only [lastConversion?_eq harity, Option.bind_eq_bind, Option.bind_some]
      cases hlast : new.lastConversion? t.signature with
      | none => exact andThen_eq rfl fun _ hok => finish_eq hnew (Except.ok.inj hok ▸ ht)
      | some last =>
        have hin : last < new.arity := by
          rw [Signature.lastConversion?] at hlast
          exact List.mem_range.mp (List.mem_of_mem_filter (List.mem_of_getLast? hlast))
        refine andThen_eq (adaptSteps_eq hnew harity.symm harity.symm fun i hi => ?_) ?_
        · rw [List.mem_range] at hi
          omega
        · intro adapter hok
          have hmid : (t.signature.withRet new.ret).arity = new.arity := harity.symm
          exact finish_eq hnew (hnew.of_arity (arity_of_adaptSteps hmid harity.symm hok))

end Adapting

/-! ## Rewiring -/

open Shuffle (Path Within)

/-- The sums and differences of words, for the planner. -/
def words : Arithmetic where
  add := add
  sub := sub

theorem words_exact {bound : Nat} (h : bound < UInt64.size) : words.Exact bound where
  add hsum := add_eq (Nat.lt_of_le_of_lt hsum h)
  sub := sub_eq

def passesFreelyBy (new target : Signature) (map : List Nat) : Option Bool :=
  some (target.ret.passesFreely new.ret) <&&>
    map.zipIdx.allM fun (j, i) => do return (← new.param? j).passesFreely (← target.param? i)

def checkMap (new target : Signature) (map : List Nat) : Option (Except AdaptError Unit) :=
  if map.length ≠ target.arity then some (.error (.mapLength map target.arity))
  else
    match map.find? fun j => decide (new.arity ≤ j) with
    | some j => some (.error (.mapEntry map j))
    | none =>
      if new.isIdentityMap target map then some (.ok ())
      else do
        return if ← passesFreelyBy new target map then .ok ()
          else .error (.notConvertible target new)

def canRewire (h : Host) (new target : Signature) (map : List Nat) : Option Bool := do
  match ← checkMap new target map with
  | .error _ => return false
  | .ok () =>
    if new.isIdentityMap target map then return target.adaptsTo new
    else
      let ss ← Shuffle.Checked.plan words new.widths map
      return ss.all fun s => h.supports (Host.shuffleOp s)

/-- Puts a shuffle in front of a handle. The amount of a rotation is read as a signed word. -/
def shuffle (h : Host) (new : Signature) (t : Handle) :
    Shuffle → Option (Except AdaptError Handle)
  | .drop pos count => drop h new t pos count
  | .dup pos count => dup h new t pos count
  | .swap first second => swap h new t first second
  | .rotate first count amount => rotate h new t first count (Int64.ofNat amount).toInt

/-- Puts a sequence of shuffles in front of a handle. The signature in front of each is read off the
    positions that the caller's arguments have got to, before any of them is built. -/
def shuffles (h : Host) (new : Signature) :
    List Shuffle → (state : List Nat) → Handle → Option (Except AdaptError Handle)
  | [], _, t => some (.ok t)
  | s :: rest, state, t => do
    let front ← state.mapM new.param?
    let next ← Shuffle.Checked.act words s state
    andThen (shuffles h new rest next t) fun inner => shuffle h (new.withParams front) inner s

def rewire (h : Host) (new : Signature) (t : Handle) (map : List Nat) :
    Option (Except AdaptError Handle) :=
  andThen (checkMap new t.signature map) fun _ =>
    if new.isIdentityMap t.signature map then adapt h new t
    else do
      let ss ← Shuffle.Checked.plan words new.widths map
      andThen (shuffles h new ss (List.range new.arity) t) (finish h new)

section Rewiring

variable {h : Host} {new target : Signature} {t r : Handle} {map js : List Nat} {ss : List Shuffle}

theorem passesFreelyBy_eq (hmap : ∀ j ∈ map, j < new.arity) (hlen : map.length = target.arity) :
    passesFreelyBy new target map = some (new.passesFreelyBy target map) := by
  have hlen : map.length = target.params.length := hlen
  refine andM_eq rfl fun _ => allM_eq (List.forall₂_iff_get.mpr ⟨?_, fun i hi _ => ?_⟩)
  · rw [List.length_zipIdx, List.length_zip, hlen, Nat.min_self]
  · rw [List.length_zipIdx] at hi
    have hsrc : new.param? map[i] = some _ :=
      List.getElem?_eq_getElem (hmap map[i] (List.getElem_mem hi))
    have hdst : target.param? i = some _ := List.getElem?_eq_getElem (by omega)
    simp only [List.get_eq_getElem, List.getElem_zipIdx, List.getElem_zip, Nat.zero_add, hsrc, hdst,
      Option.bind_eq_bind, Option.bind_some, Option.pure_def]

theorem checkMap_eq (new target : Signature) (map : List Nat) :
    checkMap new target map = some (new.checkMap target map) := by
  rw [checkMap, Signature.checkMap]
  split
  · rfl
  · rename_i hlen
    cases hfind : map.find? fun j => decide (new.arity ≤ j) with
    | some j => rfl
    | none =>
      have hmap : ∀ j ∈ map, j < new.arity := by
        intro j hj
        simpa using List.find?_eq_none.mp hfind j hj
      cases hid : new.isIdentityMap target map with
      | true => rfl
      | false =>
        rw [passesFreelyBy_eq hmap (not_not.mp hlen)]
        rfl

/-- A map that is found to be right is as long as the target's parameters and names arguments of the
    caller. -/
theorem of_checkMap (hok : new.checkMap target map = .ok ()) :
    map.length = target.arity ∧ ∀ j ∈ map, j < new.arity := by
  rw [Signature.checkMap] at hok
  split at hok
  · cases hok
  · rename_i hlen
    cases hfind : map.find? fun j => decide (new.arity ≤ j) with
    | some j =>
      rw [hfind] at hok
      cases hok
    | none =>
      refine ⟨not_not.mp hlen, fun j hj => ?_⟩
      simpa using List.find?_eq_none.mp hfind j hj

theorem plan_widths_eq (hnew : new.Storable) (htarget : target.Storable)
    (hok : new.checkMap target map = .ok ()) :
    Shuffle.Checked.plan words new.widths map = some (Shuffle.plan new.widths map) := by
  obtain ⟨hlen, hmap⟩ := of_checkMap hok
  have hwidths := new.length_widths
  have hsize : 6 < UInt64.size := by decide
  rw [Signature.Storable] at hnew htarget
  exact Shuffle.Checked.plan_eq (words_exact (by omega)) (by rwa [hwidths])

theorem canRewire_eq (hnew : new.Storable) (htarget : target.Storable) :
    canRewire h new target map = some (h.canRewire new target map) := by
  rw [canRewire, checkMap_eq, Host.canRewire]
  cases hok : new.checkMap target map with
  | error e => rfl
  | ok u =>
    simp only [plan_widths_eq hnew htarget hok, Option.bind_eq_bind, Option.bind_some]
    split <;> rfl

theorem shuffle_eq {s : Shuffle} (hs : s.Buildable (fun _ => 0) new.params) (hnew : new.Storable)
    (ht : t.signature.Storable) : shuffle h new t s = some (h.shuffle new t s) := by
  cases s with
  | drop pos count => exact drop_eq hnew ht
  | dup pos count => exact dup_eq hnew ht
  | swap first second => exact swap_eq hnew ht first second
  | rotate first count amount =>
    obtain ⟨hmany, hin, hamount⟩ := hs
    have hin : first + count ≤ new.arity := hin
    have hsigned : (Int64.ofNat amount).toInt = amount := by
      apply Int64.toInt_ofNat_of_lt
      simp only [Signature.Storable, UInt64.size] at hnew
      omega
    rw [shuffle, hsigned]
    exact rotate_eq hnew ht (hnew.lt (by omega))

/-- What a sequence of shuffles is put in front of stays within the bound. -/
theorem storable_of_shuffles {bound : Nat} (hbound : 2 * bound < UInt64.size)
    (hpath : Path (fun _ => 0) js ss map) (hwithin : Within bound js ss)
    (ht : t.signature.Storable)
    (hok : h.shuffles (new.withParams (js.map new.paramAt)) ss t = .ok r) :
    r.signature.Storable := by
  by_cases hne : ss = []
  · subst hne
    cases hok
    exact ht
  · have hlen : js.length ≤ bound := by
      cases hwithin with
      | nil hlen => exact hlen
      | cons hlen => exact hlen
    rw [Host.signature_of_shuffles hpath hne hok, Signature.Storable, Signature.arity,
      Signature.params_withParams, List.length_map]
    omega

theorem shuffles_eq {bound : Nat} (hbound : 2 * bound < UInt64.size)
    (hpath : Path (fun _ => 0) js ss map) (hwithin : Within bound js ss)
    (hjs : ∀ j ∈ js, j < new.arity) (ht : t.signature.Storable) :
    shuffles h new ss js t = some (h.shuffles (new.withParams (js.map new.paramAt)) ss t) := by
  induction hpath with
  | nil js => rfl
  | @cons js ks map s rest hs hact hrest ih =>
    cases hwithin with
    | @cons _ ks' _ _ hlen hact' hwithin =>
      obtain rfl := Option.some.inj (hact.symm.trans hact')
      have hfront : js.mapM new.param? = some (js.map new.paramAt) :=
        Shuffle.Checked.mapM_eq_map fun j hj => Signature.param?_eq_paramAt (hjs j hj)
      have hmap : s.act (js.map new.paramAt) = ks.map new.paramAt :=
        Shuffle.act_eq_of_act? (by rw [Shuffle.act?_map, hact]; rfl)
      have hnext := ih hwithin fun j hj => hjs j (Shuffle.mem_of_act? hact hj)
      have hwords : words.Exact js.length := words_exact (by omega)
      simp only [shuffles, hfront, Shuffle.Checked.act_eq hwords hact, Option.bind_eq_bind,
        Option.bind_some]
      rw [Host.shuffles, Signature.params_withParams, hmap]
      refine andThen_eq hnext fun inner hinner => ?_
      refine shuffle_eq (hs.withParams new new.paramAt) ?_
        (storable_of_shuffles hbound hrest hwithin ht hinner)
      rw [Signature.Storable, Signature.arity, Signature.params_withParams, List.length_map]
      omega

theorem rewire_eq (hnew : new.Storable) (ht : t.signature.Storable) :
    rewire h new t map = some (h.rewire new t map) := by
  rw [rewire, Host.rewire]
  refine andThen_eq (checkMap_eq new t.signature map) fun _ hok => ?_
  split
  · exact adapt_eq hnew
  · obtain ⟨hlen, hmap⟩ := of_checkMap hok
    let bound := max new.arity (max map.length 3)
    have hbound : 2 * bound < UInt64.size := by
      have hsize : 6 < UInt64.size := by decide
      rw [Signature.Storable] at hnew ht
      omega
    have hpath := (Signature.realizes_plan hmap).path
    have hwithin : Within bound (List.range new.arity) (Shuffle.plan new.widths map) := by
      have hplan : Within _ _ (Shuffle.plan new.widths map) :=
        Shuffle.plan_within (by rwa [new.length_widths])
      rwa [new.length_widths] at hplan
    have hjs : ∀ j ∈ List.range new.arity, j < new.arity := fun j => List.mem_range.mp
    have hsame := new.withParams_map_paramAt
    have hshuffles := shuffles_eq (h := h) hbound hpath hwithin hjs ht
    rw [hsame] at hshuffles
    simp only [plan_widths_eq hnew ht hok, Option.bind_eq_bind, Option.bind_some]
    refine andThen_eq hshuffles fun adapter hadapter => finish_eq hnew ?_
    have hfront : h.shuffles (new.withParams ((List.range new.arity).map new.paramAt))
        (Shuffle.plan new.widths map) t = .ok adapter := by rwa [hsame]
    exact storable_of_shuffles hbound hpath hwithin ht hfront

end Rewiring

/-! ## Collecting -/

/-- Takes apart the parameters of a function to gather `count` elements for the last one. -/
def collecting? (t : Handle) (array : Ty) (count : Nat) : Option (Option Handle) :=
  match sub t.signature.arity 1, array.elem? with
  | some pos, some elem => do
    let front ← (if pos ≤ t.signature.arity then some (t.signature.params.take pos) else none)
    return some (.collect (t.signature.withParams (front ++ List.replicate count elem)) pos count
      array t)
  | _, _ => some none

def collectorAdapt (c : Collector) (new : Signature) :
    Option (Except AdaptError Handle × Collector) := do
  let pos ← sub c.signature.arity 1
  let next ← add pos 1
  if ← some (new.arity == next) <&&> (new.param? pos).map c.array.accepts then
    return (← adapt c.host new c.target, c)
  else
    match c.find? new.arity with
    | some handle => return (← adapt c.host new handle, c)
    | none =>
      match sub new.arity pos with
      | none => return (.error (.notConvertible c.signature new), c)
      | some count =>
        match ← collecting? c.target c.array count with
        | some handle => return (← adapt c.host new handle, c.insert new.arity handle)
        | none => return (.error (.notConvertible c.signature new), c)

section Collecting

variable {c : Collector} {new : Signature}

theorem collecting?_eq (t : Handle) (array : Ty) (count : Nat) :
    collecting? t array count = some (t.collecting? array count) := by
  rw [collecting?, Handle.collecting?, Signature.lastParam?]
  cases hlast : t.signature.params.getLast? with
  | none =>
    have hnil : t.signature.params = [] := List.getLast?_eq_none_iff.mp hlast
    rw [Signature.arity, hnil]
    rfl
  | some last =>
    have hpos : 1 ≤ t.signature.arity := by
      rw [Signature.arity, Nat.one_le_iff_ne_zero, Ne, List.length_eq_zero_iff]
      intro hnil
      rw [hnil] at hlast
      cases hlast
    rw [sub_eq hpos]
    cases array.elem? with
    | none => rfl
    | some elem =>
      simp only [if_pos (Nat.sub_le t.signature.arity 1), Option.bind_eq_bind, Option.bind_some,
        List.dropLast_eq_take]
      rfl

/-- The caller's argument at the place of the array is the last one if the numbers agree. -/
theorem passesArray_eq {pos : Nat} (hpos : c.signature.arity = pos + 1) :
    (some (new.arity == pos + 1) <&&> (new.param? pos).map c.array.accepts) =
      some (c.passesArray new) := by
  rw [Collector.passesArray, hpos]
  refine andM_eq rfl fun harity => ?_
  have harity : new.params.length = pos + 1 := beq_iff_eq.mp harity
  have hread : new.param? pos = some _ := List.getElem?_eq_getElem (by omega)
  have hlast : new.lastParam? = new.param? pos := by
    rw [Signature.lastParam?, List.getLast?_eq_getElem?, harity]
    rfl
  rw [hlast, hread]
  rfl

theorem collectorAdapt_eq {hosts : Host → Prop} (hc : c.Reachable hosts)
    (hstore : c.signature.Storable) (hnew : new.Storable) :
    collectorAdapt c new = some (c.adapt new) := by
  obtain ⟨elem, last, htakes, -⟩ := hc.adapt_fst
  have harity := htakes.arity
  simp only [collectorAdapt, sub_eq (show 1 ≤ c.signature.arity by omega),
    add_eq (hstore.lt (show c.signature.arity - 1 + 1 ≤ c.signature.arity by omega)),
    passesArray_eq (show c.signature.arity = c.signature.arity - 1 + 1 by omega), adapt_eq hnew,
    Option.bind_eq_bind, Option.bind_some, Collector.adapt]
  split
  · rfl
  · cases c.find? new.arity with
    | some handle => rfl
    | none =>
      by_cases hfew : new.arity + 1 < c.signature.arity
      · rw [if_pos hfew, sub, if_neg (by omega)]
        rfl
      · have hcount : new.arity - (c.signature.arity - 1) = new.arity + 1 - c.signature.arity := by
          omega
        rw [if_neg hfew, sub_eq (by omega), hcount]
        simp only [collecting?_eq, Option.bind_some]
        cases c.target.collecting? c.array (new.arity + 1 - c.signature.arity) <;> rfl

end Collecting

/-! ## All requests -/

def allows (h : Host) (new target : Signature) : Request → Option Bool
  | .retype mode => canRetype h new target mode
  | .adapt => some (target.adaptsTo new)
  | .rewire map => canRewire h new target map
  | .cast arg type => canCast h new target arg type
  | .primCast arg type => canPrimCast h new target arg type
  | .unbox arg type => canUnbox h new target arg type
  | .box arg type => canBox h new arg type
  | .drop pos count => canDrop h new target pos count
  | .dup pos count => canDup h new target pos count
  | .swap first second => canSwap h new target first second
  | .rotate first count amount => canRotate h new target first count amount
  | .spread array pos count => canSpread h new target array pos count
  | .collect | .flyby | .ricochet => some false

def build (h : Host) (new : Signature) (t : Handle) :
    Request → Option (Except AdaptError Handle)
  | .retype mode => retype h new t mode
  | .adapt => adapt h new t
  | .rewire map => rewire h new t map
  | .cast arg type => cast h new t arg type
  | .primCast arg type => primCast h new t arg type
  | .unbox arg type => unbox h new t arg type
  | .box _ _ => some (.error (.unsupported .boxing))
  | .drop pos count => drop h new t pos count
  | .dup pos count => dup h new t pos count
  | .swap first second => swap h new t first second
  | .rotate first count amount => rotate h new t first count amount
  | .spread array pos count => spread h new t array pos count
  | .collect => some (.error (.unsupported .collect))
  | .flyby => some (.error (.unsupported .flyby))
  | .ricochet => some (.error (.unsupported .ricochet))

section Requests

variable {h : Host} {new target : Signature} {t : Handle}

theorem allows_eq (hnew : new.Storable) (htarget : target.Storable) (request : Request) :
    allows h new target request = some (h.allows new target request) := by
  cases request with
  | retype mode => exact canRetype_eq hnew htarget mode
  | adapt => rfl
  | rewire map => exact canRewire_eq hnew htarget
  | cast arg type => exact canCast_eq hnew htarget
  | primCast arg type => exact canPrimCast_eq hnew htarget
  | unbox arg type => exact canUnbox_eq hnew htarget
  | box arg type => exact canBox_eq
  | drop pos count => exact canDrop_eq hnew htarget
  | dup pos count => exact canDup_eq hnew htarget
  | swap first second => exact canSwap_eq hnew htarget
  | rotate first count amount => exact canRotate_eq hnew htarget amount
  | spread array pos count => exact canSpread_eq hnew htarget
  | collect | flyby | ricochet => rfl

theorem build_eq (hnew : new.Storable) (ht : t.signature.Storable) {request : Request}
    (hwords : request.InWords) : build h new t request = some (h.build new t request) := by
  cases request with
  | retype mode => exact retype_eq hnew ht mode
  | adapt => exact adapt_eq hnew
  | rewire map => exact rewire_eq hnew ht
  | cast arg type => exact cast_eq hnew ht
  | primCast arg type => exact primCast_eq hnew ht
  | unbox arg type => exact unbox_eq hnew ht
  | drop pos count => exact drop_eq hnew ht
  | dup pos count => exact dup_eq hnew ht
  | swap first second => exact swap_eq hnew ht first second
  | rotate first count amount => exact rotate_eq hnew ht hwords.2.1
  | spread array pos count => exact spread_eq hnew ht array
  | box | collect | flyby | ricochet => rfl

/-- What a request reaches past is looked at before anything else is done with it. -/
theorem not_reachesPast_of_allows {request : Request} (hcan : h.allows new target request = true) :
    ¬ request.ReachesPast new target := by
  intro hpast
  cases request with
  | cast arg type =>
    exact absurd (Host.of_canConvertAt (Bool.and_eq_true_iff.mp hcan).2).1 (Nat.not_lt.mpr hpast)
  | primCast arg type =>
    exact absurd (Host.of_canConvertAt (Bool.and_eq_true_iff.mp hcan).2).1 (Nat.not_lt.mpr hpast)
  | unbox arg type =>
    obtain ⟨kind, src, -, hsrc, -⟩ := Host.of_canUnbox hcan
    exact absurd (List.getElem?_eq_some_iff.mp hsrc).1 (Nat.not_lt.mpr hpast)
  | box arg type =>
    have hnone : new.param? arg = none := List.getElem?_eq_none hpast
    have hread := (Bool.and_eq_true_iff.mp hcan).2
    rw [hnone] at hread
    cases hread
  | drop pos count =>
    obtain ⟨-, ⟨-, hin⟩, -⟩ := (Host.canDrop_iff hpast.1).mp hcan
    exact absurd hin (Nat.not_le.mpr hpast.2)
  | dup pos count =>
    simp only [Host.allows, Host.canDup, Bool.and_eq_true, decide_eq_true_eq] at hcan
    exact absurd hcan.1.1.1.2 (Nat.not_le.mpr hpast)
  | swap first second =>
    obtain ⟨-, ⟨hlt, hin, -⟩, -⟩ := Host.canSwap_iff.mp hcan
    obtain ⟨-, hpast⟩ := hpast
    rw [Nat.max_eq_right (Nat.le_of_lt hlt)] at hpast
    exact absurd hin (Nat.not_lt.mpr hpast)
  | rotate first count amount =>
    obtain ⟨-, ⟨-, hin, -⟩, -⟩ := Host.canRotate_iff.mp hcan
    exact absurd hin (Nat.not_le.mpr hpast)
  | spread array pos count =>
    obtain ⟨hpos, harity⟩ := Host.arity_of_canSpread hcan
    simp only [Request.ReachesPast] at hpast
    omega
  | rewire map =>
    obtain ⟨j, hj, hpast⟩ := hpast
    cases hok : new.checkMap target map with
    | error e =>
      rw [Host.allows, Host.canRewire, hok] at hcan
      cases hcan
    | ok u => exact absurd ((of_checkMap hok).2 j hj) (Nat.not_lt.mpr hpast)
  | retype | adapt | collect | flyby | ricochet => exact hpast

/-- The constructors ask the same. A swap asks about the positions in ascending order. -/
theorem exists_error_of_reachesPast {request : Request}
    (hpast : request.ReachesPast new t.signature) : ∃ e, h.build new t request = .error e := by
  have hno : h.allows new t.signature request ≠ true := fun hcan =>
    not_reachesPast_of_allows hcan hpast
  cases request with
  | cast arg type => exact ⟨_, if_neg hno⟩
  | primCast arg type => exact ⟨_, if_neg hno⟩
  | unbox arg type => exact ⟨_, if_neg hno⟩
  | drop pos count => exact ⟨_, (if_neg hpast.1).trans (if_neg hno)⟩
  | dup pos count => exact ⟨_, if_neg hno⟩
  | spread array pos count => exact ⟨_, if_neg hno⟩
  | swap first second =>
    have hpast' : (Request.swap (min first second) (max first second)).ReachesPast new
        t.signature := by
      obtain ⟨hne, hpast⟩ := hpast
      constructor <;> omega
    have hno' : h.allows new t.signature (.swap (min first second) (max first second)) ≠ true :=
      fun hcan => not_reachesPast_of_allows hcan hpast'
    exact ⟨_, (if_neg hpast.1).trans (if_neg hno')⟩
  | rotate first count amount =>
    rw [Host.build, Host.rotate]
    split
    · exact ⟨_, rfl⟩
    · exact ⟨_, if_neg hno⟩
  | rewire map =>
    obtain ⟨j, hj, hpast⟩ := hpast
    cases hok : new.checkMap t.signature map with
    | error e =>
      refine ⟨e, ?_⟩
      rw [Host.build, Host.rewire, hok]
      rfl
    | ok u => exact absurd ((of_checkMap hok).2 j hj) (Nat.not_lt.mpr hpast)
  | box => exact ⟨_, rfl⟩
  | retype | adapt | collect | flyby | ricochet => exact hpast.elim

end Requests

/-- On signatures that fit into memory, every question, construction and request to a collector has
    an answer on a machine of words, the one that the library gives: no sum wraps, no difference
    goes below zero and no list is read out of its range. Operands that reach past the arguments or
    the parameters are refused, however large they are. -/
theorem answers_without_fault (hosts : Host → Prop) (h : Host) (new : Signature)
    (hnew : new.Storable) :
    (∀ target request, target.Storable → Request.InWords request →
      allows h new target request = some (h.allows new target request)) ∧
    (∀ t request, t.signature.Storable → Request.InWords request →
      build h new t request = some (h.build new t request)) ∧
    (∀ t request, t.signature.Storable → Request.InWords request →
      request.ReachesPast new t.signature →
      allows h new t.signature request = some false ∧
        ∃ e, build h new t request = some (.error e)) ∧
    ∀ c : Collector, c.Reachable hosts → c.signature.Storable →
      collectorAdapt c new = some (c.adapt new) := by
  refine ⟨fun target request htarget _ => allows_eq hnew htarget request,
    fun t request ht hwords => build_eq hnew ht hwords, ?_,
    fun c hc hstore => collectorAdapt_eq hc hstore hnew⟩
  intro t request ht hwords hpast
  rw [allows_eq hnew ht, build_eq hnew ht hwords, Option.some.injEq]
  refine ⟨Bool.eq_false_iff.mpr fun hcan => not_reachesPast_of_allows hcan hpast, ?_⟩
  obtain ⟨e, he⟩ := exists_error_of_reachesPast (h := h) hpast
  exact ⟨e, by rw [he]⟩

/-- An exchange of two arguments and a gathering are carried out; a drop that would wrap to nothing,
    the widest rotation by the least amount and a map to the last word are refused. -/
theorem answers_without_fault_last_word :
    let new : Signature := ⟨[.prim .int, .string], .object⟩
    let f : Handle := .direct "f" ⟨[.string, .prim .int], .object⟩ HostFunction.echo
    let g : Handle := .direct "g" ⟨[.prim .int, .array .object], .object⟩ HostFunction.echo
    let c : Collector := ⟨{}, g, .array .object, []⟩
    new.Storable ∧ f.signature.Storable ∧ c.Reachable (fun _ => True) ∧ c.signature.Storable ∧
      allows {} new f.signature (.rewire [1, 0]) = some true ∧
      (∃ r, build {} new f (.rewire [1, 0]) = some (.ok r)) ∧
      (∃ e, build {} new f (.drop 1 18446744073709551615) = some (.error e)) ∧
      (∃ e, build {} new f (.rotate 1 18446744073709551615 (-9223372036854775808)) =
        some (.error e)) ∧
      (∃ e, build {} new f (.rewire [1, 18446744073709551615]) = some (.error e)) ∧
      ∃ r, (collectorAdapt c new).map Prod.fst = some (.ok r) := by
  intro new f g c
  have hnew : new.Storable := by decide
  have hf : f.signature.Storable := by decide
  have hg : c.signature.Storable := by decide
  have hc : c.Reachable (fun _ => True) :=
    .collector trivial (.direct ..) (rfl : ({} : Host).collector g (.array .object) = .ok c)
  obtain ⟨hallows, hbuild, hrefused, hcollect⟩ :=
    answers_without_fault (fun _ => True) {} new hnew
  have hcan : ({} : Host).allows new f.signature (.rewire [1, 0]) = true := by decide +kernel
  obtain ⟨r, hr⟩ : ∃ r, ({} : Host).build new f (.rewire [1, 0]) = .ok r :=
    (Host.exists_rewire_iff (by decide) rfl).mpr ⟨by decide, by decide⟩
  obtain ⟨r', hr'⟩ : ∃ r', (c.adapt new).1 = .ok r' := by
    unfold c g new
    exact ⟨_, rfl⟩
  refine ⟨hnew, hf, hc, hg, ?_, ⟨r, ?_⟩, ?_, ?_, ?_, r', ?_⟩
  · rw [hallows f.signature (.rewire [1, 0]) hf (by decide), hcan]
  · rw [hbuild f (.rewire [1, 0]) hf (by decide), hr]
  · exact (hrefused f (.drop 1 18446744073709551615) hf (by decide) (by decide)).2
  · exact (hrefused f (.rotate 1 18446744073709551615 (-9223372036854775808)) hf
      (by decide) (by decide)).2
  · exact (hrefused f (.rewire [1, 18446744073709551615]) hf (by decide) (by decide)).2
  · rw [hcollect c hc hg, Option.map_some, hr']

end Machine

end CallBridge
