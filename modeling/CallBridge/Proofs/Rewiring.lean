import CallBridge.Proofs.Calls
import CallBridge.Proofs.Matching
import CallBridge.Proofs.Ordering
import CallBridge.Rewire

/-!
# Rewired calls

A plan over numbered arguments is carried out three times: on parameter types,
when the chain is built; on values, when it is called; and on the numbers
themselves. The shuffles of a path can be stacked in front of a handle exactly
when every swap finds equal slot sizes, and a call of the stack hands each
argument to the place that the map asks for.
-/

namespace CallBridge

open Shuffle (Path widthOf EndsUnevenly)

/-! ## One shuffle -/

/-- A step that hands on the shuffled arguments and leaves their bits alone. -/
structure Step.Performs (step : Step) (s : Shuffle) : Prop where
  isRaw : step.isRaw = false
  run (args : List Value) : step.run args = Step.reorder s args

namespace Host

variable {h : Host} {new : Signature} {s : Shuffle}

/-- Whether a shuffle can be put in front of a function. -/
def canShuffle (h : Host) (new target : Signature) : Shuffle → Bool
  | .drop pos count => h.canDrop new target pos count
  | .dup pos count => h.canDup new target pos count
  | .swap first second => h.canSwap new target first second
  | .rotate first count amount => h.canRotate new target first count amount

theorem canShuffle_iff {target : Signature} (hs : s.Buildable (fun _ => 0) new.params) :
    h.canShuffle new target s = true ↔ h.supports (shuffleOp s) = true ∧
      s.Buildable Ty.slotSize new.params ∧ s.Feeds new target := by
  cases s with
  | drop pos count => exact canDrop_iff (Nat.ne_of_gt hs.1)
  | dup pos count => exact canDup_iff (Nat.ne_of_gt hs.1)
  | swap first second => exact canSwap_iff
  | rotate first count amount =>
    obtain ⟨hcount, -, hamount⟩ := hs
    rw [canShuffle, canRotate_iff, rotationAmount_of_lt (by omega)]
    rfl

/-- A shuffle that fits becomes one step in front of the target, or is refused. -/
theorem shuffle_eq (hs : s.Buildable (fun _ => 0) new.params) (target : Handle) :
    ∃ step : Step, step.Performs s ∧ h.shuffle new target s =
      if h.canShuffle new target.signature s then .ok (.adapter new step target)
      else refuse new target := by
  cases s with
  | drop pos count =>
    refine ⟨.drop pos count (new.slotsAt pos count), ⟨rfl, fun _ => rfl⟩, ?_⟩
    rw [shuffle, drop, if_neg (Nat.ne_of_gt hs.1)]
    rfl
  | dup pos count =>
    refine ⟨.dup pos count (new.slotsAt pos count), ⟨rfl, fun _ => rfl⟩, ?_⟩
    rw [shuffle, dup, if_neg (Nat.ne_of_gt hs.1)]
    rfl
  | swap first second =>
    obtain ⟨hlt, hin, -⟩ := hs
    obtain ⟨t, hparam⟩ : ∃ t, new.param? first = some t :=
      ⟨_, List.getElem?_eq_getElem (Nat.lt_trans hlt hin)⟩
    refine ⟨.swap first second (.ofTy t) (new.slotDepth (second + 1)), ⟨rfl, fun _ => rfl⟩, ?_⟩
    simp only [shuffle, swap, if_neg (Nat.ne_of_lt hlt), Nat.min_eq_left (Nat.le_of_lt hlt),
      Nat.max_eq_right (Nat.le_of_lt hlt), hparam]
    rfl
  | rotate first count amount =>
    obtain ⟨hcount, hin, hamount⟩ := hs
    have hright := rotationAmount_of_lt (show amount < count by omega)
    have hnarrow := ((not_isWideRotation_iff hcount (by omega)).mpr hamount).2
    obtain ⟨ends, hends⟩ : ∃ ends : Nat × Nat, ends =
      if amount = 1 then (first + count - 1, first) else (first, first + count - 1) := ⟨_, rfl⟩
    obtain ⟨t, hparam⟩ : ∃ t, new.param? ends.1 = some t := by
      refine ⟨_, List.getElem?_eq_getElem ?_⟩
      rw [hends]
      split <;> simp only <;> omega
    refine ⟨.rotate first count amount ends.1 (.ofTy t) (new.slotDepth (ends.2 + 1)),
      ⟨rfl, fun _ => rfl⟩, ?_⟩
    simp only [shuffle, rotate, hright, hnarrow, Bool.false_eq_true, and_false, if_false, ← hends,
      hparam]
    rfl

/-- A shuffle is put in front of a handle exactly when its operation is supported, its slot sizes
    fit, and the target takes the shuffled arguments. -/
theorem exists_shuffle_iff (hs : s.Buildable (fun _ => 0) new.params) {target : Handle} :
    (∃ r, h.shuffle new target s = .ok r) ↔ h.supports (shuffleOp s) = true ∧
      s.Buildable Ty.slotSize new.params ∧ s.Feeds new target.signature := by
  obtain ⟨step, -, hshuffle⟩ := shuffle_eq (h := h) hs target
  rw [← canShuffle_iff hs, hshuffle]
  cases h.canShuffle new target.signature s <;> simp [refuse]

theorem of_shuffle_eq_ok {target r : Handle} (hs : s.Buildable (fun _ => 0) new.params)
    (hok : h.shuffle new target s = .ok r) :
    ∃ step : Step, step.Performs s ∧ r = .adapter new step target := by
  obtain ⟨step, hstep, hshuffle⟩ := shuffle_eq (h := h) hs target
  refine ⟨step, hstep, ?_⟩
  rw [hshuffle] at hok
  split at hok
  · exact (Except.ok.inj hok).symm
  · cases hok

end Host

/-! ## A sequence of shuffles -/

section Sequence

variable {h : Host} {new : Signature} {type : Nat → Ty} {value : Nat → Value}
variable {js ks map : List Nat} {s : Shuffle} {ss : List Shuffle} {target r : Handle}

theorem Shuffle.Buildable.withParams (hs : s.Buildable (fun _ => 0) js) (new : Signature)
    (type : Nat → Ty) : s.Buildable (fun _ => 0) (new.withParams (js.map type)).params :=
  (Shuffle.buildable_map_iff type).mpr hs

theorem Host.shuffles_cons_eq_ok_iff (hact : s.act? js = some ks) :
    h.shuffles (new.withParams (js.map type)) (s :: ss) target = .ok r ↔
      ∃ inner, h.shuffles (new.withParams (ks.map type)) ss target = .ok inner ∧
        h.shuffle (new.withParams (js.map type)) inner s = .ok r := by
  have hmap : s.act (js.map type) = ks.map type :=
    Shuffle.act_eq_of_act? (by rw [Shuffle.act?_map, hact]; rfl)
  rw [Host.shuffles, bind_eq_ok_iff, Signature.params_withParams, hmap]
  rfl

theorem Host.signature_of_shuffles (hpath : Path (fun _ => 0) js ss map) (hne : ss ≠ [])
    (hok : h.shuffles (new.withParams (js.map type)) ss target = .ok r) :
    r.signature = new.withParams (js.map type) := by
  cases hpath with
  | nil js => exact absurd rfl hne
  | @cons _ _ _ s _ hs hact _ =>
    have hs' := hs.withParams new type
    obtain ⟨inner, -, hok⟩ := (Host.shuffles_cons_eq_ok_iff hact).mp hok
    obtain ⟨step, -, rfl⟩ := Host.of_shuffle_eq_ok hs' hok
    rfl

/-- A stack of shuffles takes the arguments that it is built for. -/
theorem Host.passes_of_shuffles (hpath : Path (fun _ => 0) js ss map)
    (hpass : (new.withParams (map.map type)).Passes .checked target.signature)
    (hok : h.shuffles (new.withParams (js.map type)) ss target = .ok r) :
    (new.withParams (js.map type)).Passes .checked r.signature := by
  by_cases hne : ss = []
  · subst hne
    cases hpath
    cases hok
    exact hpass
  · rw [Host.signature_of_shuffles hpath hne hok]
    exact Signature.passes_refl _

/-- Shuffles that lead to arguments which the target takes can be stacked exactly when the host
    runs each of them and the slot sizes fit on the way. -/
theorem Host.exists_shuffles_iff (hpath : Path (fun _ => 0) js ss map)
    (hpass : (new.withParams (map.map type)).Passes .checked target.signature) :
    (∃ r, h.shuffles (new.withParams (js.map type)) ss target = .ok r) ↔
      (∀ s ∈ ss, h.supports (Host.shuffleOp s) = true) ∧
        Path (Ty.slotSize ∘ type) js ss map := by
  induction hpath with
  | nil js => simpa [Host.shuffles] using Path.nil js
  | @cons js ks map s rest hs hact hrest ih =>
    have hs' := hs.withParams new type
    have hfeeds : ∀ inner, h.shuffles (new.withParams (ks.map type)) rest target = .ok inner →
        s.Feeds (new.withParams (js.map type)) inner.signature := fun inner hinner =>
      ⟨ks.map type, by rw [Signature.params_withParams, Shuffle.act?_map, hact]; rfl,
        Host.passes_of_shuffles hrest hpass hinner⟩
    rw [List.forall_mem_cons]
    constructor
    · rintro ⟨r, hok⟩
      obtain ⟨inner, hinner, hok⟩ := (Host.shuffles_cons_eq_ok_iff hact).mp hok
      obtain ⟨hop, hsize, -⟩ := (Host.exists_shuffle_iff hs').mp ⟨r, hok⟩
      obtain ⟨hops, hpath⟩ := (ih hpass).mp ⟨inner, hinner⟩
      exact ⟨⟨hop, hops⟩, .cons ((Shuffle.buildable_map_iff type).mp hsize) hact hpath⟩
    · rintro ⟨⟨hop, hops⟩, hpath⟩
      cases hpath with
      | cons hsize hact' hpath =>
        obtain rfl := Option.some.inj (hact.symm.trans hact')
        obtain ⟨inner, hinner⟩ := (ih hpass).mpr ⟨hops, hpath⟩
        obtain ⟨r, hok⟩ := (Host.exists_shuffle_iff hs').mpr
          ⟨hop, (Shuffle.buildable_map_iff type).mpr hsize, hfeeds inner hinner⟩
        exact ⟨r, (Host.shuffles_cons_eq_ok_iff hact).mpr ⟨inner, hinner, hok⟩⟩

/-- A call of a shuffle hands the shuffled arguments on. -/
theorem Host.moves_of_shuffle (hs : s.Buildable (fun _ => 0) new.params)
    (hact : s.act? js = some ks) (hok : h.shuffle new target s = .ok r)
    (pending : List Handle.Return) :
    Call.Moves ⟨r, js.map value, pending⟩
      ⟨target, Value.conformAll (ks.map value) target.signature.params false,
        ⟨new.ret, false⟩ :: pending⟩ := by
  obtain ⟨step, hstep, rfl⟩ := Host.of_shuffle_eq_ok hs hok
  have hrun : step.run (js.map value) = .ok (ks.map value) := by
    rw [hstep.run, Step.reorder, Shuffle.act?_map, hact]
    rfl
  rw [← hstep.isRaw]
  exact .adapter hrun

/-- Arguments in line with their own types are no different from others where they pass freely. -/
theorem Value.conformAll_conformAll {args : List Value} {srcs dsts : List Ty}
    (hpass : Ty.PassAll .checked srcs dsts) (hkinds : List.Forall₂ KindAgrees args srcs) :
    conformAll (conformAll args srcs false) dsts false = conformAll args dsts false := by
  induction hkinds generalizing dsts with
  | nil => rfl
  | cons hkind _ ih =>
    cases hpass with
    | cons hhead htail =>
      simp only [conformAll, ih htail, conform_conform hkind (Ty.passing_checked_iff.mp hhead)]

theorem conformAll_conform {dsts : List Ty} (hpass : Ty.PassAll .checked (ks.map type) dsts)
    (hkinds : ∀ j, (value j).KindAgrees (type j)) :
    Value.conformAll (ks.map fun j => (value j).conform (type j) false) dsts false =
      Value.conformAll (ks.map value) dsts false := by
  rw [← Value.conformAll_map]
  refine Value.conformAll_conformAll hpass ?_
  rw [List.forall₂_map_left_iff, List.forall₂_map_right_iff, List.forall₂_same]
  exact fun j _ => hkinds j

/-- A call of a stack of shuffles comes to its target with the arguments that the path leads to,
    and passes one return type for each shuffle on the way. -/
theorem Host.reaches_of_shuffles (hpath : Path (fun _ => 0) js ss map)
    (hpass : (new.withParams (map.map type)).Passes .checked target.signature)
    (hkinds : ∀ j, (value j).KindAgrees (type j))
    (hok : h.shuffles (new.withParams (js.map type)) ss target = .ok r)
    (pending : List Handle.Return) :
    Call.Reaches ⟨r, Value.conformAll (js.map value) r.signature.params false, pending⟩
      ⟨target, Value.conformAll (map.map value) target.signature.params false,
        List.replicate ss.length ⟨new.ret, false⟩ ++ pending⟩ := by
  induction hpath generalizing r pending with
  | nil js =>
    cases hok
    exact .refl
  | @cons js ks map s rest hs hact hrest ih =>
    obtain ⟨inner, hinner, hok⟩ := (Host.shuffles_cons_eq_ok_iff hact).mp hok
    have hs' := hs.withParams new type
    have hmove : Call.Moves ⟨r, js.map fun j => (value j).conform (type j) false, pending⟩ _ :=
      Host.moves_of_shuffle hs' hact hok pending
    rw [conformAll_conform (Host.passes_of_shuffles hrest hpass hinner).params hkinds] at hmove
    obtain ⟨step, -, rfl⟩ := Host.of_shuffle_eq_ok hs' hok
    have hreach := ih hpass hinner (⟨new.ret, false⟩ :: pending)
    rw [List.append_cons, ← List.replicate_succ'] at hreach
    rw [Handle.signature_adapter, Signature.params_withParams, Value.conformAll_map]
    exact .head hmove hreach

/-- The same from outside, where nobody has brought the arguments in line with their types. -/
theorem Host.reaches_of_shuffles_start (hpath : Path (fun _ => 0) js ss map) (hne : ss ≠ [])
    (hpass : (new.withParams (map.map type)).Passes .checked target.signature)
    (hkinds : ∀ j, (value j).KindAgrees (type j))
    (hok : h.shuffles (new.withParams (js.map type)) ss target = .ok r) :
    Call.Reaches (.start r (js.map value))
      ⟨target, Value.conformAll (map.map value) target.signature.params false,
        List.replicate ss.length ⟨new.ret, false⟩⟩ := by
  cases hpath with
  | nil js => exact absurd rfl hne
  | @cons _ _ _ s _ hs hact hrest =>
    have hs' := hs.withParams new type
    obtain ⟨inner, hinner, hok⟩ := (Host.shuffles_cons_eq_ok_iff hact).mp hok
    have hreach := Host.reaches_of_shuffles hrest hpass hkinds hinner [⟨new.ret, false⟩]
    rw [← List.replicate_succ'] at hreach
    exact .head (Host.moves_of_shuffle hs' hact hok []) hreach

end Sequence

/-! ## Argument maps -/

namespace Signature

variable {new target : Signature} {map : List Nat}

/-- The type of the parameter at `j`; there is no value past the last one. -/
def paramAt (s : Signature) (j : Nat) : Ty :=
  (s.param? j).getD .void

theorem param?_eq_paramAt {s : Signature} {j : Nat} (h : j < s.arity) :
    s.param? j = some (s.paramAt j) := by
  have hparam : s.param? j = some _ := List.getElem?_eq_getElem h
  rw [paramAt, hparam]
  rfl

theorem paramAt_of_param? {s : Signature} {j : Nat} {type : Ty} (h : s.param? j = some type) :
    s.paramAt j = type := by
  rw [paramAt, h]
  rfl

theorem map_paramAt_range (s : Signature) : (List.range s.arity).map s.paramAt = s.params := by
  apply List.ext_getElem (by simp [arity])
  intro j _ hj
  simp [paramAt, param?, List.getElem?_eq_getElem hj]

theorem withParams_map_paramAt (s : Signature) :
    s.withParams ((List.range s.arity).map s.paramAt) = s := by
  rw [map_paramAt_range]
  rfl

@[simp] theorem length_widths (s : Signature) : s.widths.length = s.arity := by
  simp [widths, arity]

theorem widthOf_widths (s : Signature) : widthOf s.widths = Ty.slotSize ∘ s.paramAt := by
  funext j
  simp only [widthOf, widths, List.getElem?_map, Function.comp_apply, paramAt, param?]
  cases s.params[j]? <;> rfl

/-- The plan for a map turns the caller's arguments into those of the map. -/
theorem realizes_plan (hin : ∀ j ∈ map, j < new.arity) :
    Shuffle.Realizes (widthOf new.widths) map (List.range new.arity)
      (Shuffle.plan new.widths map) := by
  rw [← length_widths]
  exact Shuffle.realizes_plan (by simpa using hin)

theorem passesFreelyBy_iff (hlen : map.length = target.arity) (hin : ∀ j ∈ map, j < new.arity) :
    new.passesFreelyBy target map = true ↔
      (new.withParams (map.map new.paramAt)).Passes .checked target := by
  have hentry : ∀ {j dst}, (j, dst) ∈ map.zip target.params →
      new.param? j = some (new.paramAt j) :=
    fun hmem => param?_eq_paramAt (hin _ (List.of_mem_zip hmem).1)
  simp only [passesFreelyBy, Bool.and_eq_true, List.all_eq_true, Prod.forall]
  constructor
  · rintro ⟨hret, hall⟩
    refine ⟨returnsMatch_checked_iff.mpr hret, ?_⟩
    refine List.forall₂_map_left_iff.mpr (List.forall₂_iff_zip.mpr ⟨hlen, fun {j dst} hmem => ?_⟩)
    have hpass := hall j dst hmem
    rw [hentry hmem] at hpass
    exact Ty.passing_checked_iff.mpr hpass
  · rintro ⟨hret, hparams⟩
    refine ⟨returnsMatch_checked_iff.mp hret, fun j dst hmem => ?_⟩
    rw [hentry hmem]
    exact Ty.passing_checked_iff.mp
      ((List.forall₂_iff_zip.mp (List.forall₂_map_left_iff.mp hparams)).2 hmem)

/-- A map that is not the identity is accepted when it has one entry for each parameter of the
    target, its entries are arguments of the caller, and these match the target's parameters. -/
theorem checkMap_eq_ok_iff (hmap : new.isIdentityMap target map = false) :
    new.checkMap target map = .ok () ↔ (∀ j ∈ map, j < new.arity) ∧
      (new.withParams (map.map new.paramAt)).Passes .checked target := by
  have hfind : (map.find? fun j => decide (new.arity ≤ j)) = none ↔ ∀ j ∈ map, j < new.arity := by
    simp
  simp only [checkMap, hmap, Bool.false_or]
  constructor
  · intro hok
    split at hok
    · cases hok
    · rename_i hlen
      split at hok
      · cases hok
      · rename_i hnone
        split at hok
        · have hin := hfind.mp hnone
          exact ⟨hin, (passesFreelyBy_iff (by simpa using hlen) hin).mp ‹_›⟩
        · cases hok
  · rintro ⟨hin, hpass⟩
    have hlen : map.length = target.arity := by
      simpa [arity] using hpass.params.length_eq
    rw [if_neg (by simpa using hlen), hfind.mpr hin]
    exact if_pos ((passesFreelyBy_iff hlen hin).mpr hpass)

end Signature

namespace Host

variable {h : Host} {new : Signature} {target r : Handle} {map : List Nat}

/-- Only the identity needs no shuffles. -/
theorem plan_ne_nil (hmap : new.isIdentityMap target.signature map = false)
    (hcheck : new.checkMap target.signature map = .ok ()) : Shuffle.plan new.widths map ≠ [] := by
  intro hplan
  obtain ⟨hin, hpass⟩ := (Signature.checkMap_eq_ok_iff hmap).mp hcheck
  have hlen : map.length = target.signature.arity := by
    simpa [Signature.arity] using hpass.params.length_eq
  have hpath := (Signature.realizes_plan hin).path
  rw [hplan] at hpath
  cases hpath
  rw [List.length_range] at hlen
  simp [Signature.isIdentityMap, hlen] at hmap

theorem finish_eq_ok (hsig : r.signature = new) : h.finish new r = .ok r := by
  rw [finish, if_pos hsig]
  exact if_pos hsig

/-- A rewired handle is the stack of the planned shuffles, over numbered parameters. -/
theorem rewire_eq_ok_iff (hmap : new.isIdentityMap target.signature map = false) :
    h.rewire new target map = .ok r ↔ new.checkMap target.signature map = .ok () ∧
      h.shuffles (new.withParams ((List.range new.arity).map new.paramAt))
        (Shuffle.plan new.widths map) target = .ok r := by
  have hfinish : ∀ {r}, new.checkMap target.signature map = .ok () →
      h.shuffles (new.withParams ((List.range new.arity).map new.paramAt))
        (Shuffle.plan new.widths map) target = .ok r → h.finish new r = .ok r := by
    intro r hcheck hok
    obtain ⟨hin, -⟩ := (Signature.checkMap_eq_ok_iff hmap).mp hcheck
    have hpath := (Signature.realizes_plan hin).path
    have hsig := signature_of_shuffles hpath (plan_ne_nil hmap hcheck) hok
    rw [new.withParams_map_paramAt] at hsig
    exact finish_eq_ok hsig
  rw [new.withParams_map_paramAt] at hfinish ⊢
  rw [rewire, bind_eq_ok_iff]
  simp only [hmap, Bool.false_eq_true, if_false, bind_eq_ok_iff]
  constructor
  · rintro ⟨⟨⟩, hcheck, adapter, hok, hr⟩
    rw [hfinish hcheck hok] at hr
    cases hr
    exact ⟨hcheck, hok⟩
  · rintro ⟨hcheck, hok⟩
    exact ⟨(), hcheck, r, hok, hfinish hcheck hok⟩

/-- A map that both signatures agree to is rewired exactly when the host runs the planned shuffles
    and the plan does not end in an uneven exchange. -/
theorem exists_rewire_iff (hmap : new.isIdentityMap target.signature map = false)
    (hcheck : new.checkMap target.signature map = .ok ()) :
    (∃ r, h.rewire new target map = .ok r) ↔
      (∀ s ∈ Shuffle.plan new.widths map, h.supports (shuffleOp s) = true) ∧
        ¬ EndsUnevenly (widthOf new.widths) map (Shuffle.plan new.widths map) := by
  obtain ⟨hin, hpass⟩ := (Signature.checkMap_eq_ok_iff hmap).mp hcheck
  have hplan := Signature.realizes_plan hin
  have hpath : Path (widthOf new.widths) (List.range new.arity) (Shuffle.plan new.widths map) map ↔
      ¬ EndsUnevenly (widthOf new.widths) map (Shuffle.plan new.widths map) :=
    ⟨fun hpath huneven => huneven.not_path hpath, fun heven => hplan.even.resolve_right heven⟩
  simp only [rewire_eq_ok_iff hmap, hcheck, true_and]
  rw [exists_shuffles_iff hplan.path hpass, ← new.widthOf_widths, hpath]

theorem canRewire_iff {target : Signature} (hmap : new.isIdentityMap target map = false) :
    h.canRewire new target map = true ↔ new.checkMap target map = .ok () ∧
      ∀ s ∈ Shuffle.plan new.widths map, h.supports (shuffleOp s) = true := by
  simp only [canRewire, hmap]
  cases new.checkMap target map <;> simp

/-- Arguments that all take slots never end unevenly. -/
theorem not_endsUnevenly_of_void_not_mem (hin : ∀ j ∈ map, j < new.arity)
    (hvoid : Ty.void ∉ new.params) (ss : List Shuffle) :
    ¬ EndsUnevenly (widthOf new.widths) map ss := by
  apply Shuffle.not_endsUnevenly
  · simpa using hin
  · intro w hw
    obtain ⟨t, ht, rfl⟩ := List.mem_map.mp hw
    cases t with
    | void => exact absurd ht hvoid
    | prim kind => cases kind <;> simp [Ty.slotSize, Prim.slotSize]
    | null | object | cls | iface | array => exact .inl rfl

end Host

/-! ## Which maps are rewired -/

namespace Host

/-- Whether a handle can be rewired is foretold by the signatures and the host's operations, except
    that the last exchange of a plan may meet three arguments of three different slot sizes. One of
    them has to take no slot at all. -/
theorem rewire_ok_iff_canRewire (h : Host) (new : Signature) (target : Handle) (map : List Nat)
    (hmap : new.isIdentityMap target.signature map = false) :
    ((∃ r, h.rewire new target map = .ok r) ↔ h.canRewire new target.signature map = true ∧
      ¬ EndsUnevenly (widthOf new.widths) map (Shuffle.plan new.widths map)) ∧
    (Ty.void ∉ new.params →
      ((∃ r, h.rewire new target map = .ok r) ↔ h.canRewire new target.signature map = true)) := by
  have hiff : (∃ r, h.rewire new target map = .ok r) ↔
      h.canRewire new target.signature map = true ∧
        ¬ EndsUnevenly (widthOf new.widths) map (Shuffle.plan new.widths map) := by
    rw [canRewire_iff hmap, and_assoc]
    constructor
    · rintro ⟨r, hok⟩
      have hcheck := ((rewire_eq_ok_iff hmap).mp hok).1
      exact ⟨hcheck, (exists_rewire_iff hmap hcheck).mp ⟨r, hok⟩⟩
    · rintro ⟨hcheck, hrest⟩
      exact (exists_rewire_iff hmap hcheck).mpr hrest
  refine ⟨hiff, fun hvoid => hiff.trans ⟨And.left, fun hcan => ⟨hcan, ?_⟩⟩⟩
  obtain ⟨hin, -⟩ := (Signature.checkMap_eq_ok_iff hmap).mp ((canRewire_iff hmap).mp hcan).1
  exact not_endsUnevenly_of_void_not_mem hin hvoid _

/-- Three arguments of three slot sizes, moved around by a rotation. -/
theorem rewire_ok_iff_canRewire_rotation :
    let new : Signature := ⟨[.void, .prim .int, .prim .long], .object⟩
    let old : Signature := ⟨[.prim .int, .prim .long, .void], .object⟩
    new.isIdentityMap old [1, 2, 0] = false ∧
      ∃ r, ({} : Host).rewire new (.direct "f" old HostFunction.echo) [1, 2, 0] = .ok r := by
  intro new old
  have hmap : new.isIdentityMap old [1, 2, 0] = false := by decide
  refine ⟨hmap, ?_⟩
  refine (rewire_ok_iff_canRewire {} new (.direct "f" old HostFunction.echo) _ hmap).1.mpr ?_
  exact ⟨by decide, by decide⟩

/-- A swap that the signatures allow, refused where the last three arguments have three sizes. -/
theorem canRewire_not_rewire :
    let new : Signature := ⟨[.void, .prim .int, .prim .long], .object⟩
    let old : Signature := ⟨[.void, .prim .long, .prim .int], .object⟩
    ({} : Host).canRewire new old [0, 2, 1] = true ∧
      ({} : Host).rewire new (.direct "f" old HostFunction.echo) [0, 2, 1] =
        .error (.notConvertible old ⟨[.prim .int, .prim .long, .void], .object⟩) :=
  ⟨by decide, rfl⟩

end Host

/-! ## What a rewired handle computes -/

namespace Value

/-- The argument at `j`; there is no value past the last one. -/
def argAt (args : List Value) (j : Nat) : Value :=
  args[j]?.getD void

theorem getElem?_eq_argAt {args : List Value} {j : Nat} (h : j < args.length) :
    args[j]? = some (argAt args j) := by
  rw [argAt, List.getElem?_eq_getElem h]
  rfl

theorem map_argAt_range (args : List Value) :
    (List.range args.length).map (argAt args) = args := by
  apply List.ext_getElem (by simp)
  intro j _ hj
  simp [argAt, hj]

theorem kindAgrees_argAt {args : List Value} {s : Signature}
    (h : List.Forall₂ KindAgrees args s.params) (j : Nat) :
    (argAt args j).KindAgrees (s.paramAt j) := by
  by_cases hj : j < args.length
  · have hj' : j < s.params.length := h.length_eq ▸ hj
    rw [argAt, Signature.paramAt, Signature.param?, List.getElem?_eq_getElem hj,
      List.getElem?_eq_getElem hj']
    exact h.get hj hj'
  · rw [argAt, List.getElem?_eq_none (by omega)]
    rintro d kind ⟨⟩

end Value

/-- A rewired call brings each argument where the map asks for it: no step on the way fails, and the
    target is called with `args[map[i]]` as its argument `i`, primitives in line with its
    parameters. Its result is brought in line with the caller's return type. -/
theorem Host.invoke_rewire (h : Host) (new : Signature) (target r : Handle) (map : List Nat)
    (args : List Value) (hmap : new.isIdentityMap target.signature map = false)
    (hok : h.rewire new target map = .ok r)
    (hargs : List.Forall₂ Value.KindAgrees args new.params) :
    ∃ picked, List.Forall₂ (fun j v => args[j]? = some v) map picked ∧
      Call.Reaches (.start r args)
        ⟨target, Value.conformAll picked target.signature.params false,
          List.replicate (Shuffle.plan new.widths map).length ⟨new.ret, false⟩⟩ ∧
      r.invoke args =
        (target.invoke (Value.conformAll picked target.signature.params false)).map
          (·.coerce new.ret false) := by
  obtain ⟨hcheck, hstack⟩ := (rewire_eq_ok_iff hmap).mp hok
  obtain ⟨hin, hpass⟩ := (Signature.checkMap_eq_ok_iff hmap).mp hcheck
  have hlen : args.length = new.arity := hargs.length_eq
  have hplan := plan_ne_nil hmap hcheck
  have hpath := (Signature.realizes_plan hin).path
  -- Arguments are numbered like parameters, so that the plan acts on both alike.
  have hpicked : List.Forall₂ (fun j v => args[j]? = some v) map (map.map (Value.argAt args)) := by
    rw [List.forall₂_map_right_iff, List.forall₂_same]
    exact fun j hj => Value.getElem?_eq_argAt (hlen ▸ hin j hj)
  have hreach := reaches_of_shuffles_start hpath hplan hpass (Value.kindAgrees_argAt hargs) hstack
  have hsig := signature_of_shuffles hpath hplan hstack
  rw [← hlen, Value.map_argAt_range] at hreach
  rw [new.withParams_map_paramAt] at hsig
  refine ⟨map.map (Value.argAt args), hpicked, hreach, ?_⟩
  have htarget : (map.map (Value.argAt args)).length = target.signature.arity := by
    simpa [Signature.arity] using hpass.params.length_eq
  rw [Handle.invoke_eq_of_reaches hreach (by rw [hlen, hsig])
    (by rw [Value.length_conformAll, htarget])]
  congr 1
  funext result
  exact Handle.unwind_replicate (by simpa using hplan) _ result

/-- One argument used twice and widened, the other one moved to the front. -/
theorem Host.invoke_rewire_widening :
    let new : Signature := ⟨[.prim .byte, .prim .long], .object⟩
    let target : Handle :=
      .direct "f" ⟨[.prim .long, .prim .int, .prim .int], .object⟩ HostFunction.echo
    let args : List Value := [.prim (.byte (-7)), .prim (.long 9)]
    ∃ r, new.isIdentityMap target.signature [1, 0, 0] = false ∧
      ({} : Host).rewire new target [1, 0, 0] = .ok r ∧
      List.Forall₂ Value.KindAgrees args new.params ∧
      r.invoke args = .ok (.array (.array .object)
        [.prim (.long 9), .prim (.int (-7)), .prim (.int (-7))]) := by
  intro new target args
  have hmap : new.isIdentityMap target.signature [1, 0, 0] = false := by decide
  have hargs : List.Forall₂ Value.KindAgrees args new.params := by
    refine .cons ?_ (.cons ?_ .nil) <;> rintro d kind ⟨⟩ ⟨⟩ <;> rfl
  obtain ⟨r, hok⟩ : ∃ r, ({} : Host).rewire new target [1, 0, 0] = .ok r :=
    (exists_rewire_iff hmap rfl).mpr ⟨by decide, by decide⟩
  refine ⟨r, hmap, hok, hargs, ?_⟩
  obtain ⟨picked, hpicked, -, hinvoke⟩ :=
    invoke_rewire {} new target r [1, 0, 0] args hmap hok hargs
  obtain rfl : picked = [.prim (.long 9), .prim (.byte (-7)), .prim (.byte (-7))] := by
    simpa [args, List.forall₂_cons_left_iff] using hpicked
  rw [hinvoke]
  rfl

end CallBridge
