import CallBridge.Collector
import CallBridge.Proofs.Calls
import CallBridge.Proofs.Matching
import CallBridge.Request

/-!
# Verified chains

A machine that is handed a chain can check it node by node: the signatures on both
sides of a step allow it, and what the step records is what they determine. Every
way of building handles keeps to that, including the planners and those
constructors that put a second step under a signature of their own making.
-/

namespace CallBridge

/-! ## Verified nodes -/

/-- Whether a step between the signatures `s` and `u` is one that the host allows, and records what
    the signatures determine. -/
def Host.Verifies (h : Host) (s u : Signature) : Step → Prop
  | .retype mode => h.canRetype s u mode = true
  | .cast arg type => h.canCast s u arg type = true
  | .primCast arg source target =>
    h.canPrimCast s u arg (.prim target) = true ∧ s.param? arg = some (.prim source)
  | .unbox arg target wrapper =>
    h.canUnbox s u arg (.prim target) = true ∧ wrapper = .wrapper target ∧
      ∃ src, s.param? arg = some src ∧ src.passesFreely wrapper = true
  | .drop pos count slots =>
    count ≠ 0 ∧ h.canDrop s u pos count = true ∧ slots = s.slotsAt pos count
  | .dup pos count slots =>
    count ≠ 0 ∧ h.canDup s u pos count = true ∧ slots = s.slotsAt pos count
  | .swap first second tag destSlot =>
    h.canSwap s u first second = true ∧
      (∃ t, s.param? first = some t ∧ tag = .ofTy t) ∧ destSlot = s.slotDepth (second + 1)
  | .rotate first count amount moved tag destSlot =>
    amount < count ∧ h.canRotate s u first count amount = true ∧
      (∃ t, s.param? moved = some t ∧ tag = .ofTy t) ∧
      ((amount = 1 ∧ moved = first + count - 1 ∧ destSlot = s.slotDepth (first + 1)) ∨
        (amount ≠ 1 ∧ moved = first ∧ destSlot = s.slotDepth (first + count - 1 + 1)))
  | .spread pos count array slots =>
    h.canSpread s u array pos count = true ∧ slots = u.slotsAt pos count ∧
      ∃ src, s.param? pos = some src ∧ src.passesFreely array = true

/-- Whether a node of signature `s` gathers `count` arguments for the last parameter of `u`. -/
structure Signature.Collects (s u : Signature) (pos count : Nat) (array : Ty) : Prop where
  arity : u.arity = pos + 1
  signature : ∃ elem, array = .array elem ∧
    s = u.withParams (u.params.take pos ++ List.replicate count elem)
  last : ∃ t, u.param? pos = some t ∧ array.passesFreely t = true

/-- Whether every step of the chain is verified by one of the hosts. -/
def Handle.Verified (hosts : Host → Prop) : Handle → Prop
  | .direct .. => True
  | .adapter s step t => (∃ h, hosts h ∧ h.Verifies s t.signature step) ∧ t.Verified hosts
  | .collect s pos count array t =>
    s.Collects t.signature pos count array ∧ t.Verified hosts

/-! ## Changing one parameter -/

namespace Signature

variable {new target : Signature} {arg : Nat} {type dst : Ty}

/-- The one position that differs still does with another type that does not pass either. -/
theorem difference_withParam (h : new.difference target .checked = .single arg)
    (hdst : target.param? arg = some dst) (htype : type.passesFreely dst = false) :
    (new.withParam arg type).difference target .checked = .single arg := by
  rw [difference_eq_single_iff] at h ⊢
  obtain ⟨hret, harity, hdiffers⟩ := h
  have harg := ((hdiffers arg).mpr rfl).1
  rw [arity_withParam]
  refine ⟨hret, harity, fun k => ?_⟩
  by_cases hk : k = arg
  · have hnot : type.passing dst .checked ≠ .trivial := by
      rw [Ne, Ty.passing_checked_iff, htype]
      exact Bool.false_ne_true
    simp [hk, harg, differsAt, param?_withParam_self harg, hdst, hnot]
  · rw [← hdiffers, differsAt, differsAt, param?_withParam_ne hk]

end Signature

/-! ## Elementary constructors -/

namespace Host

section Elementary

variable {hosts : Host → Prop} {h : Host} {new : Signature} {t r : Handle}

theorem verified_adapter {step : Step} (hh : hosts h) (ht : t.Verified hosts)
    (hstep : h.Verifies new t.signature step) : (Handle.adapter new step t).Verified hosts :=
  ⟨⟨h, hh, hstep⟩, ht⟩

theorem verified_retype {mode : Mode} (hh : hosts h) (ht : t.Verified hosts)
    (hok : h.retype new t mode = .ok r) : r.Verified hosts := by
  simp only [retype] at hok
  split at hok
  · cases hok
    exact ht
  · split at hok
    · rename_i hcan
      cases hok
      exact verified_adapter hh ht hcan
    · cases hok

theorem verified_cast {arg : Nat} {type : Ty} (hh : hosts h) (ht : t.Verified hosts)
    (hok : h.cast new t arg type = .ok r) : r.Verified hosts := by
  simp only [cast] at hok
  split at hok
  · rename_i hcan
    cases hok
    exact verified_adapter hh ht hcan
  · cases hok

theorem verified_primCast {arg : Nat} {type : Ty} (hh : hosts h) (ht : t.Verified hosts)
    (hok : h.primCast new t arg type = .ok r) : r.Verified hosts := by
  simp only [primCast] at hok
  split at hok
  · rename_i hcan
    split at hok
    · rename_i source kind hsource hkind
      cases hok
      have htype : type = .prim kind := by cases type <;> simp_all [Ty.asPrim?]
      have hparam : new.param? arg = some (.prim source) := by
        obtain ⟨src, hsrc, hprim⟩ := Option.bind_eq_some_iff.mp hsource
        rw [hsrc]
        cases src <;> simp_all [Ty.asPrim?]
      subst htype
      exact verified_adapter hh ht ⟨hcan, hparam⟩
    · cases hok
  · cases hok

theorem kindNamed?_prim (kind : Prim) : kindNamed? (.prim kind) = some kind := rfl

/-- Unboxing depends on the kind that is named, not on how it is named. -/
theorem canUnbox_iff {u : Signature} {arg : Nat} {type : Ty} {kind : Prim}
    (hkind : kindNamed? type = some kind) :
    h.canUnbox new u arg type = true ↔ h.supports .refToPrim = true ∧
      canConvertAt new u arg (.prim kind) (fun src => src.casts (.wrapper kind)) = true := by
  simp only [canUnbox, hkind, Bool.and_eq_true]

/-- What can be unboxed can be unboxed from the wrapper class itself. -/
theorem canUnbox_withParam {u : Signature} {arg : Nat} {kind : Prim}
    (hcan : h.canUnbox new u arg (.prim kind) = true) :
    h.canUnbox (new.withParam arg (.wrapper kind)) u arg (.prim kind) = true := by
  rw [canUnbox_iff (kindNamed?_prim kind), canConvertAt_iff] at hcan ⊢
  obtain ⟨hop, hdiff, src, dst, hsrc, hdst, -, hoperand⟩ := hcan
  have harg : arg < new.arity := (List.getElem?_eq_some_iff.mp hsrc).1
  have hvoid : dst ≠ .void := by
    rintro rfl
    have hnot := not_passesFreely_of_single hdiff hsrc hdst
    rw [Ty.passesFreely_void] at hnot
    cases hnot
  have hwrapper : (Ty.wrapper kind).passesFreely dst = false := by
    rcases Ty.of_passesFreely hoperand hvoid with ⟨p, q, -, rfl⟩ | ⟨href, -⟩
    · exact Ty.not_passesFreely_prim (Ty.isReference_wrapper kind) q
    · cases href
  refine ⟨hop, Signature.difference_withParam hdiff hdst hwrapper, .wrapper kind, dst,
    Signature.param?_withParam_self harg, hdst, ?_, hoperand⟩
  simp [Ty.casts]

theorem verified_unbox {arg : Nat} {type : Ty} (hh : hosts h) (ht : t.Verified hosts)
    (hok : h.unbox new t arg type = .ok r) : r.Verified hosts := by
  simp only [unbox] at hok
  split at hok
  · rename_i hcan
    split at hok
    · rename_i kind src hkind hsrc
      rw [canUnbox_iff hkind, ← canUnbox_iff (kindNamed?_prim kind)] at hcan
      split at hok
      · rename_i hpass
        cases hok
        exact verified_adapter hh ht ⟨hcan, rfl, src, hsrc, hpass⟩
      · -- A cast in front: the step behind it takes the wrapper class itself.
        apply verified_cast hh ?_ hok
        apply verified_adapter hh ht
        have harg : arg < new.arity := (List.getElem?_eq_some_iff.mp hsrc).1
        exact ⟨canUnbox_withParam hcan, rfl, .wrapper kind, Signature.param?_withParam_self harg,
          Ty.passesFreely_refl _⟩
    · cases hok
  · cases hok

theorem verified_drop {pos count : Nat} (hh : hosts h) (ht : t.Verified hosts)
    (hok : h.drop new t pos count = .ok r) : r.Verified hosts := by
  simp only [drop] at hok
  split at hok
  · exact verified_retype hh ht hok
  · rename_i hcount
    split at hok
    · rename_i hcan
      cases hok
      exact verified_adapter hh ht ⟨hcount, hcan, rfl⟩
    · cases hok

theorem verified_dup {pos count : Nat} (hh : hosts h) (ht : t.Verified hosts)
    (hok : h.dup new t pos count = .ok r) : r.Verified hosts := by
  simp only [dup] at hok
  split at hok
  · rename_i hcan
    split at hok
    · exact verified_retype hh ht hok
    · rename_i hcount
      cases hok
      exact verified_adapter hh ht ⟨hcount, hcan, rfl⟩
  · cases hok

theorem verified_swap {first second : Nat} (hh : hosts h) (ht : t.Verified hosts)
    (hok : h.swap new t first second = .ok r) : r.Verified hosts := by
  simp only [swap] at hok
  split at hok
  · exact verified_retype hh ht hok
  · split at hok
    · rename_i hcan
      split at hok
      · rename_i type htype
        cases hok
        exact verified_adapter hh ht ⟨hcan, ⟨type, htype, rfl⟩, rfl⟩
      · cases hok
    · cases hok

theorem verified_rotate {first count : Nat} {amount : Int} (hh : hosts h) (ht : t.Verified hosts)
    (hok : h.rotate new t first count amount = .ok r) : r.Verified hosts := by
  simp only [rotate] at hok
  split at hok
  · cases hok
  · split at hok
    · rename_i hcan
      have hcount : 2 < count := (canRotate_iff.mp hcan).2.1.1
      have hlt := rotationAmount_lt (show 0 < count by omega) amount
      have hcan' :
          h.canRotate new t.signature first count (rotationAmount count amount) = true := by
        rw [canRotate_iff] at hcan ⊢
        rwa [rotationAmount_of_lt hlt]
      split at hok
      · rename_i type hparam
        cases hok
        apply verified_adapter hh ht
        refine ⟨hlt, hcan', ⟨type, hparam, rfl⟩, ?_⟩
        split
        · exact .inl ⟨‹_›, rfl, rfl⟩
        · exact .inr ⟨‹_›, rfl, rfl⟩
      · cases hok
    · cases hok

/-- What can be spread can be spread from the array type itself. -/
theorem canSpread_withParam {u : Signature} {array : Ty} {pos count : Nat}
    (hcan : h.canSpread new u array pos count = true) :
    h.canSpread (new.withParam pos array) u array pos count = true := by
  rw [canSpread_iff] at hcan ⊢
  obtain ⟨hop, incoming, elem, hincoming, rfl, -, hpass⟩ := hcan
  have hpos : pos < new.arity := (List.getElem?_eq_some_iff.mp hincoming).1
  refine ⟨hop, .array elem, elem, Signature.param?_withParam_self hpos, rfl, .inl rfl,
    hpass.ret, ?_⟩
  have hparams := hpass.params
  simp only [Signature.params_withParams, Signature.params_withParam] at hparams ⊢
  rwa [List.take_set_of_le (Nat.le_refl pos), List.drop_set_of_lt (Nat.lt_succ_self pos)]

theorem verified_spread {array : Ty} {pos count : Nat} (hh : hosts h) (ht : t.Verified hosts)
    (hok : h.spread new t array pos count = .ok r) : r.Verified hosts := by
  simp only [spread] at hok
  split at hok
  · rename_i hcan
    split at hok
    · rename_i incoming hincoming
      split at hok
      · rename_i hpass
        cases hok
        exact verified_adapter hh ht ⟨hcan, rfl, incoming, hincoming, hpass⟩
      · -- A cast in front: the step behind it takes the array type itself.
        apply verified_cast hh ?_ hok
        apply verified_adapter hh ht
        have hpos : pos < new.arity := (List.getElem?_eq_some_iff.mp hincoming).1
        exact ⟨canSpread_withParam hcan, rfl, array, Signature.param?_withParam_self hpos,
          Ty.passesFreely_refl _⟩
    · cases hok
  · cases hok

end Elementary

/-! ## Planners -/

section Planners

variable {hosts : Host → Prop} {h : Host} {new mid : Signature} {t r : Handle}

theorem verified_shuffle {s : Shuffle} (hh : hosts h) (ht : t.Verified hosts)
    (hok : h.shuffle new t s = .ok r) : r.Verified hosts := by
  cases s with
  | drop pos count => exact verified_drop hh ht hok
  | dup pos count => exact verified_dup hh ht hok
  | swap first second => exact verified_swap hh ht hok
  | rotate first count amount => exact verified_rotate hh ht hok

theorem verified_shuffles {ss : List Shuffle} (hh : hosts h) (ht : t.Verified hosts)
    (hok : h.shuffles new ss t = .ok r) : r.Verified hosts := by
  induction ss generalizing new r with
  | nil =>
    cases hok
    exact ht
  | cons s ss ih =>
    rw [shuffles, bind_eq_ok_iff] at hok
    obtain ⟨inner, hinner, hok⟩ := hok
    exact verified_shuffle hh (ih hinner) hok

theorem ensure_eq_ok_iff : ensure new t = .ok r ↔ t.signature = new ∧ t = r := by
  rw [ensure]
  split <;> simp [*]

theorem verified_finish (hh : hosts h) (ht : t.Verified hosts) (hok : h.finish new t = .ok r) :
    r.Verified hosts := by
  simp only [finish] at hok
  split at hok
  all_goals
    obtain ⟨adapter, hadapter, hensure⟩ := bind_eq_ok_iff.mp hok
    obtain ⟨-, rfl⟩ := ensure_eq_ok_iff.mp hensure
  · cases hadapter
    exact ht
  · exact verified_retype hh ht hadapter

theorem verified_convertAt {i : Nat} {src dst : Ty} (hh : hosts h) (ht : t.Verified hosts)
    (hok : h.convertAt new t i src dst = .ok r) : r.Verified hosts := by
  simp only [convertAt] at hok
  split at hok
  · exact verified_primCast hh ht hok
  · cases hok
  · exact verified_unbox hh ht hok
  · exact verified_cast hh ht hok

theorem verified_adaptStep {last i : Nat} {mid' : Signature} (hh : hosts h) (ht : t.Verified hosts)
    (hok : h.adaptStep new last mid t i = .ok (mid', r)) : r.Verified hosts := by
  simp only [adaptStep] at hok
  split at hok
  · split at hok
    · cases hok
      exact ht
    · simp only [bind_eq_ok_iff] at hok
      obtain ⟨adapter, hadapter, handle, hensure, hpair⟩ := hok
      obtain ⟨-, rfl⟩ := ensure_eq_ok_iff.mp hensure
      cases hpair
      exact verified_convertAt hh ht hadapter
  · cases hok
    exact ht

theorem verified_adaptSteps {last : Nat} {positions : List Nat} (hh : hosts h)
    (ht : t.Verified hosts) (hok : h.adaptSteps new last positions mid t = .ok r) :
    r.Verified hosts := by
  induction positions generalizing mid t with
  | nil =>
    cases hok
    exact ht
  | cons i rest ih =>
    rw [adaptSteps, bind_eq_ok_iff] at hok
    obtain ⟨⟨mid', adapter⟩, hstep, hok⟩ := hok
    exact ih (verified_adaptStep hh ht hstep) hok

theorem verified_adapt (hh : hosts h) (ht : t.Verified hosts) (hok : h.adapt new t = .ok r) :
    r.Verified hosts := by
  simp only [adapt] at hok
  split at hok
  · cases hok
    exact ht
  · split at hok
    · cases hok
    · split at hok
      · obtain ⟨adapter, hadapter, hfinish⟩ := bind_eq_ok_iff.mp hok
        exact verified_finish hh (verified_adaptSteps hh ht hadapter) hfinish
      · exact verified_finish hh ht hok

theorem verified_rewire {map : List Nat} (hh : hosts h) (ht : t.Verified hosts)
    (hok : h.rewire new t map = .ok r) : r.Verified hosts := by
  rw [rewire, bind_eq_ok_iff] at hok
  obtain ⟨-, -, hok⟩ := hok
  split at hok
  · exact verified_adapt hh ht hok
  · rw [bind_eq_ok_iff] at hok
    obtain ⟨adapter, hadapter, hfinish⟩ := hok
    exact verified_finish hh (verified_shuffles hh ht hadapter) hfinish

/-- Whatever is asked for, what is built in front of a verified chain is verified. -/
theorem verified_build {request : Request} (hh : hosts h) (ht : t.Verified hosts)
    (hok : h.build new t request = .ok r) : r.Verified hosts := by
  cases request with
  | retype mode => exact verified_retype hh ht hok
  | adapt => exact verified_adapt hh ht hok
  | rewire map => exact verified_rewire hh ht hok
  | cast arg type => exact verified_cast hh ht hok
  | primCast arg type => exact verified_primCast hh ht hok
  | unbox arg type => exact verified_unbox hh ht hok
  | drop pos count => exact verified_drop hh ht hok
  | dup pos count => exact verified_dup hh ht hok
  | swap first second => exact verified_swap hh ht hok
  | rotate first count amount => exact verified_rotate hh ht hok
  | spread array pos count => exact verified_spread hh ht hok
  | box | collect | flyby | ricochet => cases hok

end Planners

end Host

/-! ## Collectors -/

/-- Whether a collector gathers into an array that its function takes, and keeps verified handles
    only. -/
structure Collector.Sound (hosts : Host → Prop) (c : Collector) : Prop where
  host : hosts c.host
  target : c.target.Verified hosts
  fits : ∃ elem last, c.array = .array elem ∧ c.target.signature.lastParam? = some last ∧
    c.array.passesFreely last = true
  built : ∀ entry ∈ c.built, entry.2.Verified hosts

namespace Collector

variable {hosts : Host → Prop} {h : Host} {t r : Handle} {array : Ty} {c d : Collector}

theorem sound_of_collector (hh : hosts h) (ht : t.Verified hosts)
    (hok : h.collector t array = .ok c) : c.Sound hosts := by
  simp only [Host.collector] at hok
  split at hok
  · rename_i hfits
    cases hok
    rw [Bool.and_eq_true] at hfits
    obtain ⟨elem, helem⟩ := Option.isSome_iff_exists.mp hfits.1
    obtain ⟨last, hlast, hpass⟩ := (Option.any_eq_true _ _).mp hfits.2
    exact ⟨hh, ht, ⟨elem, last, Ty.elem?_eq_some_iff.mp helem, hlast, hpass⟩, fun _ h => nomatch h⟩
  · cases hok

theorem Sound.retarget (hc : c.Sound hosts) (hok : c.retarget array = .ok d) : d.Sound hosts := by
  simp only [Collector.retarget] at hok
  split at hok
  · cases hok
    exact hc
  · exact sound_of_collector hc.host hc.target hok

/-- A collecting handle is verified if the array passes for the last parameter. -/
theorem verified_of_collecting? {count : Nat} {last : Ty} (ht : t.Verified hosts)
    (hlast : t.signature.lastParam? = some last) (hpass : array.passesFreely last = true)
    (hok : t.collecting? array count = some r) : r.Verified hosts := by
  simp only [Handle.collecting?] at hok
  split at hok
  · rename_i elem _ helem
    cases hok
    have hne : t.signature.params ≠ [] := by
      rintro hnil
      simp [Signature.lastParam?, hnil] at hlast
    have harity : t.signature.arity = t.signature.arity - 1 + 1 := by
      have hpos := List.length_pos_iff.mpr hne
      simp only [Signature.arity]
      omega
    refine ⟨⟨harity, ⟨elem, Ty.elem?_eq_some_iff.mp helem, ?_⟩, last, ?_, hpass⟩, ht⟩
    · rw [List.dropLast_eq_take]
      rfl
    · rw [← hlast, Signature.lastParam?, List.getLast?_eq_getElem?]
      rfl
  · cases hok

theorem mem_insertByArity {arity : Nat} {entries : List (Nat × Handle)} {entry : Nat × Handle}
    (hmem : entry ∈ insertByArity arity t entries) : entry = (arity, t) ∨ entry ∈ entries := by
  induction entries with
  | nil => exact .inl (by simpa [insertByArity] using hmem)
  | cons first rest ih =>
    simp only [insertByArity] at hmem
    split at hmem
    · simpa using hmem
    · split at hmem
      · rcases List.mem_cons.mp hmem with rfl | hmem
        · exact .inl rfl
        · exact .inr (List.mem_cons_of_mem _ hmem)
      · rcases List.mem_cons.mp hmem with rfl | hmem
        · exact .inr List.mem_cons_self
        · exact (ih hmem).imp_right (List.mem_cons_of_mem _)

/-- A collector stays sound, and what it gives out is verified. -/
theorem Sound.adapt (hc : c.Sound hosts) (new : Signature) :
    (∀ r, (c.adapt new).1 = .ok r → r.Verified hosts) ∧ (c.adapt new).2.Sound hosts := by
  simp only [Collector.adapt]
  split
  · exact ⟨fun r hok => Host.verified_adapt hc.host hc.target hok, hc⟩
  · split
    · rename_i handle hfind
      obtain ⟨entry, hentry, rfl⟩ := Option.map_eq_some_iff.mp hfind
      have hbuilt := hc.built entry (List.mem_of_find?_eq_some hentry)
      exact ⟨fun r hok => Host.verified_adapt hc.host hbuilt hok, hc⟩
    · split
      · exact ⟨fun r hok => (nomatch hok), hc⟩
      · split
        · rename_i handle hcollecting
          obtain ⟨elem, last, -, hlast, hpass⟩ := hc.fits
          have hhandle := verified_of_collecting? hc.target hlast hpass hcollecting
          refine ⟨fun r hok => Host.verified_adapt hc.host hhandle hok,
            ⟨hc.host, hc.target, hc.fits, fun entry hmem => ?_⟩⟩
          rcases mem_insertByArity hmem with rfl | hmem
          · exact hhandle
          · exact hc.built entry hmem
        · exact ⟨fun r hok => (nomatch hok), hc⟩

end Collector

/-! ## Reachable handles -/

mutual

/-- The handles that can be built, starting from host functions, by what the hosts offer. -/
inductive Handle.Reachable (hosts : Host → Prop) : Handle → Prop where
  | direct (name : String) (s : Signature) (body : HostFunction) :
      Handle.Reachable hosts (.direct name s body)
  | build {h : Host} {new : Signature} {t r : Handle} {request : Request} :
      hosts h → t.Reachable hosts → h.build new t request = .ok r → r.Reachable hosts
  | inner {t u : Handle} : t.Reachable hosts → t.target? = some u → u.Reachable hosts
  | adapt {c : Collector} {new : Signature} {r : Handle} :
      c.Reachable hosts → (c.adapt new).1 = .ok r → r.Reachable hosts

/-- The collectors that can be made over reachable handles, in any state of use. -/
inductive Collector.Reachable (hosts : Host → Prop) : Collector → Prop where
  | collector {h : Host} {t : Handle} {array : Ty} {c : Collector} :
      hosts h → t.Reachable hosts → h.collector t array = .ok c → c.Reachable hosts
  | adapt {c : Collector} (new : Signature) : c.Reachable hosts → (c.adapt new).2.Reachable hosts
  | retarget {c d : Collector} {array : Ty} :
      c.Reachable hosts → c.retarget array = .ok d → d.Reachable hosts

end

theorem Handle.Verified.target? {hosts : Host → Prop} {t u : Handle} (ht : t.Verified hosts)
    (htarget : t.target? = some u) : u.Verified hosts := by
  cases t with
  | direct => cases htarget
  | adapter | collect =>
    cases htarget
    exact ht.2

mutual

/-- Every chain that can be built is verified, node by node. -/
theorem Handle.Reachable.verified {hosts : Host → Prop} {t : Handle} :
    t.Reachable hosts → t.Verified hosts
  | .direct _ _ _ => trivial
  | .build hh ht hok => Host.verified_build hh ht.verified hok
  | .inner ht htarget => ht.verified.target? htarget
  | .adapt hc hok => (hc.sound.adapt _).1 _ hok

theorem Collector.Reachable.sound {hosts : Host → Prop} {c : Collector} :
    c.Reachable hosts → c.Sound hosts
  | .collector hh ht hok => Collector.sound_of_collector hh ht.verified hok
  | .adapt new hc => (hc.sound.adapt new).2
  | .retarget hc hok => hc.sound.retarget hok

end

/-! ## Nodes of a chain -/

/-- The host runs the operation of every step that it verifies. -/
theorem Host.Verifies.supports {h : Host} {s u : Signature} {step : Step}
    (hstep : h.Verifies s u step) : h.supports step.op = true := by
  cases step with
  | retype mode =>
    have hcan : h.canRetype s u mode = true := hstep
    rw [canRetype, Bool.and_eq_true] at hcan
    cases mode with
    | checked => exact hcan.1
    | raw => exact ((Bool.and_eq_true _ _).mp hcan.1).2
  | cast arg type =>
    have hcan : h.canCast s u arg type = true := hstep
    exact ((Bool.and_eq_true _ _).mp hcan).1
  | primCast arg source target => exact ((Bool.and_eq_true _ _).mp hstep.1).1
  | unbox arg target wrapper => exact ((canUnbox_iff (kindNamed?_prim target)).mp hstep.1).1
  | drop pos count slots => exact ((canDrop_iff hstep.1).mp hstep.2.1).1
  | dup pos count slots => exact ((canDup_iff hstep.1).mp hstep.2.1).1
  | swap first second tag destSlot => exact (canSwap_iff.mp hstep.1).1
  | rotate first count amount moved tag destSlot => exact (canRotate_iff.mp hstep.2.1).1
  | spread pos count array slots => exact (canSpread_iff.mp hstep.1).1

theorem Handle.mem_chain_self (h : Handle) : h ∈ h.chain := by
  cases h with
  | direct | adapter | collect => exact List.mem_cons_self

theorem Handle.mem_chain_target? {h node t : Handle} (hmem : node ∈ h.chain)
    (ht : node.target? = some t) : t ∈ h.chain := by
  induction h with
  | direct name s body =>
    rw [chain, List.mem_singleton] at hmem
    subst hmem
    cases ht
  | adapter s step inner ih =>
    rcases List.mem_cons.mp hmem with rfl | hmem
    · cases ht
      exact List.mem_cons_of_mem _ (mem_chain_self _)
    · exact List.mem_cons_of_mem _ (ih hmem)
  | collect s pos count array inner ih =>
    rcases List.mem_cons.mp hmem with rfl | hmem
    · cases ht
      exact List.mem_cons_of_mem _ (mem_chain_self _)
    · exact List.mem_cons_of_mem _ (ih hmem)

/-- Every handle of a verified chain starts a verified chain. -/
theorem Handle.Verified.of_mem_chain {hosts : Host → Prop} {t node : Handle}
    (ht : t.Verified hosts) (hmem : node ∈ t.chain) : node.Verified hosts := by
  induction t with
  | direct name s body =>
    rw [chain, List.mem_singleton] at hmem
    rw [hmem]
    exact ht
  | adapter s step inner ih =>
    rcases List.mem_cons.mp hmem with rfl | hmem
    · exact ht
    · exact ih ht.2 hmem
  | collect s pos count array inner ih =>
    rcases List.mem_cons.mp hmem with rfl | hmem
    · exact ht
    · exact ih ht.2 hmem

/-- In a chain of any make, every step is one that the host allows between the signature of its node
    and that of the next, by an operation that the host runs, and records what these signatures
    determine. A collecting node takes elements in place of the last parameter of the next node,
    which the array passes for. -/
theorem Handle.chain_verifiable (h : Host) (t : Handle) (ht : t.Reachable (· = h)) :
    (∀ s step u, adapter s step u ∈ t.chain →
      h.Verifies s u.signature step ∧ h.supports step.op = true) ∧
    (∀ s pos count array u, collect s pos count array u ∈ t.chain →
      s.Collects u.signature pos count array) := by
  have hverified := ht.verified
  constructor
  · intro s step u hmem
    obtain ⟨⟨host, rfl, hstep⟩, -⟩ := hverified.of_mem_chain hmem
    exact ⟨hstep, hstep.supports⟩
  · intro s pos count array u hmem
    exact (hverified.of_mem_chain hmem).1

/-- Two strings are gathered for a function that also takes a number, which is unboxed after a cast. -/
theorem Handle.chain_verifiable_collected :
    let f : Handle := .direct "f" ⟨[.prim .int, .array .object], .object⟩ (fun _ => .ok .null)
    let gathered : Handle :=
      .collect ⟨[.prim .int, .object, .object], .object⟩ 1 2 (.array .object) f
    let unboxed : Handle :=
      .adapter ⟨[.wrapper .int, .string, .string], .object⟩ (.unbox 0 .int (.wrapper .int)) gathered
    let r : Handle :=
      .adapter ⟨[.object, .string, .string], .object⟩ (.cast 0 (.wrapper .int)) unboxed
    r.Reachable (· = {}) ∧
      ({} : Host).Verifies unboxed.signature gathered.signature (.unbox 0 .int (.wrapper .int)) ∧
      gathered.signature.Collects f.signature 1 2 (.array .object) := by
  intro f gathered unboxed r
  let c : Collector := ⟨{}, f, .array .object, []⟩
  have hcollector : ({} : Host).collector f (.array .object) = .ok c := rfl
  have hadapt : (c.adapt ⟨[.object, .string, .string], .object⟩).1 = .ok r := by
    change ({} : Host).adapt ⟨[.object, .string, .string], .object⟩ gathered = .ok r
    rfl
  have hreachable : r.Reachable (· = {}) :=
    .adapt (.collector rfl (.direct _ _ _) hcollector) hadapt
  obtain ⟨hsteps, hcollects⟩ := chain_verifiable {} r hreachable
  refine ⟨hreachable, ?_, ?_⟩
  · exact (hsteps unboxed.signature _ gathered (by simp [r, unboxed, chain])).1
  · exact hcollects _ _ _ _ f (by simp [r, unboxed, gathered, chain])

end CallBridge
