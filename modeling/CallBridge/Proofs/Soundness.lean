import CallBridge.Proofs.Typing
import CallBridge.Proofs.Verified

/-!
# Type soundness of calls

A call with arguments of the declared types goes through typed states only. Each
step hands on values whose types pass trivially for the next parameters; bringing
the values in line then gives them the types of these parameters. Results come
back the same way, unless a raw retype lies on the way: it may let a caller
receive any reference as any other.
-/

namespace CallBridge

open Value (HasType)

/-! ## Values on their way into parameters -/

/-- Values of the types `srcs`, which pass trivially for the parameters `dsts`. -/
structure Value.PassInto (U : Universe) (mode : Mode) (values : List Value) (srcs dsts : List Ty) :
    Prop where
  types : List.Forall₂ (HasType U) values srcs
  pass : Ty.PassAll mode srcs dsts
  present : mode = .raw → .void ∉ srcs
  known : ∀ t ∈ srcs, t.isInterface = true → U.Has t

theorem Value.PassInto.conformAll {U : Universe} {mode : Mode} {values : List Value}
    {srcs dsts : List Ty} (h : PassInto U mode values srcs dsts) (hvoid : .void ∉ dsts)
    (raw : Bool) : List.Forall₂ (HasType U) (Value.conformAll values dsts raw) dsts :=
  hasTypes_conformAll h.types h.pass h.present hvoid h.known raw

/-! ## Typed lists -/

section Lists

variable {α β : Type} {R : α → β → Prop} {xs xs' : List α} {ys ys' : List β}

theorem forall₂_set (h : List.Forall₂ R xs ys) (i : Nat) {x : α} {y : β} (hxy : R x y) :
    List.Forall₂ R (xs.set i x) (ys.set i y) := by
  induction h generalizing i with
  | nil => exact .nil
  | cons hhead htail ih =>
    cases i with
    | zero => exact .cons hxy htail
    | succ i => exact .cons hhead (ih i)

/-- Shuffles keep lists in step with each other. -/
theorem forall₂_act? {s : Shuffle} (h : List.Forall₂ R xs ys) (hx : s.act? xs = some xs')
    (hy : s.act? ys = some ys') : List.Forall₂ R xs' ys' := by
  -- Both lists are read off one list of pairs.
  obtain ⟨hlen, hzip⟩ := List.forall₂_iff_zip.mp h
  rw [← List.map_fst_zip (Nat.le_of_eq hlen), Shuffle.act?_map, Option.map_eq_some_iff] at hx
  rw [← List.map_snd_zip (Nat.le_of_eq hlen.symm), Shuffle.act?_map] at hy
  obtain ⟨zs, hzs, rfl⟩ := hx
  rw [hzs] at hy
  cases hy
  rw [List.forall₂_map_left_iff, List.forall₂_map_right_iff, List.forall₂_same]
  exact fun z hz => hzip (Shuffle.mem_of_act? hzs hz)

end Lists

/-! ## Steps -/

section Steps

variable {U : Universe} {h : Host} {s u : Signature} {args out : List Value}

theorem Step.argAt_eq_ok_iff {i : Nat} {v : Value} :
    Step.argAt args i = .ok v ↔ args[i]? = some v := by
  rw [Step.argAt]
  split <;> simp [*]

theorem Value.isInstanceOf_of_checkCast {v : Value} {type : Ty} (h : v.checkCast type = .ok ()) :
    v.isInstanceOf type = true := by
  rw [Value.checkCast] at h
  split at h
  · assumption
  · cases h

/-- A value that a cast lets through has the type of the cast. -/
theorem Value.hasType_of_checkCast {v : Value} {type : Ty} (hv : v.WellFormed U)
    (htype : type.isReference = true) (hcast : v.checkCast type = .ok ()) : v.HasType U type := by
  have hinstance := Value.isInstanceOf_of_checkCast hcast
  have hfits : v = .null ∨ ∃ t, v.runtimeType? = some t ∧ type.accepts t = true := by
    cases v with
    | null => exact .inl rfl
    | void | prim => cases hinstance
    | str | boxed | array | object => exact .inr ⟨_, rfl, hinstance⟩
  refine ⟨hv, ?_⟩
  cases hiface : type.isInterface with
  | false => exact (Value.fits_iff_accepts htype hiface).mpr hfits
  | true =>
    rw [Value.fits_interface_iff hiface, Value.isReference_iff]
    exact hfits.imp_right fun ⟨t, ht, _⟩ => ⟨t, ht⟩

/-- One argument is replaced by a value that passes, the others pass as they are. -/
theorem Value.passInto_set {arg : Nat} {v : Value} {type : Ty}
    (hargs : List.Forall₂ (HasType U) args s.params) (hU : ∀ t ∈ s.params, U.Has t)
    (hv : v.HasType U type) (htype : type.isInterface = true → U.Has type)
    (hpass : (s.withParam arg type).Passes .checked u) :
    PassInto U .checked (args.set arg v) (s.params.set arg type) u.params where
  types := forall₂_set hargs arg hv
  pass := hpass.params
  present := fun hraw => nomatch hraw
  known := by
    intro t ht hiface
    rcases List.mem_or_eq_of_mem_set ht with ht | rfl
    · exact hU t ht
    · exact htype hiface

theorem Value.passInto_reorder {sh : Shuffle} (hargs : List.Forall₂ (HasType U) args s.params)
    (hU : ∀ t ∈ s.params, U.Has t) (hfeeds : sh.Feeds s u)
    (hrun : Step.reorder sh args = .ok out) :
    ∃ srcs, PassInto U .checked out srcs u.params := by
  obtain ⟨srcs, hsrcs, hpass⟩ := hfeeds
  have hact : sh.act? args = some out := by
    rw [Step.reorder] at hrun
    split at hrun
    · cases hrun
      assumption
    · cases hrun
  exact ⟨srcs, forall₂_act? hargs hact hsrcs, hpass.params, fun hraw => (nomatch hraw),
    fun t ht _ => hU t (Shuffle.mem_of_act? hsrcs ht)⟩

/-- The items of an array have the element type of every array type it is cast to. -/
theorem Value.hasType_of_spreadItems {v : Value} {elem : Ty} {count : Nat} {items : List Value}
    (hv : v.WellFormed U) (hitems : v.spreadItems (.array elem) count = .ok items) :
    items.length = count ∧ ∀ item ∈ items, item.HasType U elem := by
  cases v with
  | array type members =>
    simp only [Value.spreadItems, bind_eq_ok_iff] at hitems
    obtain ⟨⟨⟩, hcast, hlen⟩ := hitems
    split at hlen
    · cases hlen
      refine ⟨‹_›, fun item hitem => ?_⟩
      cases type with
      | array own =>
        have hitem := Value.holdsOnly_iff.mp hv.2 item hitem
        rcases Ty.array_accepts_array.mp (Value.isInstanceOf_of_checkCast hcast) with
          ⟨-, hown, haccepts⟩ | rfl
        · exact hitem.of_accepts hown (fun _ => U.of_array hv.1) haccepts
        · exact hitem
      | void | null | prim | object | cls | iface => exact absurd hv (by simp [Value.WellFormed])
    · cases hlen
  | void | null | prim | str | boxed | object => cases hitems

theorem Value.wellFormed_of_getElem? {types : List Ty} {i : Nat} {v : Value}
    (hargs : List.Forall₂ (HasType U) args types) (hv : args[i]? = some v) : v.WellFormed U := by
  obtain ⟨hi, rfl⟩ := List.getElem?_eq_some_iff.mp hv
  have hi' : i < types.length := hargs.length_eq ▸ hi
  exact (hargs.get hi hi').wellFormed

theorem Value.hasType_of_primCast {v w : Value} {kind : Prim} (h : v.primCast kind = .ok w) :
    w.HasType U (.prim kind) := by
  cases v with
  | prim d =>
    cases h
    exact ⟨trivial, _, rfl, Datum.kind_convert d kind⟩
  | void | null | str | boxed | array | object => cases h

theorem Value.hasType_of_unbox {v w : Value} {kind : Prim} {wrapper : Ty}
    (h : v.unbox kind wrapper = .ok w) : w.HasType U (.prim kind) := by
  cases v with
  | boxed d =>
    simp only [Value.unbox] at h
    split at h
    · cases h
      exact ⟨trivial, _, rfl, Datum.kind_convert d kind⟩
    · cases h
  | void | null | prim | str | array | object => cases h

theorem Value.passInto_cast {arg : Nat} {type : Ty} (hcan : h.canCast s u arg type = true)
    (hargs : List.Forall₂ (HasType U) args s.params) (hU : ∀ t ∈ s.params, U.Has t)
    (htype : U.Has type) (hrun : (Step.cast arg type).run args = .ok out) :
    PassInto U .checked out (s.params.set arg type) u.params := by
  rw [Host.canCast, Bool.and_eq_true] at hcan
  obtain ⟨-, src, dst, -, -, hcasts, -⟩ := Host.canConvertAt_iff.mp hcan.2
  rw [Ty.casts, Bool.and_eq_true] at hcasts
  simp only [Step.run, bind_eq_ok_iff] at hrun
  obtain ⟨v, hv, ⟨⟩, hcast, hout⟩ := hrun
  cases hout
  rw [Step.argAt_eq_ok_iff] at hv
  -- The argument stays, but is now known to have the type of the cast.
  have hset : args.set arg v = args := by
    obtain ⟨harg, rfl⟩ := List.getElem?_eq_some_iff.mp hv
    exact List.set_getElem_self harg
  rw [← hset]
  apply passInto_set hargs hU ?_ (fun _ => htype) (Host.passes_of_canConvertAt hcan.2)
  exact hasType_of_checkCast (wellFormed_of_getElem? hargs hv) hcasts.2 hcast

theorem Value.passInto_spread {pos count slots : Nat} {array : Ty}
    (hcan : h.canSpread s u array pos count = true)
    (hargs : List.Forall₂ (HasType U) args s.params) (hU : ∀ t ∈ s.params, U.Has t)
    (harray : U.Has array) (hrun : (Step.spread pos count array slots).run args = .ok out) :
    ∃ srcs, PassInto U .checked out srcs u.params := by
  obtain ⟨-, incoming, elem, -, rfl, -, hpass⟩ := Host.canSpread_iff.mp hcan
  simp only [Step.run, bind_eq_ok_iff] at hrun
  obtain ⟨v, hv, items, hitems, hout⟩ := hrun
  cases hout
  rw [Step.argAt_eq_ok_iff] at hv
  obtain ⟨hlen, htyped⟩ := hasType_of_spreadItems (wellFormed_of_getElem? hargs hv) hitems
  have hmiddle : List.Forall₂ (HasType U) items (List.replicate count elem) :=
    forall₂_replicate_right_iff.mpr ⟨hlen, htyped⟩
  refine ⟨_, ?_, hpass.params, fun hraw => (nomatch hraw), ?_⟩
  · rw [List.append_assoc]
    exact List.rel_append (List.forall₂_take pos hargs)
      (List.rel_append hmiddle (List.forall₂_drop (pos + 1) hargs))
  · intro t ht _
    simp only [Signature.params_withParams, List.mem_append] at ht
    rcases ht with ht | ht | ht
    · exact hU t (List.mem_of_mem_take ht)
    · rw [List.eq_of_mem_replicate ht]
      exact U.of_array harray
    · exact hU t (List.mem_of_mem_drop ht)

/-- What a verified step hands on passes for the parameters behind it. -/
theorem Host.Verifies.passInto {step : Step} (hstep : h.Verifies s u step)
    (hargs : List.Forall₂ (HasType U) args s.params) (hvoid : .void ∉ s.params)
    (hU : ∀ t ∈ s.params, U.Has t) (hwitness : ∀ t, step.witness? = some t → U.Has t)
    (hrun : step.run args = .ok out) :
    ∃ mode srcs, Value.PassInto U mode out srcs u.params := by
  cases step with
  | retype mode =>
    cases hrun
    have hcan : h.canRetype s u mode = true := hstep
    rw [canRetype, Bool.and_eq_true, beq_iff_eq, Signature.difference_eq_zero_iff] at hcan
    exact ⟨mode, s.params, hargs, hcan.2.params, fun _ => hvoid, fun t ht _ => hU t ht⟩
  | cast arg type =>
    exact ⟨_, _, Value.passInto_cast hstep hargs hU (hwitness type rfl) hrun⟩
  | primCast arg source target =>
    obtain ⟨hcan, -⟩ := hstep
    rw [canPrimCast, Bool.and_eq_true] at hcan
    simp only [Step.run, bind_eq_ok_iff] at hrun
    obtain ⟨v, -, w, hw, hout⟩ := hrun
    cases hout
    exact ⟨_, _, Value.passInto_set hargs hU (Value.hasType_of_primCast hw) (by rintro ⟨⟩)
      (passes_of_canConvertAt hcan.2)⟩
  | unbox arg target wrapper =>
    obtain ⟨hcan, -⟩ := hstep
    rw [canUnbox_iff (kindNamed?_prim target)] at hcan
    simp only [Step.run, bind_eq_ok_iff] at hrun
    obtain ⟨v, -, w, hw, hout⟩ := hrun
    cases hout
    exact ⟨_, _, Value.passInto_set hargs hU (Value.hasType_of_unbox hw) (by rintro ⟨⟩)
      (passes_of_canConvertAt hcan.2)⟩
  | drop pos count slots =>
    obtain ⟨hcount, hcan, -⟩ := hstep
    exact ⟨_, Value.passInto_reorder hargs hU ((canDrop_iff hcount).mp hcan).2.2 hrun⟩
  | dup pos count slots =>
    obtain ⟨hcount, hcan, -⟩ := hstep
    exact ⟨_, Value.passInto_reorder hargs hU ((canDup_iff hcount).mp hcan).2.2 hrun⟩
  | swap first second tag destSlot =>
    obtain ⟨hcan, -⟩ := hstep
    exact ⟨_, Value.passInto_reorder hargs hU (canSwap_iff.mp hcan).2.2 hrun⟩
  | rotate first count amount moved tag destSlot =>
    obtain ⟨hlt, hcan, -⟩ := hstep
    have hfeeds := (canRotate_iff.mp hcan).2.2
    rw [rotationAmount_of_lt hlt] at hfeeds
    exact ⟨_, Value.passInto_reorder hargs hU hfeeds hrun⟩
  | spread pos count array slots =>
    exact ⟨_, Value.passInto_spread hstep.1 hargs hU (hwitness array rfl) hrun⟩

/-- What a collecting node hands on passes for the parameters behind it. -/
theorem Signature.Collects.passInto {pos count : Nat} {array : Ty}
    (hnode : s.Collects u pos count array) (hargs : List.Forall₂ (HasType U) args s.params)
    (hU : ∀ t ∈ s.params, U.Has t) (harray : U.Has array)
    (hrun : Handle.gather pos array args = .ok out) :
    ∃ srcs, Value.PassInto U .checked out srcs u.params := by
  obtain ⟨harity, ⟨elem, rfl, rfl⟩, last, hlast, hpass⟩ := hnode
  rw [Handle.gather] at hrun
  split at hrun
  · cases hrun
    have hparams : u.params = u.params.take pos ++ [last] := by
      obtain ⟨hpos, rfl⟩ := List.getElem?_eq_some_iff.mp hlast
      rw [List.take_append_getElem]
      exact (List.take_of_length_le (Nat.le_of_eq harity)).symm
    have hfront : (u.params.take pos).length = pos := by
      have hlen : u.params.length = pos + 1 := harity
      rw [List.length_take]
      omega
    have htake := List.forall₂_take pos hargs
    have hdrop := List.forall₂_drop pos hargs
    rw [Signature.params_withParams, List.take_left' hfront] at htake
    rw [Signature.params_withParams, List.drop_left' hfront] at hdrop
    have hitems := (forall₂_replicate_right_iff.mp hdrop).2
    refine ⟨u.params.take pos ++ [.array elem], ?_, ?_, fun hraw => (nomatch hraw), ?_⟩
    · refine List.rel_append htake (.cons ⟨⟨harray, Value.holdsOnly_iff.mpr hitems⟩, ?_⟩ .nil)
      exact .inr ⟨_, rfl, Ty.accepts_self _⟩
    · rw [hparams, List.take_left' hfront]
      exact List.rel_append (Ty.passAll_refl _) (.cons (Ty.passing_checked_iff.mpr hpass) .nil)
    · intro t ht hiface
      rcases List.mem_append.mp ht with ht | ht
      · exact hU t (List.mem_append_left _ ht)
      · rw [List.mem_singleton.mp ht]
        exact harray
  · cases hrun

end Steps

/-! ## Calls -/

namespace Handle

/-- The types that a node names: those of its signature and the one its step works with. -/
def types : Handle → List Ty
  | direct _ s _ => s.ret :: s.params
  | adapter s step _ => s.ret :: s.params ++ step.witness?.toList
  | collect s _ _ array _ => s.ret :: s.params ++ [array]

/-- A chain over a universe, none of whose nodes takes a parameter without a value. -/
structure Within (U : Universe) (h : Handle) : Prop where
  types : ∀ node ∈ h.chain, ∀ t ∈ node.types, U.Has t
  values : ∀ node ∈ h.chain, .void ∉ node.signature.params

/-- A chain without raw retypes. -/
def RawFree (h : Handle) : Prop :=
  ∀ s t, adapter s (.retype .raw) t ∉ h.chain

theorem Within.params {U : Universe} {h : Handle} (hh : h.Within U) :
    ∀ t ∈ h.signature.params, U.Has t := by
  intro t ht
  apply hh.types h h.mem_chain_self
  cases h with
  | direct => exact List.mem_cons_of_mem _ ht
  | adapter | collect => exact List.mem_append_left _ (List.mem_cons_of_mem _ ht)

theorem Within.ret {U : Universe} {h : Handle} (hh : h.Within U) : U.Has h.signature.ret := by
  apply hh.types h h.mem_chain_self
  cases h with
  | direct => exact List.mem_cons_self
  | adapter | collect => exact List.mem_append_left _ List.mem_cons_self

theorem Within.target? {U : Universe} {h t : Handle} (hh : h.Within U) (ht : h.target? = some t) :
    t.Within U := by
  cases h with
  | direct => cases ht
  | adapter | collect =>
    cases ht
    exact ⟨fun node hnode => hh.types node (List.mem_cons_of_mem _ hnode),
      fun node hnode => hh.values node (List.mem_cons_of_mem _ hnode)⟩

theorem RawFree.target? {h t : Handle} (hh : h.RawFree) (ht : h.target? = some t) : t.RawFree := by
  cases h with
  | direct => cases ht
  | adapter | collect =>
    cases ht
    exact fun s u hmem => hh s u (List.mem_cons_of_mem _ hmem)

end Handle

namespace Call

variable {U : Universe} {hosts : Host → Prop} {c c' : Call}

/-- A call never leaves the chain. -/
theorem Reaches.mem_chain (h : Reaches c c') : c'.handle ∈ c.handle.chain := by
  induction h with
  | refl => exact Handle.mem_chain_self _
  | tail _ hmove ih =>
    cases hmove with
    | adapter => exact Handle.mem_chain_target? ih rfl
    | collect => exact Handle.mem_chain_target? ih rfl

/-- A state of a call in which the arguments have the types of the parameters. -/
structure Typed (U : Universe) (hosts : Host → Prop) (c : Call) : Prop where
  verified : c.handle.Verified hosts
  within : c.handle.Within U
  args : List.Forall₂ (HasType U) c.args c.handle.signature.params

/-- A call whose host function returns a value of its declared type, if it comes to be called and
    returns at all. -/
def HostReturns (U : Universe) (c : Call) : Prop :=
  ∀ name s body args pending v, Reaches c ⟨.direct name s body, args, pending⟩ →
    body args = .ok v → v.HasType U s.ret

theorem HostReturns.moves (hc : c.HostReturns U) (hmove : Moves c c') : c'.HostReturns U := by
  intro name s body args pending v hreach hv
  exact hc name s body args pending v (.head hmove hreach) hv

/-- One hand-over leads from typed states to typed states. -/
theorem Typed.moves (hc : c.Typed U hosts) (hmove : Moves c c') : c'.Typed U hosts := by
  cases hmove with
  | @adapter s step target args out pending hrun =>
    obtain ⟨⟨⟨h, -, hstep⟩, hverified⟩, hwithin, hargs⟩ := hc
    have htarget := hwithin.target? rfl
    have hwitness : ∀ t, step.witness? = some t → U.Has t := by
      intro t ht
      apply hwithin.types _ (Handle.mem_chain_self _)
      exact List.mem_append_right _ (by simp [ht])
    obtain ⟨mode, srcs, hpass⟩ := hstep.passInto hargs
      (hwithin.values _ (Handle.mem_chain_self _)) hwithin.params hwitness hrun
    exact ⟨hverified, htarget, hpass.conformAll (htarget.values _ (Handle.mem_chain_self _)) _⟩
  | @collect s pos count array target args out pending hgather =>
    obtain ⟨⟨hnode, hverified⟩, hwithin, hargs⟩ := hc
    have htarget := hwithin.target? rfl
    have harray : U.Has array := by
      apply hwithin.types _ (Handle.mem_chain_self _)
      exact List.mem_append_right _ List.mem_cons_self
    obtain ⟨srcs, hpass⟩ := hnode.passInto hargs hwithin.params harray hgather
    exact ⟨hverified, htarget, hpass.conformAll (htarget.values _ (Handle.mem_chain_self _)) _⟩

/-- A call that starts typed stays typed. -/
theorem Typed.reaches (hc : c.Typed U hosts) (hreach : Reaches c c') : c'.Typed U hosts := by
  induction hreach with
  | refl => exact hc
  | tail _ hmove ih => exact ih.moves hmove

end Call

/-! ## Results -/

/-- The result of the next handle passes freely through every step that is not raw. -/
theorem Host.Verifies.passesFreely_ret {h : Host} {s u : Signature} {step : Step}
    (hstep : h.Verifies s u step) (hraw : step.isRaw = false) :
    u.ret.passesFreely s.ret = true := by
  obtain ⟨params, hpass⟩ : ∃ params, (s.withParams params).Passes .checked u := by
    cases step with
    | retype mode =>
      have hcan : h.canRetype s u mode = true := hstep
      rw [canRetype, Bool.and_eq_true, beq_iff_eq, Signature.difference_eq_zero_iff] at hcan
      cases mode with
      | checked => exact ⟨s.params, hcan.2⟩
      | raw => cases hraw
    | cast arg type =>
      have hcan : h.canCast s u arg type = true := hstep
      rw [canCast, Bool.and_eq_true] at hcan
      exact ⟨_, passes_of_canConvertAt hcan.2⟩
    | primCast arg source target =>
      have hcan := hstep.1
      rw [canPrimCast, Bool.and_eq_true] at hcan
      exact ⟨_, passes_of_canConvertAt hcan.2⟩
    | unbox arg target wrapper =>
      have hcan := (canUnbox_iff (kindNamed?_prim target)).mp hstep.1
      exact ⟨_, passes_of_canConvertAt hcan.2⟩
    | drop pos count slots =>
      obtain ⟨params, -, hpass⟩ := ((canDrop_iff hstep.1).mp hstep.2.1).2.2
      exact ⟨params, hpass⟩
    | dup pos count slots =>
      obtain ⟨params, -, hpass⟩ := ((canDup_iff hstep.1).mp hstep.2.1).2.2
      exact ⟨params, hpass⟩
    | swap first second tag destSlot =>
      obtain ⟨params, -, hpass⟩ := (canSwap_iff.mp hstep.1).2.2
      exact ⟨params, hpass⟩
    | rotate first count amount moved tag destSlot =>
      obtain ⟨params, -, hpass⟩ := (canRotate_iff.mp hstep.2.1).2.2
      exact ⟨params, hpass⟩
    | spread pos count array slots =>
      obtain ⟨-, incoming, elem, -, -, -, hpass⟩ := canSpread_iff.mp hstep.1
      exact ⟨_, hpass⟩
  exact Signature.returnsMatch_checked_iff.mp hpass.ret

theorem Step.isRaw_eq_false {step : Step} (h : step ≠ .retype .raw) : step.isRaw = false := by
  cases step with
  | retype mode =>
    cases mode with
    | checked => rfl
    | raw => exact absurd rfl h
  | cast | primCast | unbox | drop | dup | swap | rotate | spread => rfl

/-- Where no step is raw and the host function keeps to its declared return type, so does every
    handle in front of it. -/
theorem Call.Typed.result {U : Universe} {hosts : Host → Prop} {h : Handle} {args : List Value}
    {pending : List Handle.Return} {v : Value} (hc : Call.Typed U hosts ⟨h, args, pending⟩)
    (hraw : h.RawFree) (hhost : Call.HostReturns U ⟨h, args, pending⟩)
    (hrun : h.run args [] = .ok v) : v.HasType U h.signature.ret := by
  induction h generalizing args pending v with
  | direct name s body =>
    obtain ⟨w, hw, hv⟩ := bind_eq_ok_iff.mp hrun
    cases hv
    exact hhost name s body args pending w .refl hw
  | adapter s step t ih =>
    obtain ⟨out, hout, hrun⟩ := bind_eq_ok_iff.mp hrun
    obtain ⟨w, hw, rfl⟩ := Handle.exists_of_run_eq_ok hrun
    have hmove : Call.Moves ⟨.adapter s step t, args, pending⟩ _ := .adapter hout
    have htyped := ih (hc.moves hmove) (hraw.target? rfl) (hhost.moves hmove) hw
    have hnotRaw : step.isRaw = false := by
      apply Step.isRaw_eq_false
      rintro rfl
      exact hraw s t (Handle.mem_chain_self _)
    obtain ⟨⟨h, -, hstep⟩, -⟩ := hc.verified
    rw [hnotRaw]
    exact htyped.coerce (hstep.passesFreely_ret hnotRaw) fun _ => (hc.within.target? rfl).ret
  | collect s pos count array t ih =>
    obtain ⟨out, hout, hrun⟩ := bind_eq_ok_iff.mp hrun
    obtain ⟨w, hw, rfl⟩ := Handle.exists_of_run_eq_ok hrun
    have hmove : Call.Moves ⟨.collect s pos count array t, args, pending⟩ _ := .collect hout
    have htyped := ih (hc.moves hmove) (hraw.target? rfl) (hhost.moves hmove) hw
    obtain ⟨⟨-, ⟨elem, -, hsig⟩, -⟩, -⟩ := hc.verified
    have hret : t.signature.ret.passesFreely s.ret = true := by
      rw [hsig]
      exact Ty.passesFreely_refl _
    exact htyped.coerce hret fun _ => (hc.within.target? rfl).ret

/-! ## Soundness -/

/-- A chain of any make, called with arguments of the declared types, hands every node and the host
    function on the way to its result arguments of exactly their parameter types. If no step is raw
    and the host function keeps to its return type, a result has the return type of the handle that
    was called. -/
theorem Handle.invoke_type_sound (U : Universe) (hosts : Host → Prop) (h : Handle)
    (args : List Value) (hreachable : h.Reachable hosts) (hwithin : h.Within U)
    (hargs : List.Forall₂ (HasType U) args h.signature.params) :
    (∀ c, Call.Reaches (.start h args) c → h.invoke args = c.run ∧
      List.Forall₂ (HasType U) c.args c.handle.signature.params) ∧
    (h.RawFree → (Call.start h args).HostReturns U →
      ∀ v, h.invoke args = .ok v → v.HasType U h.signature.ret) := by
  have hstart : (Call.start h args).Typed U hosts := ⟨hreachable.verified, hwithin, hargs⟩
  have hinvoke := invoke_eq_run hargs.length_eq
  constructor
  · intro c hreach
    exact ⟨hinvoke.trans hreach.run_eq, (hstart.reaches hreach).args⟩
  · intro hraw hhost v hv
    exact hstart.result hraw hhost (hinvoke.symm.trans hv)

/-- An array is spread over a boxed number, which is cast and unboxed, and over an interface. -/
theorem Handle.invoke_type_sound_spread :
    let runnable : Ty := .iface "Runnable" [.object]
    let U := Universe.ofList
      [.object, .string, .wrapper .int, .prim .int, runnable, .array .object] (by decide)
    let f : Handle :=
      .direct "f" ⟨[.prim .int, runnable], .string⟩ (HostFunction.const (.str "done"))
    let args : List Value := [.array (.array .object) [.boxed (.int 7), .str "task"]]
    ∃ mid r : Handle,
      ({} : Host).build ⟨[.object, runnable], .object⟩ f .adapt = .ok mid ∧
      ({} : Host).build ⟨[.array .object], .object⟩ mid (.spread (.array .object) 0 2) = .ok r ∧
      r.Reachable (fun _ => True) ∧ r.Within U ∧
      List.Forall₂ (HasType U) args r.signature.params ∧
      (∀ c, Call.Reaches (.start r args) c → r.invoke args = c.run ∧
        List.Forall₂ (HasType U) c.args c.handle.signature.params) ∧
      r.invoke args = .ok (.str "done") ∧ (Value.str "done").HasType U r.signature.ret := by
  intro runnable U f args
  let mid : Handle := .adapter ⟨[.object, runnable], .object⟩ (.cast 0 (.wrapper .int))
    (.adapter ⟨[.wrapper .int, runnable], .object⟩ (.unbox 0 .int (.wrapper .int)) f)
  let r : Handle := .adapter ⟨[.array .object], .object⟩ (.spread 0 2 (.array .object) 2) mid
  have hmid : ({} : Host).build ⟨[.object, runnable], .object⟩ f .adapt = .ok mid := rfl
  have hr : ({} : Host).build ⟨[.array .object], .object⟩ mid (.spread (.array .object) 0 2) =
    .ok r := rfl
  have hreachable : r.Reachable fun _ => True :=
    .build trivial (.build trivial (.direct _ _ _) hmid) hr
  have hwithin : r.Within U := ⟨by decide, by decide⟩
  have hargs : List.Forall₂ (HasType U) args r.signature.params := by
    refine .cons ⟨⟨by decide, Value.holdsOnly_iff.mpr ?_⟩, .inr ⟨_, rfl, by decide⟩⟩ .nil
    simp only [List.forall_mem_cons, List.not_mem_nil, false_implies, implies_true, and_true]
    exact ⟨⟨trivial, .inr ⟨_, rfl, by decide⟩⟩, ⟨trivial, .inr ⟨_, rfl, by decide⟩⟩⟩
  obtain ⟨hcalls, hresult⟩ := invoke_type_sound U _ r args hreachable hwithin hargs
  refine ⟨mid, r, hmid, hr, hreachable, hwithin, hargs, hcalls, rfl, hresult ?_ ?_ _ rfl⟩
  · intro s t hmem
    simp [r, mid, f, chain] at hmem
  · intro name s body final pending v hreach hv
    have hmem : Handle.direct name s body ∈ r.chain := hreach.mem_chain
    obtain ⟨-, rfl, rfl⟩ : name = "f" ∧ s = _ ∧ body = _ := by
      simpa [r, mid, f, chain] using hmem
    cases hv
    exact ⟨trivial, .inr ⟨_, rfl, by decide⟩⟩

end CallBridge
