import CallBridge.Proofs.Verified

/-!
# Outcomes of requests

Every way of asking for a handle has one of two outcomes: a refusal, or a handle
of the very signature asked for that ends in the chain it was built on. Planners
check their own work after each step; that check never fails, whichever
operations the host runs and whichever inner step is refused.
-/

namespace CallBridge

/-! ## Chains built on one another -/

namespace Handle

variable {r t u : Handle}

/-- Whether `r` is `t` behind zero or more nodes that forward the call. -/
def Fronts (r t : Handle) : Prop :=
  ∃ nodes : List Handle, (∀ node ∈ nodes, node.isAdapter = true) ∧ r.chain = nodes ++ t.chain

/-- Whether `r` calls `t` with the signature `new`. -/
structure Serves (r : Handle) (new : Signature) (t : Handle) : Prop where
  signature : r.signature = new
  fronts : r.Fronts t

theorem fronts_refl (t : Handle) : t.Fronts t :=
  ⟨[], by simp, rfl⟩

theorem Fronts.trans (hr : r.Fronts t) (ht : t.Fronts u) : r.Fronts u := by
  obtain ⟨nodes, hnodes, hrchain⟩ := hr
  obtain ⟨others, hothers, htchain⟩ := ht
  refine ⟨nodes ++ others, ?_, ?_⟩
  · intro node hmem
    rcases List.mem_append.mp hmem with hmem | hmem
    · exact hnodes node hmem
    · exact hothers node hmem
  · rw [hrchain, htchain, List.append_assoc]

theorem fronts_adapter (s : Signature) (step : Step) (t : Handle) : (adapter s step t).Fronts t :=
  ⟨[adapter s step t], by simp [isAdapter], rfl⟩

theorem fronts_collect (s : Signature) (pos count : Nat) (array : Ty) (t : Handle) :
    (collect s pos count array t).Fronts t :=
  ⟨[collect s pos count array t], by simp [isAdapter], rfl⟩

theorem serves_adapter (new : Signature) (step : Step) (t : Handle) :
    (adapter new step t).Serves new t :=
  ⟨rfl, fronts_adapter new step t⟩

theorem Serves.trans {new : Signature} (hr : r.Serves new t) (ht : t.Fronts u) : r.Serves new u :=
  ⟨hr.signature, hr.fronts.trans ht⟩

end Handle

/-! ## Results or clean refusals -/

/-- Whether a construction gives something with property `P`, or a refusal other than that its own
    outcome is inconsistent. -/
structure Yields {α : Type} (P : α → Prop) (x : Except AdaptError α) : Prop where
  result : ∀ a, x = .ok a → P a
  consistent : ∀ expected found, x ≠ .error (.inconsistent expected found)

namespace Yields

variable {α β : Type} {P Q : α → Prop} {R : β → Prop}

theorem ok {a : α} (h : P a) : Yields P (.ok a) where
  result := by
    intro b hb
    cases hb
    exact h
  consistent := by
    rintro expected found ⟨⟩

theorem error {e : AdaptError} (h : ∀ expected found, e ≠ .inconsistent expected found) :
    Yields P (.error e) where
  result := by
    rintro a ⟨⟩
  consistent := by
    intro expected found heq
    cases heq
    exact h expected found rfl

theorem notConvertible (source wanted : Signature) :
    Yields P (.error (.notConvertible source wanted)) := by
  apply error
  rintro expected found ⟨⟩

theorem unsupported (what : Unsupported) : Yields P (.error (.unsupported what)) := by
  apply error
  rintro expected found ⟨⟩

theorem mono {x : Except AdaptError α} (hx : Yields P x) (h : ∀ a, P a → Q a) : Yields Q x where
  result a ha := h a (hx.result a ha)
  consistent := hx.consistent

theorem bind {x : Except AdaptError α} {f : α → Except AdaptError β} (hx : Yields P x)
    (hf : ∀ a, P a → Yields R (f a)) : Yields R (x >>= f) := by
  cases hxe : x with
  | error e =>
    apply error
    rintro expected found rfl
    exact hx.consistent expected found hxe
  | ok a => exact hf a (hx.result a hxe)

end Yields

/-! ## Elementary constructors -/

namespace Host

section Elementary

variable (h : Host) (new : Signature) (t : Handle)

theorem yields_retype (mode : Mode) : Yields (·.Serves new t) (h.retype new t mode) := by
  unfold retype
  split
  · rename_i hsame
    exact .ok ⟨hsame, t.fronts_refl⟩
  · split
    · exact .ok (Handle.serves_adapter new _ t)
    · exact .notConvertible _ _

theorem yields_cast (arg : Nat) (type : Ty) : Yields (·.Serves new t) (h.cast new t arg type) := by
  unfold cast
  split
  · exact .ok (Handle.serves_adapter new _ t)
  · exact .notConvertible _ _

theorem yields_primCast (arg : Nat) (type : Ty) :
    Yields (·.Serves new t) (h.primCast new t arg type) := by
  unfold primCast
  split
  · split
    · exact .ok (Handle.serves_adapter new _ t)
    · exact .notConvertible _ _
  · exact .notConvertible _ _

/-- A cast over a step of its own making still ends in the chain of the target. -/
theorem yields_cast_over (s : Signature) (step : Step) (arg : Nat) (type : Ty) :
    Yields (·.Serves new t) (h.cast new (.adapter s step t) arg type) := by
  apply (h.yields_cast new _ arg type).mono
  intro r hr
  exact hr.trans (Handle.fronts_adapter s step t)

theorem yields_unbox (arg : Nat) (type : Ty) :
    Yields (·.Serves new t) (h.unbox new t arg type) := by
  unfold unbox
  split
  · split
    · dsimp only
      split
      · exact .ok (Handle.serves_adapter new _ t)
      · exact h.yields_cast_over new t _ _ arg _
    · exact .notConvertible _ _
  · exact .notConvertible _ _

theorem yields_drop (pos count : Nat) : Yields (·.Serves new t) (h.drop new t pos count) := by
  unfold drop
  split
  · exact h.yields_retype new t .checked
  · split
    · exact .ok (Handle.serves_adapter new _ t)
    · exact .notConvertible _ _

theorem yields_dup (pos count : Nat) : Yields (·.Serves new t) (h.dup new t pos count) := by
  unfold dup
  split
  · split
    · exact h.yields_retype new t .checked
    · exact .ok (Handle.serves_adapter new _ t)
  · exact .notConvertible _ _

theorem yields_swap (first second : Nat) :
    Yields (·.Serves new t) (h.swap new t first second) := by
  unfold swap
  split
  · exact h.yields_retype new t .checked
  · dsimp only
    split
    · split
      · exact .ok (Handle.serves_adapter new _ t)
      · exact .notConvertible _ _
    · exact .notConvertible _ _

theorem yields_rotate (first count : Nat) (amount : Int) :
    Yields (·.Serves new t) (h.rotate new t first count amount) := by
  unfold rotate
  dsimp only
  split
  · exact .unsupported _
  · split
    · split
      · exact .ok (Handle.serves_adapter new _ t)
      · exact .notConvertible _ _
    · exact .notConvertible _ _

theorem yields_spread (array : Ty) (pos count : Nat) :
    Yields (·.Serves new t) (h.spread new t array pos count) := by
  unfold spread
  split
  · split
    · dsimp only
      split
      · exact .ok (Handle.serves_adapter new _ t)
      · exact h.yields_cast_over new t _ _ pos array
    · exact .notConvertible _ _
  · exact .notConvertible _ _

theorem yields_shuffle (s : Shuffle) : Yields (·.Serves new t) (h.shuffle new t s) := by
  cases s with
  | drop pos count => exact h.yields_drop new t pos count
  | dup pos count => exact h.yields_dup new t pos count
  | swap first second => exact h.yields_swap new t first second
  | rotate first count amount => exact h.yields_rotate new t first count amount

theorem yields_convertAt (i : Nat) (src dst : Ty) :
    Yields (·.Serves new t) (h.convertAt new t i src dst) := by
  unfold convertAt
  split
  · exact h.yields_primCast new t i dst
  · exact .unsupported _
  · exact h.yields_unbox new t i dst
  · exact h.yields_cast new t i dst

end Elementary

/-! ## Planners -/

section Planners

variable (h : Host) {new : Signature} {t adapter : Handle}

theorem ensure_of_serves (ht : adapter.Serves new t) : ensure new adapter = .ok adapter :=
  if_pos ht.signature

theorem yields_shuffles (new : Signature) (ss : List Shuffle) (t : Handle) :
    Yields (·.Fronts t) (h.shuffles new ss t) := by
  induction ss generalizing new with
  | nil => exact .ok t.fronts_refl
  | cons s ss ih =>
    rw [shuffles]
    apply (ih _).bind
    intro inner hinner
    apply (h.yields_shuffle new inner s).mono
    intro r hr
    exact hr.fronts.trans hinner

/-- The last check of a planner is met: the handle has the signature or is given it. -/
theorem yields_finish (new : Signature) (hadapter : adapter.Fronts t) :
    Yields (·.Serves new t) (h.finish new adapter) := by
  have hensure : ∀ r : Handle, r.Serves new t → Yields (·.Serves new t) (ensure new r) := by
    intro r hr
    rw [ensure_of_serves hr]
    exact .ok hr
  unfold finish
  dsimp only
  split
  · rename_i hsame
    exact hensure adapter ⟨hsame, hadapter⟩
  · apply (h.yields_retype new adapter .checked).bind
    intro r hr
    exact hensure r (hr.trans hadapter)

/-- The check after a conversion is met: the step has the signature between it and the next. -/
theorem yields_adaptStep (new : Signature) (last : Nat) (mid : Signature) (i : Nat)
    (hadapter : adapter.Fronts t) :
    Yields (fun out => out.2.Fronts t) (h.adaptStep new last mid adapter i) := by
  unfold adaptStep
  split
  · split
    · exact .ok hadapter
    · apply (h.yields_convertAt _ adapter i _ _).bind
      intro r hr
      rw [ensure_of_serves hr]
      exact .ok (hr.fronts.trans hadapter)
  · exact .ok hadapter

theorem yields_adaptSteps (new : Signature) (last : Nat) (positions : List Nat) (mid : Signature)
    (hadapter : adapter.Fronts t) :
    Yields (·.Fronts t) (h.adaptSteps new last positions mid adapter) := by
  induction positions generalizing mid adapter with
  | nil => exact .ok hadapter
  | cons i rest ih =>
    rw [adaptSteps]
    apply (h.yields_adaptStep new last mid i hadapter).bind
    intro out hout
    exact ih out.1 hout

theorem yields_adapt (new : Signature) (t : Handle) : Yields (·.Serves new t) (h.adapt new t) := by
  unfold adapt
  dsimp only
  split
  · rename_i hsame
    exact .ok ⟨hsame, t.fronts_refl⟩
  · split
    · exact .notConvertible _ _
    · split
      · apply (h.yields_adaptSteps new _ _ _ t.fronts_refl).bind
        intro r hr
        exact h.yields_finish new hr
      · exact h.yields_finish new t.fronts_refl

theorem yields_checkMap (new target : Signature) (map : List Nat) :
    Yields (fun _ => True) (new.checkMap target map) := by
  unfold Signature.checkMap
  split
  · apply Yields.error
    rintro expected found ⟨⟩
  · split
    · apply Yields.error
      rintro expected found ⟨⟩
    · split
      · exact .ok trivial
      · exact .notConvertible _ _

theorem yields_rewire (new : Signature) (t : Handle) (map : List Nat) :
    Yields (·.Serves new t) (h.rewire new t map) := by
  unfold rewire
  apply (yields_checkMap new t.signature map).bind
  intro _ _
  split
  · exact h.yields_adapt new t
  · apply (h.yields_shuffles new _ t).bind
    intro r hr
    exact h.yields_finish new hr

theorem yields_build (new : Signature) (t : Handle) (request : Request) :
    Yields (·.Serves new t) (h.build new t request) := by
  cases request with
  | retype mode => exact h.yields_retype new t mode
  | adapt => exact h.yields_adapt new t
  | rewire map => exact h.yields_rewire new t map
  | cast arg type => exact h.yields_cast new t arg type
  | primCast arg type => exact h.yields_primCast new t arg type
  | unbox arg type => exact h.yields_unbox new t arg type
  | drop pos count => exact h.yields_drop new t pos count
  | dup pos count => exact h.yields_dup new t pos count
  | swap first second => exact h.yields_swap new t first second
  | rotate first count amount => exact h.yields_rotate new t first count amount
  | spread array pos count => exact h.yields_spread new t array pos count
  | box | collect | flyby | ricochet => exact .unsupported _

end Planners

end Host

/-! ## Collectors -/

namespace Collector

variable {hosts : Host → Prop} {c d : Collector}

/-- Whether every collecting handle that is kept forwards to the function of the collector. -/
def KeepsTarget (c : Collector) : Prop :=
  ∀ entry ∈ c.built, entry.2.Fronts c.target

theorem keepsTarget_of_collector {h : Host} {t : Handle} {array : Ty}
    (hok : h.collector t array = .ok c) : c.KeepsTarget := by
  unfold Host.collector at hok
  dsimp only at hok
  split at hok
  · cases hok
    intro entry hmem
    cases hmem
  · cases hok

theorem KeepsTarget.retarget {array : Ty} (hc : c.KeepsTarget) (hok : c.retarget array = .ok d) :
    d.KeepsTarget := by
  unfold Collector.retarget at hok
  split at hok
  · cases hok
    exact hc
  · exact keepsTarget_of_collector hok

theorem fronts_of_collecting? {t r : Handle} {array : Ty} {count : Nat}
    (hok : t.collecting? array count = some r) : r.Fronts t := by
  unfold Handle.collecting? at hok
  dsimp only at hok
  split at hok
  · cases hok
    exact Handle.fronts_collect _ _ _ _ t
  · cases hok

/-- What a collector gives out forwards to its function, and so does what it keeps. -/
theorem KeepsTarget.adapt (hc : c.KeepsTarget) (new : Signature) :
    Yields (·.Serves new c.target) (c.adapt new).1 ∧ (c.adapt new).2.KeepsTarget := by
  have hover : ∀ handle : Handle, handle.Fronts c.target →
      Yields (·.Serves new c.target) (c.host.adapt new handle) := by
    intro handle hhandle
    apply (c.host.yields_adapt new handle).mono
    intro r hr
    exact hr.trans hhandle
  unfold Collector.adapt
  split
  · exact ⟨hover c.target c.target.fronts_refl, hc⟩
  · split
    · rename_i handle hfind
      obtain ⟨entry, hentry, rfl⟩ := Option.map_eq_some_iff.mp hfind
      exact ⟨hover entry.2 (hc entry (List.mem_of_find?_eq_some hentry)), hc⟩
    · split
      · exact ⟨.notConvertible _ _, hc⟩
      · split
        · rename_i handle hcollecting
          have hhandle := fronts_of_collecting? hcollecting
          refine ⟨hover handle hhandle, ?_⟩
          intro entry hmem
          rcases mem_insertByArity hmem with rfl | hmem
          · exact hhandle
          · exact hc entry hmem
        · exact ⟨.notConvertible _ _, hc⟩

theorem Reachable.keepsTarget (hc : c.Reachable hosts) : c.KeepsTarget := by
  -- The induction is on the collector alone: nothing is needed about the handles it comes from.
  refine @Collector.Reachable.rec hosts (fun _ _ => True) (fun c _ => c.KeepsTarget)
    ?direct ?build ?inner ?given ?collector ?adapt ?retarget c hc
  case direct | build | inner | given => intros; trivial
  case collector =>
    intro h t array c _ _ hok _
    exact keepsTarget_of_collector hok
  case adapt =>
    intro c new _ hkeeps
    exact (hkeeps.adapt new).2
  case retarget =>
    intro c d array _ hok hkeeps
    exact hkeeps.retarget hok

end Collector

/-! ## Requested signatures -/

/-- Whatever is asked of a host that runs any operations at all, of any handle, the outcome is a
    refusal or a handle of exactly the signature asked for, whose chain is the chain of the target
    behind zero or more new nodes; the same holds for what a collector in any state of use gives
    out. No refusal says that the outcome is inconsistent. -/
theorem Host.serves_or_refuses (hosts : Host → Prop) :
    (∀ (h : Host) (new : Signature) (t : Handle) (request : Request),
      Yields (·.Serves new t) (h.build new t request)) ∧
    (∀ c : Collector, c.Reachable hosts → ∀ new : Signature,
      Yields (·.Serves new c.target) (c.adapt new).1) := by
  constructor
  · intro h new t request
    exact h.yields_build new t request
  · intro c hc new
    exact (hc.keepsTarget.adapt new).1

/-- A collecting handle that was kept after a refusal serves the next caller of the same arity. -/
theorem Host.serves_or_refuses_kept :
    let f : Handle := .direct "f" ⟨[.prim .int, .array .object], .object⟩ (fun _ => .ok .null)
    let c : Collector := ⟨{}, f, .array .object, []⟩
    let refused : Signature := ⟨[.prim .float, .object, .object], .object⟩
    let new : Signature := ⟨[.prim .int, .string, .string], .object⟩
    let gathered : Handle :=
      .collect ⟨[.prim .int, .object, .object], .object⟩ 1 2 (.array .object) f
    let r : Handle := .adapter new (.retype .checked) gathered
    (c.adapt refused).1 = .error (.notConvertible gathered.signature refused) ∧
      (c.adapt refused).2.Reachable (· = {}) ∧ ((c.adapt refused).2.adapt new).1 = .ok r ∧
      r.Serves new f := by
  intro f c refused new gathered r
  have hcollector : ({} : Host).collector f (.array .object) = .ok c := rfl
  have hreachable : (c.adapt refused).2.Reachable (· = {}) :=
    .adapt refused (.collector rfl (.direct _ _ _) hcollector)
  have hr : ((c.adapt refused).2.adapt new).1 = .ok r := by
    change ({} : Host).adapt new gathered = .ok r
    rfl
  exact ⟨rfl, hreachable, hr,
    ((Host.serves_or_refuses _).2 _ hreachable new).result r hr⟩

end CallBridge
