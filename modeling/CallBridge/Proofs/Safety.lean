import CallBridge.Proofs.Soundness

/-!
# Safety of calls

Values may be anything, and may be refused for what they are; how many there are is
settled by the signatures. A call with the right number of arguments hands every node
of a verified chain as many arguments as its signature has. So no step asks for an
argument that is not there, the host function gets as many arguments as it declares,
and a call of a chain is the same as calling its handles one by one.
-/

namespace CallBridge

/-! ## Lengths -/

/-- Whether a shuffle fits a list, and how long a list it leaves, depends on the length alone. -/
theorem Shuffle.act?_of_length_eq {α β : Type} {s : Shuffle} {xs xs' : List α} {ys : List β}
    (hlen : xs.length = ys.length) (h : s.act? xs = some xs') :
    ∃ ys', s.act? ys = some ys' ∧ ys'.length = xs'.length := by
  -- Both lists are the same once their entries are blanked out.
  have hblank : xs.map (fun _ => ()) = ys.map (fun _ => ()) := by
    rw [List.map_const', List.map_const', hlen]
  have hys := act?_map (fun _ => ()) s ys
  rw [← hblank, act?_map, h, Option.map_some, eq_comm, Option.map_eq_some_iff] at hys
  obtain ⟨ys', hact, hmap⟩ := hys
  exact ⟨ys', hact, by simpa using congrArg List.length hmap⟩

theorem Step.argAt_eq_ok {args : List Value} {i : Nat} (h : i < args.length) :
    Step.argAt args i = .ok args[i] :=
  Step.argAt_eq_ok_iff.mpr (List.getElem?_eq_getElem h)

/-! ## Refusals -/

/-- Whether an error is about what an argument is, rather than about where arguments are. -/
def InvokeError.IsRefusal : InvokeError → Prop
  | .classCast .. | .nullPointer _ | .arrayLength .. | .notAnArray _ => True
  | .wrongArity .. | .host _ | .outOfRange => False

/-- A step that hands on `n` arguments or refuses one of those it was given. -/
def HandsOn (n : Nat) : Except InvokeError (List Value) → Prop
  | .ok out => out.length = n
  | .error e => e.IsRefusal

namespace Value

variable {v : Value} {e : InvokeError}

theorem isRefusal_of_checkCast {type : Ty} (h : v.checkCast type = .error e) : e.IsRefusal := by
  unfold checkCast at h
  split at h
  · cases h
  · cases h
    exact trivial

theorem isRefusal_of_primCast {kind : Prim} (h : v.primCast kind = .error e) : e.IsRefusal := by
  unfold primCast at h
  split at h
  · cases h
  · cases h
    exact trivial

theorem isRefusal_of_unbox {kind : Prim} {wrapper : Ty} (h : v.unbox kind wrapper = .error e) :
    e.IsRefusal := by
  unfold unbox at h
  split at h
  · cases h
    exact trivial
  · split at h
    · cases h
    · cases h
      exact trivial
  · cases h
    exact trivial

/-- Spreading gives as many items as asked for, or refuses the array. -/
theorem handsOn_spreadItems (v : Value) (type : Ty) (count : Nat) :
    HandsOn count (v.spreadItems type count) := by
  cases v with
  | array own items =>
    simp only [spreadItems]
    cases hcast : (array own items).checkCast type with
    | error e => exact isRefusal_of_checkCast hcast
    | ok =>
      change HandsOn count (if items.length = count then _ else _)
      split
      · assumption
      · exact trivial
  | void | null | prim | str | boxed | object => exact trivial

end Value

/-! ## Steps -/

section Steps

variable {h : Host} {s u : Signature} {args : List Value}

/-- A step that replaces one argument hands on as many as it is given. -/
theorem Step.handsOn_set {arg : Nat} {f : Value → Except InvokeError Value}
    (hlen : args.length = s.arity) (harg : arg < s.arity ∧ s.arity = u.arity)
    (hf : ∀ v e, f v = .error e → e.IsRefusal) :
    HandsOn u.arity (do
      let v ← Step.argAt args arg
      return args.set arg (← f v)) := by
  have hin : arg < args.length := by
    rw [hlen]
    exact harg.1
  rw [Step.argAt_eq_ok hin]
  change HandsOn u.arity (do return args.set arg (← f args[arg]))
  cases hv : f args[arg] with
  | error e => exact hf _ e hv
  | ok w =>
    change (args.set arg w).length = u.arity
    rw [List.length_set, hlen, harg.2]

theorem Step.handsOn_reorder {sh : Shuffle} (hlen : args.length = s.arity)
    (hfeeds : sh.Feeds s u) : HandsOn u.arity (Step.reorder sh args) := by
  obtain ⟨params, hparams, hpass⟩ := hfeeds
  obtain ⟨out, hout, hcount⟩ := Shuffle.act?_of_length_eq hlen.symm hparams
  rw [Step.reorder, hout]
  exact hcount.trans hpass.params.length_eq

theorem Step.handsOn_spread {array : Ty} {pos count slots : Nat} (hlen : args.length = s.arity)
    (hcan : h.canSpread s u array pos count = true) :
    HandsOn u.arity ((Step.spread pos count array slots).run args) := by
  obtain ⟨hpos, harity⟩ := Host.arity_of_canSpread hcan
  rw [← hlen] at hpos harity
  simp only [Step.run, Step.argAt_eq_ok hpos]
  change HandsOn u.arity (do
    let items ← args[pos].spreadItems array count
    return args.take pos ++ items ++ args.drop (pos + 1))
  have hitems := Value.handsOn_spreadItems args[pos] array count
  cases hrun : args[pos].spreadItems array count with
  | error e =>
    rw [hrun] at hitems
    exact hitems
  | ok items =>
    rw [hrun] at hitems
    have hcount : items.length = count := hitems
    change (args.take pos ++ items ++ args.drop (pos + 1)).length = u.arity
    simp only [List.length_append, List.length_take, List.length_drop, hcount]
    omega

/-- Given as many arguments as its signature has, a verified step hands on as many as the next handle
    takes, unless it refuses one of them. -/
theorem Host.Verifies.handsOn {step : Step} (hstep : h.Verifies s u step)
    (hlen : args.length = s.arity) : HandsOn u.arity (step.run args) := by
  cases step with
  | retype mode =>
    have hcan : h.canRetype s u mode = true := hstep
    rw [canRetype, Bool.and_eq_true, beq_iff_eq, Signature.difference_eq_zero_iff] at hcan
    exact hlen.trans hcan.2.params.length_eq
  | cast arg type =>
    have hcan : h.canCast s u arg type = true := hstep
    rw [canCast, Bool.and_eq_true] at hcan
    obtain ⟨harg, harity⟩ := of_canConvertAt hcan.2
    simp only [Step.run, Step.argAt_eq_ok (hlen.symm ▸ harg)]
    change HandsOn u.arity (do args[arg].checkCast type; return args)
    cases hcast : args[arg].checkCast type with
    | error e => exact Value.isRefusal_of_checkCast hcast
    | ok => exact hlen.trans harity
  | primCast arg source target =>
    have hcan := hstep.1
    rw [canPrimCast, Bool.and_eq_true] at hcan
    exact Step.handsOn_set hlen (of_canConvertAt hcan.2) fun _ _ => Value.isRefusal_of_primCast
  | unbox arg target wrapper =>
    have hcan := (canUnbox_iff (kindNamed?_prim target)).mp hstep.1
    exact Step.handsOn_set hlen (of_canConvertAt hcan.2) fun _ _ => Value.isRefusal_of_unbox
  | drop pos count slots =>
    obtain ⟨hcount, hcan, -⟩ := hstep
    exact Step.handsOn_reorder hlen ((canDrop_iff hcount).mp hcan).2.2
  | dup pos count slots =>
    obtain ⟨hcount, hcan, -⟩ := hstep
    exact Step.handsOn_reorder hlen ((canDup_iff hcount).mp hcan).2.2
  | swap first second tag destSlot =>
    exact Step.handsOn_reorder hlen (canSwap_iff.mp hstep.1).2.2
  | rotate first count amount moved tag destSlot =>
    obtain ⟨hlt, hcan, -⟩ := hstep
    have hfeeds := (canRotate_iff.mp hcan).2.2
    rw [rotationAmount_of_lt hlt] at hfeeds
    exact Step.handsOn_reorder hlen hfeeds
  | spread pos count array slots => exact Step.handsOn_spread hlen hstep.1

/-- A collecting node always finds its arguments. -/
theorem Signature.Collects.gather_eq_ok {pos count : Nat} {array : Ty}
    (hnode : s.Collects u pos count array) (hlen : args.length = s.arity) :
    ∃ out, Handle.gather pos array args = .ok out ∧ out.length = u.arity := by
  obtain ⟨harity, ⟨elem, -, rfl⟩, -⟩ := hnode
  have hpos : pos ≤ args.length := by
    simp only [Signature.arity, Signature.params_withParams, List.length_append, List.length_take,
      List.length_replicate] at harity hlen
    omega
  refine ⟨_, if_pos hpos, ?_⟩
  rw [harity, List.length_append, List.length_take, Nat.min_eq_left hpos]
  rfl

end Steps

/-! ## Calls -/

namespace Call

variable {hosts : Host → Prop} {c c' : Call} {e : InvokeError}

/-- A state of a call in which the handle in control has all its arguments. -/
structure Filled (hosts : Host → Prop) (c : Call) : Prop where
  verified : c.handle.Verified hosts
  args : c.args.length = c.handle.signature.arity

/-- The handle in control fails in its step. -/
inductive Fails : Call → InvokeError → Prop where
  | adapter {s : Signature} {step : Step} {target : Handle} {args : List Value}
      {pending : List Handle.Return} {e : InvokeError} :
      step.run args = .error e → Fails ⟨.adapter s step target, args, pending⟩ e
  | collect {s : Signature} {pos count : Nat} {array : Ty} {target : Handle} {args : List Value}
      {pending : List Handle.Return} {e : InvokeError} :
      Handle.gather pos array args = .error e →
      Fails ⟨.collect s pos count array target, args, pending⟩ e

theorem Fails.run_eq (h : c.Fails e) : c.run = .error e := by
  cases h with
  | adapter hstep => simp only [run, Handle.run, hstep]; rfl
  | collect hgather => simp only [run, Handle.run, hgather]; rfl

/-- One hand-over leads from filled states to filled states. -/
theorem Filled.moves (hc : c.Filled hosts) (hmove : Moves c c') : c'.Filled hosts := by
  cases hmove with
  | @adapter s step target args out pending hrun =>
    obtain ⟨⟨⟨h, -, hstep⟩, hverified⟩, hlen⟩ := hc
    have hout := hstep.handsOn hlen
    rw [hrun] at hout
    exact ⟨hverified, (Value.length_conformAll _ _ _).trans hout⟩
  | @collect s pos count array target args out pending hgather =>
    obtain ⟨⟨hnode, hverified⟩, hlen⟩ := hc
    obtain ⟨out', hgather', hout⟩ := hnode.gather_eq_ok hlen
    rw [hgather] at hgather'
    cases hgather'
    exact ⟨hverified, (Value.length_conformAll _ _ _).trans hout⟩

/-- A call that starts with all its arguments never lacks one. -/
theorem Filled.reaches (hc : c.Filled hosts) (hreach : Reaches c c') : c'.Filled hosts := by
  induction hreach with
  | refl => exact hc
  | tail _ hmove ih => exact ih.moves hmove

/-- A handle that has all its arguments fails only by refusing one. -/
theorem Filled.isRefusal (hc : c.Filled hosts) (hfails : c.Fails e) : e.IsRefusal := by
  cases hfails with
  | adapter hrun =>
    obtain ⟨⟨⟨h, -, hstep⟩, -⟩, hlen⟩ := hc
    have hout := hstep.handsOn hlen
    rw [hrun] at hout
    exact hout
  | collect hgather =>
    obtain ⟨⟨hnode, -⟩, hlen⟩ := hc
    obtain ⟨out, hout, -⟩ := hnode.gather_eq_ok hlen
    rw [hgather] at hout
    cases hout

/-- A call ends where a step fails, or else in its host function. -/
theorem ends (c : Call) :
    (∃ c' e, Reaches c c' ∧ c'.Fails e) ∨
      ∃ name s body args pending, Reaches c ⟨.direct name s body, args, pending⟩ := by
  obtain ⟨h, args, pending⟩ := c
  induction h generalizing args pending with
  | direct name s body => exact .inr ⟨name, s, body, args, pending, .refl⟩
  | adapter s step target ih =>
    cases hrun : step.run args with
    | error e => exact .inl ⟨_, e, .refl, .adapter hrun⟩
    | ok out =>
      rcases ih _ _ with ⟨c', e, hreach, hfails⟩ | ⟨name, s, body, final, rest, hreach⟩
      · exact .inl ⟨c', e, .head (.adapter hrun) hreach, hfails⟩
      · exact .inr ⟨name, s, body, final, rest, .head (.adapter hrun) hreach⟩
  | collect s pos count array target ih =>
    cases hgather : Handle.gather pos array args with
    | error e => exact .inl ⟨_, e, .refl, .collect hgather⟩
    | ok out =>
      rcases ih _ _ with ⟨c', e, hreach, hfails⟩ | ⟨name, s, body, final, rest, hreach⟩
      · exact .inl ⟨c', e, .head (.collect hgather) hreach, hfails⟩
      · exact .inr ⟨name, s, body, final, rest, .head (.collect hgather) hreach⟩

end Call

/-! ## Calling handles one by one -/

namespace Handle

/-- A call as a recursion over the chain: a handle checks the number of its arguments, does its step,
    calls the next handle like any other caller, and brings the result in line with its own return
    type. -/
def callEach (h : Handle) (args : List Value) : Except InvokeError Value :=
  if args.length = h.signature.arity then
    match h with
    | direct _ _ body => body args
    | adapter s step target => do
      let out ← step.run args
      let result ← target.callEach (Value.conformAll out target.signature.params step.isRaw)
      return result.coerce s.ret step.isRaw
    | collect s pos _ array target => do
      let out ← gather pos array args
      let result ← target.callEach (Value.conformAll out target.signature.params false)
      return result.coerce s.ret false
  else .error (.wrongArity h.signature.arity args.length)

theorem invoke_eq_callEach {hosts : Host → Prop} {h : Handle} (hverified : h.Verified hosts)
    (args : List Value) : h.invoke args = h.callEach args := by
  by_cases hlen : args.length = h.signature.arity
  · induction h generalizing args with
    | direct name s body =>
      rw [invoke, callEach, if_pos hlen, if_pos hlen]
      change (body args >>= _) = body args
      cases body args <;> rfl
    | adapter s step target ih =>
      obtain ⟨⟨h, -, hstep⟩, htarget⟩ := hverified
      have hout := hstep.handsOn hlen
      rw [invoke, callEach, if_pos hlen, if_pos hlen, run]
      cases hrun : step.run args with
      | error e => rfl
      | ok out =>
        rw [hrun] at hout
        have hlen' := (Value.length_conformAll out target.signature.params step.isRaw).trans hout
        change target.run _ [_] = _
        rw [run_eq_invoke_bind hlen', ih htarget _ hlen']
        rfl
    | collect s pos count array target ih =>
      obtain ⟨hnode, htarget⟩ := hverified
      obtain ⟨out, hgather, hout⟩ := hnode.gather_eq_ok hlen
      have hlen' := (Value.length_conformAll out target.signature.params false).trans hout
      rw [invoke, callEach, if_pos hlen, if_pos hlen, run, hgather]
      change target.run _ [_] = _
      rw [run_eq_invoke_bind hlen', ih htarget _ hlen']
      rfl
  · unfold invoke callEach
    rw [if_neg hlen, if_neg hlen]

/-! ## Where errors come from -/

/-- The errors that a call raises by itself: for the number of its arguments, or in a step. -/
inductive Raises (h : Handle) (args : List Value) : InvokeError → Prop where
  | arity : args.length ≠ h.signature.arity →
      Raises h args (.wrongArity h.signature.arity args.length)
  | step {c : Call} {e : InvokeError} : args.length = h.signature.arity →
      Call.Reaches (.start h args) c → c.Fails e → Raises h args e

/-- The errors that a call passes on from its host function. -/
def HostRaises (h : Handle) (args : List Value) (e : InvokeError) : Prop :=
  args.length = h.signature.arity ∧ ∃ name s body final pending,
    Call.Reaches (.start h args) ⟨.direct name s body, final, pending⟩ ∧ body final = .error e

variable {h : Handle} {args : List Value}

theorem invoke_eq_error_iff {e : InvokeError} :
    h.invoke args = .error e ↔ h.Raises args e ∨ h.HostRaises args e := by
  constructor
  · intro herror
    by_cases hlen : args.length = h.signature.arity
    · rw [invoke_eq_run hlen] at herror
      rcases Call.ends (.start h args) with
        ⟨c, e', hreach, hfails⟩ | ⟨name, s, body, final, pending, hreach⟩
      · rw [hreach.run_eq, hfails.run_eq] at herror
        cases herror
        exact .inl (.step hlen hreach hfails)
      · refine .inr ⟨hlen, name, s, body, final, pending, hreach, ?_⟩
        rw [hreach.run_eq, Call.run, run] at herror
        cases hbody : body final with
        | error e' =>
          rw [hbody] at herror
          cases herror
          rfl
        | ok v =>
          rw [hbody] at herror
          cases herror
    · rw [invoke, if_neg hlen] at herror
      cases herror
      exact .inl (.arity hlen)
  · rintro (hraises | ⟨hlen, name, s, body, final, pending, hreach, hbody⟩)
    · cases hraises with
      | arity hlen => exact if_neg hlen
      | step hlen hreach hfails => rw [invoke_eq_run hlen, hreach.run_eq, hfails.run_eq]
    · rw [invoke_eq_run hlen, hreach.run_eq, Call.run, run, hbody]
      rfl

end Handle

/-! ## Safety -/

/-- A call of a chain of any make, on any values, is the same as calling its handles one by one. Its
    own errors are never about an argument that is not there, and one about the number of arguments
    means that the caller gave the wrong number; other errors are those of the host function, which
    gets exactly as many arguments as it declares. -/
theorem Handle.invoke_safe (hosts : Host → Prop) (h : Handle) (args : List Value)
    (hreachable : h.Reachable hosts) :
    h.invoke args = h.callEach args ∧
    (∀ e, h.invoke args = .error e ↔ h.Raises args e ∨ h.HostRaises args e) ∧
    ¬ h.Raises args .outOfRange ∧
    (∀ expected actual, h.Raises args (.wrongArity expected actual) ↔
      args.length ≠ h.signature.arity ∧ expected = h.signature.arity ∧ actual = args.length) ∧
    (args.length = h.signature.arity → ∀ name s body final pending,
      Call.Reaches (.start h args) ⟨.direct name s body, final, pending⟩ →
        final.length = s.arity) := by
  have hfilled : args.length = h.signature.arity → (Call.start h args).Filled hosts :=
    fun hlen => ⟨hreachable.verified, hlen⟩
  refine ⟨invoke_eq_callEach hreachable.verified args, fun e => invoke_eq_error_iff, ?_, ?_, ?_⟩
  · intro hraises
    cases hraises with
    | step hlen hreach hfails => exact ((hfilled hlen).reaches hreach).isRefusal hfails
  · intro expected actual
    constructor
    · intro hraises
      cases hraises with
      | arity hlen => exact ⟨hlen, rfl, rfl⟩
      | step hlen hreach hfails => exact (((hfilled hlen).reaches hreach).isRefusal hfails).elim
    · rintro ⟨hlen, rfl, rfl⟩
      exact .arity hlen
  · intro hlen name s body final pending hreach
    exact ((hfilled hlen).reaches hreach).args

/-- An array with too few items, to be spread over two arguments that are then exchanged. -/
theorem Handle.invoke_safe_short_array :
    let f : Handle := .direct "f" ⟨[.string, .object], .object⟩ HostFunction.echo
    let args : List Value := [.array (.array .string) [.void]]
    ∃ mid r : Handle,
      ({} : Host).build ⟨[.object, .string], .object⟩ f (.swap 0 1) = .ok mid ∧
      ({} : Host).build ⟨[.array .string], .object⟩ mid (.spread (.array .string) 0 2) = .ok r ∧
      r.Reachable (fun _ => True) ∧ r.callEach args = .error (.arrayLength 2 1) ∧
      ¬ r.Raises args .outOfRange := by
  intro f args
  let mid : Handle := .adapter ⟨[.object, .string], .object⟩ (.swap 0 1 .object 0) f
  let r : Handle := .adapter ⟨[.array .string], .object⟩ (.spread 0 2 (.array .string) 2) mid
  have hmid : ({} : Host).build ⟨[.object, .string], .object⟩ f (.swap 0 1) = .ok mid := rfl
  have hr : ({} : Host).build ⟨[.array .string], .object⟩ mid (.spread (.array .string) 0 2) =
    .ok r := rfl
  have hreachable : r.Reachable fun _ => True :=
    .build trivial (.build trivial (.direct _ _ _) hmid) hr
  obtain ⟨heach, -, hrange, -⟩ := invoke_safe _ r args hreachable
  exact ⟨mid, r, hmid, hr, hreachable, heach.symm.trans rfl, hrange⟩

end CallBridge
