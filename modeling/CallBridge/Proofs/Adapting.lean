import CallBridge.Proofs.Midway
import CallBridge.Proofs.Verified

/-!
# Adapting

What an adaptation builds does not depend on the host, only whether it is built. A
host that runs the operations for it adapts exactly the signatures that adapt to one
another: every conversion on the way is the one difference between the chain so far
and the signature in front of it.
-/

namespace CallBridge

namespace Host

variable {h : Host} {new old s : Signature} {t r adapter target : Handle} {i last : Nat}
variable {src dst : Ty}

/-- Whether the host runs every operation that an adaptation may need. -/
structure RunsAdaptations (h : Host) : Prop where
  retypeOnly : h.supports .retypeOnly = true
  checkCast : h.supports .checkCast = true
  primToPrim : h.supports .primToPrim = true
  refToPrim : h.supports .refToPrim = true

/-! ### One conversion -/

theorem eq_of_cast {type : Ty} (hok : h.cast s t i type = .ok r) :
    r = .adapter s (.cast i type) t := by
  unfold cast at hok
  split at hok
  · cases hok
    rfl
  · cases hok

theorem eq_of_unbox {kind : Prim} (hsrc : s.param? i = some src)
    (hok : h.unbox s t i (.prim kind) = .ok r) :
    r = if src.passesFreely (.wrapper kind) then .adapter s (.unbox i kind (.wrapper kind)) t
      else .adapter s (.cast i (.wrapper kind))
        (.adapter (s.withParam i (.wrapper kind)) (.unbox i kind (.wrapper kind)) t) := by
  simp only [unbox, kindNamed?_prim, hsrc] at hok
  split at hok
  · split at hok
    · rename_i hfree
      cases hok
      rw [if_pos hfree]
    · rename_i hfree
      rw [if_neg hfree]
      exact eq_of_cast hok
  · cases hok

/-- There is only one way to convert an argument. -/
theorem eq_of_convertAt (hsrc : s.param? i = some src)
    (hok : h.convertAt s t i src dst = .ok r) : r = t.converting s i src dst := by
  cases dst with
  | prim kind =>
    cases src with
    | prim source =>
      have hok : h.primCast s t i (.prim kind) = .ok r := hok
      rw [primCast, hsrc] at hok
      split at hok
      · cases hok
        rfl
      · cases hok
    | void | null | object | cls | iface | array => exact eq_of_unbox hsrc hok
  | void | null | object | cls | iface | array =>
    cases src with
    | prim source => cases hok
    | void | null | object | cls | iface | array => exact eq_of_cast hok

theorem canConvertAt_of_convertsAt {u : Signature} {operand : Ty} {finals : List Ty} {p : Ty → Bool}
    (hc : Ty.ConvertsAt src dst i s.params u.params finals)
    (hret : u.ret.passesFreely s.ret = true) (hp : p src = true)
    (hoperand : operand.passesFreely dst = true) :
    canConvertAt s u i operand p = true :=
  canConvertAt_iff.mpr ⟨hc.difference_eq hret, src, dst, hc.caller, hc.callee, hp, hoperand⟩

theorem cast_eq_ok {type : Ty} {finals : List Ty} (hop : h.supports .checkCast = true)
    (hc : Ty.ConvertsAt src dst i s.params t.signature.params finals)
    (hret : t.signature.ret.passesFreely s.ret = true) (hcasts : src.casts type = true)
    (htype : type.passesFreely dst = true) :
    h.cast s t i type = .ok (.adapter s (.cast i type) t) := by
  have hcan : h.canCast s t.signature i type = true := by
    rw [canCast, hop, Bool.true_and]
    exact canConvertAt_of_convertsAt hc hret hcasts htype
  exact if_pos hcan

theorem unbox_eq_ok {kind : Prim} {finals : List Ty} (hh : h.RunsAdaptations)
    (hc : Ty.ConvertsAt src (.prim kind) i s.params t.signature.params finals)
    (hret : t.signature.ret.passesFreely s.ret = true) (hsrc : src.isReference = true) :
    ∃ r, h.unbox s t i (.prim kind) = .ok r := by
  have hparam : s.param? i = some src := hc.caller
  have hcasts : src.casts (.wrapper kind) = true := by
    rw [Ty.casts, hsrc, Ty.isReference_wrapper]
    rfl
  have hcan : h.canUnbox s t.signature i (.prim kind) = true := by
    rw [canUnbox_iff (kindNamed?_prim kind)]
    exact ⟨hh.refToPrim,
      canConvertAt_of_convertsAt hc hret hcasts (Ty.passesFreely_refl (.prim kind))⟩
  simp only [unbox, hcan, if_true, kindNamed?_prim, hparam]
  split
  · exact ⟨_, rfl⟩
  · rename_i hfree
    -- The cast in front sees one difference: its own argument.
    rw [Bool.not_eq_true] at hfree
    exact ⟨_, cast_eq_ok hh.checkCast (Ty.convertsAt_set hparam hfree) (Ty.passesFreely_refl _)
      hcasts (Ty.passesFreely_refl _)⟩

/-- A conversion at the one position that differs is never refused. -/
theorem convertAt_eq_ok {finals : List Ty} (hh : h.RunsAdaptations)
    (hc : Ty.ConvertsAt src dst i s.params t.signature.params finals)
    (hret : t.signature.ret.passesFreely s.ret = true) (hconv : src.converts dst = true) :
    h.convertAt s t i src dst = .ok (t.converting s i src dst) := by
  obtain ⟨r, hok⟩ : ∃ r, h.convertAt s t i src dst = .ok r := by
    rcases Ty.of_converts hconv hc.not_passesFreely with
      ⟨p, q, rfl, rfl, hcasts⟩ | ⟨hsrc, q, rfl⟩ | ⟨hsrc, hdst⟩
    · have hcan : h.canPrimCast s t.signature i (.prim q) = true := by
        rw [canPrimCast, hh.primToPrim, Bool.true_and]
        exact canConvertAt_of_convertsAt hc hret hcasts (Ty.passesFreely_refl _)
      have hparam : s.param? i = some (.prim p) := hc.caller
      refine ⟨.adapter s (.primCast i p q) t, ?_⟩
      change h.primCast s t i (.prim q) = _
      rw [primCast, if_pos hcan, hparam]
      rfl
    · have hunbox := unbox_eq_ok hh hc hret hsrc
      cases src with
      | void | prim => cases hsrc
      | null | object | cls | iface | array => exact hunbox
    · have hcasts : src.casts dst = true := by
        rw [Ty.casts, hsrc, hdst]
        rfl
      have hcast := cast_eq_ok hh.checkCast hc hret hcasts (Ty.passesFreely_refl dst)
      cases src with
      | void | prim => cases hsrc
      | null | object | cls | iface | array =>
        cases dst with
        | void | prim => cases hdst
        | null | object | cls | iface | array => exact ⟨_, hcast⟩
  rw [hok, ← eq_of_convertAt hc.caller hok]

/-! ### All conversions -/

/-- What a step of the adaptation does at a position that both signatures have. -/
theorem adaptStep_midway (hnew : i < new.arity) (hold : i < old.arity) :
    h.adaptStep new last (new.midway old i) adapter i =
      if (new.paramAt i).passesFreely (old.paramAt i) then .ok (new.midway old (i + 1), adapter)
      else do
        let mid := if i = last then new else new.midway old (i + 1)
        let adapter ← h.convertAt mid adapter i (new.paramAt i) (old.paramAt i)
        return (mid, ← ensure mid adapter) := by
  simp only [adaptStep, Signature.param?_eq_paramAt hnew, Signature.param?_midway hold]
  cases hfree : (new.paramAt i).passesFreely (old.paramAt i) with
  | true =>
    rw [Signature.midway_succ_of_passesFreely hnew hold hfree]
    rfl
  | false =>
    rw [Signature.midway_succ_of_not_passesFreely hnew hold hfree]
    rfl

theorem eq_of_adaptStep {mid : Signature} (hnew : i < new.arity) (hold : i < old.arity)
    (hfree : (new.paramAt i).passesFreely (old.paramAt i) = false)
    (hok : h.adaptStep new last (new.midway old i) adapter i = .ok (mid, r)) :
    mid = (if i = last then new else new.midway old (i + 1)) ∧
      r = adapter.converting mid i (new.paramAt i) (old.paramAt i) := by
  rw [adaptStep_midway hnew hold, hfree] at hok
  obtain ⟨converted, hconverted, hok⟩ := bind_eq_ok_iff.mp hok
  obtain ⟨checked, hchecked, hpair⟩ := bind_eq_ok_iff.mp hok
  obtain ⟨-, rfl⟩ := ensure_eq_ok_iff.mp hchecked
  cases hpair
  refine ⟨rfl, eq_of_convertAt ?_ hconverted⟩
  split
  · exact Signature.param?_eq_paramAt hnew
  · rw [Signature.midway_succ_of_not_passesFreely hnew hold hfree]
    refine Signature.param?_withParam_self ?_
    exact (List.getElem?_eq_some_iff.mp (Signature.param?_midway hold)).1

/-- A chain of conversions up to the last one that is needed comes out as `Handle.adapted` says. -/
theorem eq_of_adaptSteps {n : Nat} (harity : new.arity = target.signature.arity)
    (hin : last < new.arity)
    (hwork : (new.paramAt last).passesFreely (target.signature.paramAt last) = false)
    (hlast : i + n = last)
    (hok : h.adaptSteps new last (List.range' i (n + 1)) (new.midway target.signature i)
      (target.midway new i) = .ok r) :
    r = (target.midway new last).converting new last (new.paramAt last)
      (target.signature.paramAt last) := by
  induction n generalizing i with
  | zero =>
    obtain rfl : i = last := hlast
    obtain ⟨⟨mid, adapter⟩, hstep, hok⟩ := bind_eq_ok_iff.mp hok
    cases hok
    obtain ⟨hmid, hr⟩ := eq_of_adaptStep hin (harity ▸ hin) hwork hstep
    rw [hr, hmid, if_pos rfl]
  | succ n ih =>
    obtain ⟨⟨mid, adapter⟩, hstep, hok⟩ := bind_eq_ok_iff.mp hok
    have hnew : i < new.arity := by omega
    have hold : i < target.signature.arity := harity ▸ hnew
    have hnext : mid = new.midway target.signature (i + 1) ∧ adapter = target.midway new (i + 1) := by
      cases hfree : (new.paramAt i).passesFreely (target.signature.paramAt i) with
      | true =>
        rw [adaptStep_midway hnew hold, hfree] at hstep
        cases hstep
        exact ⟨rfl, (if_pos hfree).symm⟩
      | false =>
        obtain ⟨hmid, hr⟩ := eq_of_adaptStep hnew hold hfree hstep
        rw [if_neg (by omega)] at hmid
        refine ⟨hmid, ?_⟩
        rw [hr, hmid, Handle.midway, hfree]
        rfl
    obtain ⟨rfl, rfl⟩ := hnext
    exact ih (by omega) hok

theorem adaptStep_eq_ok {mid : Signature} {finals : List Ty} (hh : h.RunsAdaptations)
    (hnew : i < new.arity) (hold : i < old.arity)
    (hmid : mid = if i = last then new else new.midway old (i + 1))
    (hat : Ty.ConvertsAt (new.paramAt i) (old.paramAt i) i mid.params adapter.signature.params finals)
    (hret : adapter.signature.ret.passesFreely mid.ret = true)
    (hconv : (new.paramAt i).converts (old.paramAt i) = true) :
    h.adaptStep new last (new.midway old i) adapter i =
      .ok (mid, adapter.converting mid i (new.paramAt i) (old.paramAt i)) := by
  have hbuilt := convertAt_eq_ok hh hat hret hconv
  rw [adaptStep_midway hnew hold, hat.not_passesFreely, ← hmid]
  simp only [Bool.false_eq_true, if_false, hbuilt]
  change (do return (mid, ← ensure mid (adapter.converting mid i _ _))) = _
  rw [ensure, if_pos (Handle.signature_converting _ _ _ _ _)]
  rfl

/-- Signatures that adapt let every conversion be built. -/
theorem adaptSteps_eq_ok {n : Nat} (hh : h.RunsAdaptations)
    (hadapts : target.signature.adaptsTo new = true)
    (hsome : new.lastConversion? target.signature = some last) (hlast : i + n = last) :
    h.adaptSteps new last (List.range' i (n + 1)) (new.midway target.signature i)
      (target.midway new i) =
        .ok ((target.midway new last).converting new last (new.paramAt last)
          (target.signature.paramAt last)) := by
  obtain ⟨hret, hconv⟩ := Signature.adaptsTo_iff.mp hadapts
  have harity : new.arity = target.signature.arity := hconv.length_eq
  obtain ⟨hin, hwork, hafter⟩ := Signature.of_lastConversion? harity hsome
  induction n generalizing i with
  | zero =>
    obtain rfl : i = last := hlast
    have hold : i < target.signature.arity := harity ▸ hin
    have hat := Ty.convertsAt_last hconv (Signature.param?_eq_paramAt hin)
      (Signature.param?_eq_paramAt hold) hwork hafter
    rw [← Handle.params_midway harity (Nat.le_of_lt hin)] at hat
    rw [List.range'_one, adaptSteps, adaptStep_eq_ok hh hin hold (if_pos rfl).symm hat
      (Handle.ret_midway hret i) (Signature.rel_paramAt hconv hin)]
    rfl
  | succ n ih =>
    have hnew : i < new.arity := by omega
    have hold : i < target.signature.arity := harity ▸ hnew
    have hmid : new.midway target.signature (i + 1) =
        if i = last then new else new.midway target.signature (i + 1) := by
      rw [if_neg (by omega)]
    have hstep : h.adaptStep new last (new.midway target.signature i) (target.midway new i) i =
        .ok (new.midway target.signature (i + 1), target.midway new (i + 1)) := by
      cases hfree : (new.paramAt i).passesFreely (target.signature.paramAt i) with
      | true =>
        rw [adaptStep_midway hnew hold, Handle.midway, hfree]
        rfl
      | false =>
        have hat := Ty.convertsAt_midway hconv (Signature.param?_eq_paramAt hnew)
          (Signature.param?_eq_paramAt hold) hfree
        rw [← Handle.params_midway harity (Nat.le_of_lt hnew)] at hat
        rw [adaptStep_eq_ok hh hnew hold hmid hat (Handle.ret_midway hret i)
          (Signature.rel_paramAt hconv hnew), Handle.midway, hfree]
        rfl
    rw [List.range'_succ, adaptSteps, hstep]
    exact ih (by omega)

/-! ### The whole adaptation -/

theorem eq_of_retype (hne : t.signature ≠ new) (hok : h.retype new t .checked = .ok r) :
    r = .adapter new (.retype .checked) t := by
  unfold retype at hok
  rw [if_neg hne] at hok
  split at hok
  · cases hok
    rfl
  · cases hok

/-- Whatever the host, an adaptation is built in one way only. -/
theorem eq_adapted_of_adapt (hne : target.signature ≠ new) (hok : h.adapt new target = .ok r) :
    target.signature.adaptsTo new = true ∧ r = target.adapted new := by
  simp only [adapt, if_neg hne] at hok
  split at hok
  · cases hok
  · rename_i hadapts
    rw [Bool.not_eq_true', Bool.not_eq_false] at hadapts
    have harity : new.arity = target.signature.arity := (Signature.adaptsTo_iff.mp hadapts).2.length_eq
    refine ⟨hadapts, ?_⟩
    unfold Handle.adapted
    cases hlast : new.lastConversion? target.signature with
    | some last =>
      rw [hlast] at hok
      obtain ⟨adapter, hadapter, hfinish⟩ := bind_eq_ok_iff.mp hok
      obtain ⟨hin, hwork, -⟩ := Signature.of_lastConversion? harity hlast
      rw [List.range_eq_range', ← Signature.midway_zero] at hadapter
      obtain rfl := eq_of_adaptSteps harity hin hwork (Nat.zero_add last) hadapter
      rw [finish_eq_ok (Handle.signature_converting _ _ _ _ _)] at hfinish
      cases hfinish
      rfl
    | none =>
      rw [hlast] at hok
      have hfinish : h.finish new target = .ok r := hok
      rw [finish, if_neg hne] at hfinish
      obtain ⟨retyped, hretyped, hensure⟩ := bind_eq_ok_iff.mp hfinish
      obtain ⟨-, rfl⟩ := ensure_eq_ok_iff.mp hensure
      exact eq_of_retype hne hretyped

/-- Signatures that adapt are adapted by every host that runs the operations for it. -/
theorem adapt_eq_ok (hh : h.RunsAdaptations) (hne : target.signature ≠ new)
    (hadapts : target.signature.adaptsTo new = true) :
    h.adapt new target = .ok (target.adapted new) := by
  obtain ⟨hret, hconv⟩ := Signature.adaptsTo_iff.mp hadapts
  simp only [adapt, if_neg hne, hadapts]
  unfold Handle.adapted
  cases hlast : new.lastConversion? target.signature with
  | some last =>
    have hsteps := adaptSteps_eq_ok hh hadapts hlast (Nat.zero_add last)
    rw [← List.range_eq_range', Signature.midway_zero] at hsteps
    change (h.adaptSteps new last _ _ (target.midway new 0) >>= h.finish new) = _
    rw [hsteps]
    exact finish_eq_ok (Handle.signature_converting _ _ _ _ _)
  | none =>
    have hpass : new.Passes .checked target.signature :=
      ⟨Signature.returnsMatch_checked_iff.mpr hret,
        (Signature.lastConversion?_eq_none_iff hconv.length_eq).mp hlast⟩
    have hcan : h.canRetype new target.signature .checked = true := by
      rw [canRetype, retypes, hh.retypeOnly, Signature.difference_eq_zero_iff.mpr hpass]
      rfl
    change h.finish new target = _
    rw [finish, if_neg hne, retype, if_neg hne, if_pos hcan]
    exact if_pos rfl

/-- A host that runs the operations for it adapts a handle to a signature exactly if the signature of
    the handle adapts to it, and refuses everything else with both signatures. Nothing is put in
    front of a handle that has the signature already, and only a retype where all arguments pass
    freely. Otherwise there is one step for each argument that does not, and a cast before an
    unboxing of anything but an instance of the wrapper class. -/
theorem adapt_complete (h : Host) (new : Signature) (target : Handle) (hh : h.RunsAdaptations) :
    ((∃ r, h.adapt new target = .ok r) ↔ target.signature.adaptsTo new = true) ∧
    (∀ e, h.adapt new target = .error e → e = .notConvertible target.signature new) ∧
    (∀ r, h.adapt new target = .ok r →
      (target.signature = new → r = target) ∧
      (target.signature ≠ new → Ty.PassAll .checked new.params target.signature.params →
        r = .adapter new (.retype .checked) target) ∧
      (¬ Ty.PassAll .checked new.params target.signature.params →
        ∃ nodes, r.chain = nodes ++ target.chain ∧
          nodes.length = Ty.stepCount (new.params.zip target.signature.params))) := by
  by_cases hsame : target.signature = new
  · have hok : h.adapt new target = .ok target := if_pos hsame
    rw [hok]
    refine ⟨⟨fun _ => hsame ▸ Signature.adaptsTo_refl _, fun _ => ⟨target, rfl⟩⟩, ?_, ?_⟩
    · intro e he
      cases he
    · rintro r ⟨⟩
      refine ⟨fun _ => rfl, fun hne => absurd hsame hne, fun hpass => absurd ?_ hpass⟩
      exact hsame ▸ Ty.passAll_refl _
  · cases hadapts : target.signature.adaptsTo new with
    | false =>
      have herror : h.adapt new target = .error (.notConvertible target.signature new) := by
        simp only [adapt, if_neg hsame, hadapts]
        rfl
      rw [herror]
      refine ⟨⟨?_, ?_⟩, ?_, ?_⟩
      · rintro ⟨r, hr⟩
        cases hr
      · intro hfalse
        cases hfalse
      · rintro e ⟨⟩
        rfl
      · intro r hr
        cases hr
    | true =>
      obtain ⟨-, hconv⟩ := Signature.adaptsTo_iff.mp hadapts
      have hnone : new.lastConversion? target.signature = none ↔
          Ty.PassAll .checked new.params target.signature.params :=
        Signature.lastConversion?_eq_none_iff hconv.length_eq
      rw [adapt_eq_ok hh hsame hadapts]
      refine ⟨⟨fun _ => rfl, fun _ => ⟨_, rfl⟩⟩, ?_, ?_⟩
      · intro e he
        cases he
      · rintro r ⟨⟩
        refine ⟨fun heq => absurd heq hsame, fun _ hpass => ?_, fun hpass => ?_⟩
        · rw [Handle.adapted, hnone.mpr hpass]
        · obtain ⟨last, hlast⟩ := Option.ne_none_iff_exists'.mp (mt hnone.mp hpass)
          exact Handle.chain_adapted hconv hlast

/-- Of four arguments, one is widened freely, one cast, one unboxed and one unboxed after a cast. -/
theorem adapt_complete_four_steps :
    let f : Handle :=
      .direct "f" ⟨[.prim .int, .string, .prim .long, .prim .byte], .object⟩ (fun _ => .ok .null)
    let new : Signature := ⟨[.prim .short, .object, .wrapper .long, .object], .object⟩
    ({} : Host).RunsAdaptations ∧ ∃ r nodes, ({} : Host).adapt new f = .ok r ∧
      r.chain = nodes ++ f.chain ∧ nodes.length = 4 := by
  intro f new
  have hh : ({} : Host).RunsAdaptations := ⟨rfl, rfl, rfl, rfl⟩
  obtain ⟨hiff, -, hnodes⟩ := adapt_complete {} new f hh
  obtain ⟨r, hr⟩ := hiff.mpr rfl
  have hwork : ¬ Ty.PassAll .checked new.params f.signature.params := by
    rintro (_ | ⟨-, _ | ⟨hpass, -⟩⟩)
    cases hpass
  obtain ⟨nodes, hchain, hlen⟩ := (hnodes r hr).2.2 hwork
  exact ⟨hh, r, nodes, hr, hchain, hlen⟩

end Host

end CallBridge
