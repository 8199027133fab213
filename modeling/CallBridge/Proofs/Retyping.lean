import CallBridge.Proofs.AdaptedCalls
import CallBridge.Proofs.Integrals

/-!
# Stacked retypes

A retype has nothing to do, but a call that comes through it brings primitives in
line with what stands behind it, and the result in line with what stands in front.
Two retypes, one on the other, do this by way of the signature in between. They come
to the same as a single one, because a value that passes freely takes the same form
by every way.
-/

namespace CallBridge

/-! ## Values on their way -/

/-- A datum takes the same form in two free conversions as in one. -/
theorem Datum.convert_convert_of_passesFreely {d : Datum} {q r : Prim}
    (h : (Ty.prim d.kind).passesFreely (.prim q) = true)
    (h' : (Ty.prim q).passesFreely (.prim r) = true) :
    (d.convert q).convert r = d.convert r := by
  rcases Ty.passesFreely_prim_iff.mp h with rfl | hdq
  · rw [convert_self]
  · rcases Ty.passesFreely_prim_iff.mp h' with rfl | hqr
    · exact if_pos (kind_convert d q)
    · obtain ⟨-, hr, -⟩ := Prim.widensTo_iff.mp hqr
      exact convert_convert_of_widensTo hdq (Prim.isIntegral_of_fitsWord hr)

namespace Value

variable {v : Value} {src mid dst : Ty}

theorem coerce_prim (d : Datum) (kind : Prim) :
    (prim d).coerce (.prim kind) false = prim (d.convert kind) := by
  by_cases hkind : d.kind = kind
  · rw [coerce_prim_self hkind, ← hkind, Datum.convert_self]
  · simp [coerce, hkind]

/-- What is in line with a primitive type is a datum of its kind, or neither a datum nor void. -/
theorem of_coerce_prim {kind : Prim} (hv : v.coerce (.prim kind) false = v) :
    (∃ d : Datum, v = prim d ∧ d.kind = kind) ∨ ∀ p : Prim, v.coerce (.prim p) false = v := by
  cases v with
  | prim d =>
    rw [coerce_prim, Value.prim.injEq] at hv
    exact .inl ⟨d, rfl, hv ▸ Datum.kind_convert d kind⟩
  | void => cases hv
  | null | str | boxed | array | object => exact .inr fun _ => rfl

/-- A result that is in line with its own type takes the same form in two steps as in one. -/
theorem coerce_through (hv : v.coerce src false = v) (h : src.passesFreely mid = true)
    (h' : mid.passesFreely dst = true) :
    (v.coerce mid false).coerce dst false = v.coerce dst false := by
  by_cases hdst : dst = .void
  · rw [hdst, coerce_void, coerce_void]
  · have hmid : mid ≠ .void := by
      rintro rfl
      exact hdst (Ty.eq_void_of_passesFreely h')
    rcases Ty.of_passesFreely h hmid with ⟨p, q, rfl, rfl⟩ | ⟨-, href, -⟩
    · rcases Ty.of_passesFreely h' hdst with ⟨_, r, -, rfl⟩ | ⟨href, -⟩
      · rcases of_coerce_prim hv with ⟨d, rfl, rfl⟩ | hfixed
        · rw [coerce_prim, coerce_prim, coerce_prim, Datum.convert_convert_of_passesFreely h h']
        · rw [hfixed q]
      · cases href
    · rw [coerce_of_isReference href]

/-- An argument that is in line with its own type takes the same form in two steps as in one. -/
theorem conform_through (hv : v.conform src false = v) (h : src.passesFreely mid = true)
    (h' : mid.passesFreely dst = true) :
    (v.conform mid false).conform dst false = v.conform dst false := by
  cases v with
  | void | null | str | boxed | array | object => rfl
  | prim d =>
    by_cases hmid : mid = .void
    · obtain rfl := hmid
      obtain rfl := Ty.eq_void_of_passesFreely h'
      rfl
    · have hprim : ∃ e : Datum, (prim d).coerce mid false = prim e := by
        cases mid with
        | void => exact absurd rfl hmid
        | prim q => exact ⟨_, coerce_prim d q⟩
        | null | object | cls | iface | array => exact ⟨d, rfl⟩
      obtain ⟨e, he⟩ := hprim
      have hthrough := coerce_through hv h h'
      rw [he] at hthrough
      rw [conform, he]
      exact hthrough

theorem conformAll_through {args : List Value} {srcs mids dsts : List Ty}
    (hargs : conformAll args srcs false = args) (h : Ty.PassAll .checked srcs mids)
    (h' : Ty.PassAll .checked mids dsts) :
    conformAll (conformAll args mids false) dsts false = conformAll args dsts false := by
  induction h generalizing args dsts with
  | nil =>
    cases h'
    cases args <;> rfl
  | cons hhead _ ih =>
    cases h' with
    | cons hhead' htail' =>
      cases args with
      | nil => rfl
      | cons v vs =>
        obtain ⟨hv, hvs⟩ := List.cons.inj hargs
        rw [Ty.passing_checked_iff] at hhead hhead'
        simp only [conformAll, conform_through hv hhead hhead', ih hvs htail']

end Value

/-! ## One retype -/

/-- Whether what a handle returns for the arguments is in line with its own return type. -/
def Handle.ReturnsInLine (t : Handle) (args : List Value) : Prop :=
  ∀ result, t.invoke args = .ok result → result.coerce t.signature.ret false = result

namespace Host

variable {h : Host} {new : Signature} {t r : Handle} {args : List Value} {mode : Mode}

/-- A handle is retyped if it has the signature already, or if the host may retype it. -/
theorem exists_retype_iff :
    (∃ r, h.retype new t mode = .ok r) ↔
      t.signature = new ∨ h.canRetype new t.signature mode = true := by
  unfold retype
  split
  · simp [*]
  · rename_i hne
    rw [or_iff_right hne]
    split
    · simp [*]
    · rename_i hcan
      simp [refuse, hcan]

theorem of_retype (hok : h.retype new t .checked = .ok r) :
    new.Passes .checked t.signature ∧ (r.signature = new ∧
      (r = t ∨ r = .adapter new (.retype .checked) t)) := by
  by_cases hsame : t.signature = new
  · rw [retype, if_pos hsame] at hok
    cases hok
    exact ⟨hsame ▸ Signature.passes_refl _, hsame, .inl rfl⟩
  · obtain rfl := eq_of_retype hsame hok
    have hcan := (exists_retype_iff.mp ⟨_, hok⟩).resolve_left hsame
    exact ⟨(canRetype_iff.mp hcan).2, rfl, .inr rfl⟩

/-- A retype that is put in front coerces the arguments and the result in its mode. -/
theorem invoke_retype_step (harity : new.arity = t.signature.arity) (hlen : args.length = new.arity)
    (mode : Mode) :
    (Handle.adapter new (.retype mode) t).invoke args = (do
      let result ← t.invoke (Value.conformAll args t.signature.params (Step.retype mode).isRaw)
      return result.coerce new.ret (Step.retype mode).isRaw) := by
  have hlen' : (Value.conformAll args t.signature.params (Step.retype mode).isRaw).length =
      t.signature.arity := by
    rw [Value.length_conformAll, hlen, harity]
  rw [Handle.invoke, Handle.signature_adapter, if_pos hlen]
  exact Handle.run_eq_invoke_bind hlen' ⟨new.ret, (Step.retype mode).isRaw⟩

/-- Calling a retyped handle is calling the handle, between one coercion of the arguments and one of
    the result. -/
theorem invoke_retype (hok : h.retype new t .checked = .ok r) (hlen : args.length = new.arity)
    (hargs : Value.conformAll args new.params false = args)
    (hreturns : t.ReturnsInLine (Value.conformAll args t.signature.params false)) :
    r.invoke args = (do
      let result ← t.invoke (Value.conformAll args t.signature.params false)
      return result.coerce new.ret false) := by
  obtain ⟨hpasses, hsig, rfl | rfl⟩ := of_retype hok
  · subst hsig
    rw [hargs] at hreturns ⊢
    cases hresult : r.invoke args with
    | error e => rfl
    | ok result => exact congrArg Except.ok (hreturns result hresult).symm
  · exact invoke_retype_step hpasses.params.length_eq hlen .checked

theorem returnsInLine_retype (hok : h.retype new t .checked = .ok r)
    (hlen : args.length = new.arity) (hargs : Value.conformAll args new.params false = args)
    (hreturns : t.ReturnsInLine (Value.conformAll args t.signature.params false)) :
    r.ReturnsInLine args := by
  intro result hresult
  obtain ⟨-, hsig, -⟩ := of_retype hok
  rw [invoke_retype hok hlen hargs hreturns] at hresult
  obtain ⟨inner, -, hresult⟩ := bind_eq_ok_iff.mp hresult
  cases hresult
  rw [hsig, Value.coerce_coerce]

/-! ## Two retypes -/

theorem exists_retype_of_retype {U : Universe} {a b : Signature} {r₁ r₂ : Handle}
    (hb : ∀ u ∈ b.types, U.Has u) (hinner : h.retype b t .checked = .ok r₁)
    (houter : h.retype a r₁ .checked = .ok r₂) : ∃ r, h.retype a t .checked = .ok r := by
  obtain ⟨htb, hsig, -⟩ := of_retype hinner
  obtain ⟨hba, -⟩ := of_retype houter
  rw [hsig] at hba
  have hat : a.Passes .checked t.signature := hba.trans hb htb
  rw [exists_retype_iff]
  by_cases hsame : t.signature = a
  · exact .inl hsame
  · -- One of the two retypes has put a node in front, so the host runs retypes.
    have hretypes : h.retypes .checked = true := by
      rcases exists_retype_iff.mp ⟨_, hinner⟩ with rfl | hcan
      · rcases exists_retype_iff.mp ⟨_, houter⟩ with heq | hcan
        · exact absurd (hsig.symm.trans heq) hsame
        · exact (canRetype_iff.mp hcan).1
      · exact (canRetype_iff.mp hcan).1
    exact .inr (canRetype_iff.mpr ⟨hretypes, hat⟩)

/-- A handle that has been retyped twice can be retyped at once. For arguments in line with the
    signature asked for, and if the handle's own result is in line with its return type, a call
    gives the same result or the same error either way. -/
theorem retype_retype (U : Universe) (h : Host) (a b : Signature) (t r₁ r₂ : Handle)
    (hb : ∀ u ∈ b.types, U.Has u) (hinner : h.retype b t .checked = .ok r₁)
    (houter : h.retype a r₁ .checked = .ok r₂) :
    ∃ r, h.retype a t .checked = .ok r ∧ ∀ args, Value.conformAll args a.params false = args →
      t.ReturnsInLine (Value.conformAll args t.signature.params false) →
      r₂.invoke args = r.invoke args := by
  obtain ⟨r, hok⟩ := exists_retype_of_retype hb hinner houter
  refine ⟨r, hok, ?_⟩
  intro args hargs hreturns
  obtain ⟨hbt, hsig₁, -⟩ := of_retype hinner
  obtain ⟨hab, hsig₂, -⟩ := of_retype houter
  obtain ⟨-, hsig, -⟩ := of_retype hok
  rw [hsig₁] at hab
  by_cases hlen : args.length = a.arity
  · have hmids : (Value.conformAll args b.params false).length = b.arity := by
      rw [Value.length_conformAll, hlen]
      exact hab.params.length_eq
    have hpath := Value.conformAll_through hargs hab.params hbt.params
    have hinline := Value.conformAll_self args b.params false
    have hreturns₁ : t.ReturnsInLine (Value.conformAll (Value.conformAll args b.params false)
        t.signature.params false) := by
      rw [hpath]
      exact hreturns
    have hcall₁ := invoke_retype hinner hmids hinline hreturns₁
    have hcall₂ := invoke_retype houter hlen hargs
      (by rw [hsig₁]; exact returnsInLine_retype hinner hmids hinline hreturns₁)
    rw [hcall₂, hsig₁, hcall₁, hpath, invoke_retype hok hlen hargs hreturns]
    cases hresult : t.invoke (Value.conformAll args t.signature.params false) with
    | error e => rfl
    | ok result =>
      have hret := Value.coerce_through (hreturns result hresult)
        (Signature.returnsMatch_checked_iff.mp hbt.ret)
        (Signature.returnsMatch_checked_iff.mp hab.ret)
      exact congrArg Except.ok hret
  · rw [Handle.invoke, Handle.invoke, hsig₂, hsig, if_neg hlen, if_neg hlen]

/-- A negative byte goes through a short to an int, a string through an interface to the root, and
    the result through the interface too. -/
theorem retype_retype_byte :
    let queue : Ty := .iface "Queue" []
    let t : Handle := .direct "f" ⟨[.prim .int, .object], .object⟩ HostFunction.echo
    let b : Signature := ⟨[.prim .short, queue], queue⟩
    let a : Signature := ⟨[.prim .byte, .string], .object⟩
    let args : List Value := [.prim (.byte (-5)), .str "x"]
    ∃ r₁ r₂ r, ({} : Host).retype b t .checked = .ok r₁ ∧
      ({} : Host).retype a r₁ .checked = .ok r₂ ∧
      ({} : Host).retype a t .checked = .ok r ∧ Value.conformAll args a.params false = args ∧
      r₂.invoke args = r.invoke args ∧
      r.invoke args = .ok (.array (.array .object) [.prim (.int (-5)), .str "x"]) := by
  intro queue t b a args
  let U := Universe.ofList [.prim .short, queue] (by decide)
  have hinner : ({} : Host).retype b t .checked = .ok (.adapter b (.retype .checked) t) := rfl
  have houter : ({} : Host).retype a (.adapter b (.retype .checked) t) .checked =
      .ok (.adapter a (.retype .checked) (.adapter b (.retype .checked) t)) := rfl
  have hb : ∀ u ∈ b.types, U.Has u := by decide
  obtain ⟨r, hok, hsame⟩ := retype_retype U {} a b t _ _ hb hinner houter
  have hreturns : t.ReturnsInLine (Value.conformAll args t.signature.params false) :=
    fun result _ => Value.coerce_of_isReference rfl result false
  refine ⟨_, _, r, hinner, houter, hok, rfl, hsame args rfl hreturns, ?_⟩
  rw [← hsame args rfl hreturns]
  rfl

end Host

end CallBridge
