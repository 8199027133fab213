import CallBridge.Proofs.Adapting

/-!
# Calls of adapted handles

Conversions are stacked from the first position to the last, so a call runs them from
the last position to the first. In between, primitives are brought in line with the
parameters of every node on the way. The reference below knows nothing of this: it
says what becomes of each argument by itself. A chain of conversions agrees with it
because a conversion leaves all other arguments as good as untouched.
-/

namespace CallBridge

namespace Value

/-! ## Arguments in line -/

theorem conform_self (v : Value) (type : Ty) (raw : Bool) :
    (v.conform type raw).conform type raw = v.conform type raw := by
  cases v with
  | prim d =>
    cases type with
    | void => rfl
    | prim kind =>
      obtain ⟨e, he, hkind⟩ := exists_coerce_prim d kind raw
      rw [conform, he, conform, coerce_prim_self hkind]
    | null | object | cls | iface | array => rfl
  | void | null | str | boxed | array | object => rfl

theorem conform_of_isReference_type {type : Ty} (h : type.isReference = true) (v : Value)
    (raw : Bool) : v.conform type raw = v := by
  cases v with
  | prim d => exact coerce_of_isReference h (prim d) raw
  | void | null | str | boxed | array | object => rfl

theorem conform_of_kindAgrees {v : Value} {type : Ty} (h : v.KindAgrees type)
    (hvoid : type ≠ .void) : v.conform type false = v := by
  cases v with
  | prim d =>
    cases type with
    | void => exact absurd rfl hvoid
    | prim kind => exact coerce_prim_self (h d kind rfl rfl) false
    | null | object | cls | iface | array => rfl
  | void | null | str | boxed | array | object => rfl

theorem kindAgrees_conform (v : Value) (type : Ty) : (v.conform type false).KindAgrees type := by
  rintro d kind hd rfl
  cases v with
  | prim d' =>
    obtain ⟨e, he, hkind⟩ := exists_coerce_prim d' kind false
    rw [conform, he] at hd
    cases hd
    exact hkind
  | void | null | str | boxed | array | object => cases hd

theorem conformAll_self (args : List Value) (types : List Ty) (raw : Bool) :
    conformAll (conformAll args types raw) types raw = conformAll args types raw := by
  induction args generalizing types with
  | nil => cases types <;> rfl
  | cons v vs ih =>
    cases types with
    | nil => rfl
    | cons type types => simp only [conformAll, conform_self, ih]

theorem kindAgrees_conformAll {args : List Value} {types : List Ty}
    (hlen : args.length = types.length) :
    List.Forall₂ KindAgrees (conformAll args types false) types := by
  induction args generalizing types with
  | nil =>
    cases types with
    | nil => exact .nil
    | cons type types => cases hlen
  | cons v vs ih =>
    cases types with
    | nil => cases hlen
    | cons type types =>
      exact .cons (kindAgrees_conform v type) (ih (Nat.succ.inj hlen))

/-! ## One argument -/

/-- What becomes of an argument that the caller declares as `src` and the callee as `dst`. -/
def passAs (v : Value) (src dst : Ty) : Except InvokeError Value :=
  if src.passesFreely dst then .ok (v.conform dst false)
  else
    match src, dst with
    | .prim _, .prim kind =>
      match v with
      | prim d => .ok (prim (d.convert kind))
      | _ => .error (.classCast v (.prim kind))
    | _, .prim kind =>
      match v with
      | boxed d => if d.kind = kind then .ok (prim d) else .error (.classCast v (.wrapper kind))
      | null => .error (.nullPointer (.wrapper kind))
      | _ => .error (.classCast v (.wrapper kind))
    | _, _ => if v.isInstanceOf dst then .ok v else .error (.classCast v dst)

section PassAs

variable {v w : Value} {src dst : Ty}

theorem passAs_of_passesFreely (hfree : src.passesFreely dst = true) :
    v.passAs src dst = .ok (v.conform dst false) :=
  if_pos hfree

theorem passAs_prim {p q : Prim} (hfree : (Ty.prim p).passesFreely (.prim q) = false) :
    v.passAs (.prim p) (.prim q) = v.primCast q := by
  unfold passAs
  rw [hfree]
  cases v <;> rfl

theorem passAs_unbox (hsrc : src.isReference = true) (q : Prim) :
    v.passAs src (.prim q) = v.unbox q (.wrapper q) := by
  have hunbox : v.passAs src (.prim q) = v.passAs .object (.prim q) := by
    unfold passAs
    rw [Ty.not_passesFreely_prim hsrc]
    cases src with
    | void | prim => cases hsrc
    | null | object | cls | iface | array => rfl
  rw [hunbox]
  cases v with
  | boxed d =>
    change (if d.kind = q then _ else _) = _
    split
    · rename_i hkind
      simp [unbox, Datum.convert, hkind]
    · rename_i hkind
      simp [unbox, Ne.symm hkind]
  | void | null | prim | str | array | object => rfl

theorem passAs_cast (hdst : dst.isReference = true) (hfree : src.passesFreely dst = false) :
    v.passAs src dst = do v.checkCast dst; return v := by
  have hcast : v.passAs src dst =
      if v.isInstanceOf dst then .ok v else .error (.classCast v dst) := by
    unfold passAs
    rw [hfree]
    cases dst with
    | void | prim => cases hdst
    | null | object | cls | iface | array => cases src <;> rfl
  rw [hcast, checkCast]
  split <;> rfl

/-- A cast to the wrapper class in front of an unboxing makes no difference. -/
theorem checkCast_unbox (v : Value) (q : Prim) :
    (do v.checkCast (.wrapper q); v.unbox q (.wrapper q)) = v.unbox q (.wrapper q) := by
  unfold checkCast
  split
  · rfl
  · rename_i hcast
    cases v with
    | null => exact absurd (Ty.isReference_wrapper q) hcast
    | boxed d =>
      have hkind : q ≠ d.kind := by
        rintro rfl
        exact hcast (Ty.accepts_self _)
      simp only [unbox, Ty.unboxed?_wrapper, Option.some.injEq, if_neg hkind]
      rfl
    | void | prim | str | array | object => rfl

/-- An argument that has been converted is in line with the type it was converted to. -/
theorem conform_of_passAs (hconv : src.converts dst = true) (hw : v.passAs src dst = .ok w) :
    w.conform dst false = w := by
  cases hfree : src.passesFreely dst with
  | true =>
    rw [passAs_of_passesFreely hfree] at hw
    cases hw
    exact conform_self v dst false
  | false =>
    rcases Ty.of_converts hconv hfree with ⟨p, q, rfl, rfl, -⟩ | ⟨hsrc, q, rfl⟩ | ⟨-, hdst⟩
    · rw [passAs_prim hfree] at hw
      cases v with
      | prim d =>
        cases hw
        exact coerce_prim_self (Datum.kind_convert d q) false
      | void | null | str | boxed | array | object => cases hw
    · rw [passAs_unbox hsrc] at hw
      cases v with
      | boxed d =>
        rw [unbox] at hw
        split at hw
        · cases hw
          exact coerce_prim_self (Datum.kind_convert d q) false
        · cases hw
      | void | null | prim | str | array | object => cases hw
    · rw [passAs_cast hdst hfree] at hw
      obtain ⟨-, -, hw⟩ := bind_eq_ok_iff.mp hw
      cases hw
      exact conform_of_isReference_type hdst v false

/-- What an argument is passed as does not change where it goes: a caller that declares the callee's
    type has it in line with that type already. -/
theorem passAs_conform {caller callee final : Ty} (hkind : v.KindAgrees caller)
    (h : Ty.Settles caller callee final) :
    (v.conform callee false).passAs callee final = v.passAs caller final := by
  rcases h with ⟨rfl, hvoid⟩ | ⟨hfree, rfl⟩
  · rw [conform_of_kindAgrees hkind hvoid]
  · rw [passAs_of_passesFreely hfree, passAs_of_passesFreely (Ty.passesFreely_refl _), conform_self]

end PassAs

/-! ## All arguments -/

/-- What becomes of all arguments. The last one that is refused decides the error. -/
def passAllAs : (args : List Value) → (srcs dsts : List Ty) → Except InvokeError (List Value)
  | v :: vs, src :: srcs, dst :: dsts => do
    let ws ← passAllAs vs srcs dsts
    let w ← v.passAs src dst
    return w :: ws
  | vs, _, _ => .ok vs

section PassAllAs

variable {args out : List Value} {srcs dsts : List Ty}

theorem length_passAllAs (h : passAllAs args srcs dsts = .ok out) : out.length = args.length := by
  induction args generalizing srcs dsts out with
  | nil =>
    cases h
    rfl
  | cons v vs ih =>
    cases srcs with
    | nil =>
      cases h
      rfl
    | cons src srcs =>
      cases dsts with
      | nil =>
        cases h
        rfl
      | cons dst dsts =>
        obtain ⟨ws, hws, hrest⟩ := bind_eq_ok_iff.mp h
        obtain ⟨w, -, hout⟩ := bind_eq_ok_iff.mp hrest
        cases hout
        simp only [List.length_cons, ih hws]

theorem passAllAs_of_passAll (hpass : Ty.PassAll .checked srcs dsts) (args : List Value) :
    passAllAs args srcs dsts = .ok (conformAll args dsts false) := by
  induction hpass generalizing args with
  | nil => cases args <;> rfl
  | cons hhead _ ih =>
    cases args with
    | nil => rfl
    | cons v vs =>
      rw [passAllAs, ih, passAs_of_passesFreely (Ty.passing_checked_iff.mp hhead)]
      rfl

variable {src dst : Ty} {i : Nat} {callers callees finals : List Ty} {v : Value}

/-- Converting the argument at `i` on its own and bringing all others in line with the callee's types
    leaves the rest of the work to be done on the callee's side. -/
theorem passAllAs_of_convertsAt (hat : Ty.ConvertsAt src dst i callers callees finals)
    (hconv : src.converts dst = true) (hkinds : List.Forall₂ KindAgrees args callers)
    (hv : args[i]? = some v) :
    passAllAs args callers finals = (do
      let w ← v.passAs src dst
      passAllAs (conformAll (args.set i w) callees false) callees finals) := by
  induction hat generalizing args with
  | @here srcs dsts _ hpass =>
    cases hkinds with
    | @cons _ _ vs _ hkind htail =>
      cases hv
      rw [passAllAs, passAllAs_of_passAll hpass]
      change (do let w ← v.passAs src dst; return w :: conformAll vs dsts false) = _
      cases hw : v.passAs src dst with
      | error e => rfl
      | ok w =>
        change _ = passAllAs (conformAll (w :: vs) (dst :: dsts) false) (dst :: dsts) (dst :: dsts)
        rw [passAllAs_of_passAll (Ty.passAll_refl _), conformAll_self, conformAll,
          conform_of_passAs hconv hw]
        rfl
  | @later i caller callee final callers callees finals hhead _ ih =>
    cases hkinds with
    | @cons u _ us _ hkind htail =>
      rw [passAllAs, ih htail hv]
      cases v.passAs src dst with
      | error e => rfl
      | ok w =>
        change _ = passAllAs (u.conform callee false :: conformAll (us.set i w) callees false)
          (callee :: callees) (final :: finals)
        rw [passAllAs, passAs_conform hkind hhead]
        rfl

/-- A node in between that differs from the caller at `i` only does not show. -/
theorem conformAll_set_of_convertsAt (hat : Ty.ConvertsAt src dst i callers callees finals)
    (hkinds : List.Forall₂ KindAgrees args callers) (type : Ty) (w : Value) :
    conformAll ((conformAll args (callers.set i type) false).set i w) callees false =
      conformAll (args.set i w) callees false := by
  induction hat generalizing args with
  | here _ hpass =>
    cases hkinds with
    | cons _ htail =>
      simp only [List.set_cons_zero, conformAll, conformAll_conformAll hpass htail]
  | later hhead _ ih =>
    cases hkinds with
    | cons hkind htail =>
      simp only [List.set_cons_succ, conformAll, ih htail,
        conform_conform hkind hhead.passesFreely]

theorem getElem?_conformAll {type : Ty} (hv : args[i]? = some v) (htype : srcs[i]? = some type)
    (raw : Bool) : (conformAll args srcs raw)[i]? = some (v.conform type raw) := by
  induction args generalizing srcs i with
  | nil => cases hv
  | cons u us ih =>
    cases srcs with
    | nil => cases htype
    | cons t ts =>
      cases i with
      | zero =>
        cases hv
        cases htype
        rfl
      | succ i => exact ih hv htype

end PassAllAs

end Value

/-! ## One conversion -/

namespace Handle

variable {t u : Handle} {s : Signature} {src dst : Ty} {i : Nat} {args : List Value} {v : Value}
variable {pending : List Return} {finals : List Ty}

/-- Coming back through a return type a second time makes no difference. -/
theorem run_repeat (t : Handle) (args : List Value) (r : Return) (pending : List Return) :
    t.run args (r :: r :: pending) = t.run args (r :: pending) := by
  rw [run_eq_map t args (r :: r :: pending), run_eq_map t args (r :: pending)]
  cases t.run args [] with
  | error e => rfl
  | ok result =>
    change Except.ok (unwind pending ((result.coerce r.type r.raw).coerce r.type r.raw)) = _
    rw [Value.coerce_coerce]
    rfl

/-- A node that replaces the argument at `i`. -/
theorem run_adapter_of_set {step : Step} {x : Except InvokeError Value}
    (hstep : step.run args = do return args.set i (← x)) (hraw : step.isRaw = false) :
    (adapter s step t).run args pending = (do
      let w ← x
      t.run (Value.conformAll (args.set i w) t.signature.params false) (⟨s.ret, false⟩ :: pending)) := by
  rw [run, hstep, hraw]
  cases x <;> rfl

theorem run_cast (hv : args[i]? = some v) (type : Ty) :
    (adapter s (.cast i type) t).run args pending = (do
      v.checkCast type
      t.run (Value.conformAll args t.signature.params false) (⟨s.ret, false⟩ :: pending)) := by
  have harg : Step.argAt args i = .ok v := by rw [Step.argAt, hv]
  rw [run, Step.run, harg]
  change ((do v.checkCast type; return args) >>= _) = _
  cases v.checkCast type <;> rfl

theorem run_unbox (hv : args[i]? = some v) (kind : Prim) :
    (adapter s (.unbox i kind (.wrapper kind)) t).run args pending = (do
      let w ← v.unbox kind (.wrapper kind)
      t.run (Value.conformAll (args.set i w) t.signature.params false) (⟨s.ret, false⟩ :: pending)) := by
  refine run_adapter_of_set ?_ rfl
  rw [Step.run, Step.argAt, hv]
  rfl

/-- A cast to the wrapper class and an unboxing come to an unboxing. -/
theorem run_cast_unbox {kind : Prim}
    (hat : Ty.ConvertsAt src (.prim kind) i s.params t.signature.params finals)
    (hkinds : List.Forall₂ Value.KindAgrees args s.params) (hv : args[i]? = some v) :
    (adapter s (.cast i (.wrapper kind)) (adapter (s.withParam i (.wrapper kind))
      (.unbox i kind (.wrapper kind)) t)).run args pending = (do
        let w ← v.unbox kind (.wrapper kind)
        t.run (Value.conformAll (args.set i w) t.signature.params false)
          (⟨s.ret, false⟩ :: pending)) := by
  have hi : i < s.arity := (List.getElem?_eq_some_iff.mp hat.caller).1
  have hmid : (Value.conformAll args (s.withParam i (.wrapper kind)).params false)[i]? = some v := by
    rw [Value.getElem?_conformAll hv (Signature.param?_withParam_self hi) false,
      Value.conform_of_isReference_type (Ty.isReference_wrapper kind)]
  -- The node in between hands on the argument at `i` and returns through the same type.
  have hinner : (adapter (s.withParam i (.wrapper kind)) (.unbox i kind (.wrapper kind)) t).run
      (Value.conformAll args (s.withParam i (.wrapper kind)).params false)
      (⟨s.ret, false⟩ :: pending) = (do
        let w ← v.unbox kind (.wrapper kind)
        t.run (Value.conformAll (args.set i w) t.signature.params false)
          (⟨s.ret, false⟩ :: pending)) := by
    rw [run_unbox hmid]
    cases v.unbox kind (.wrapper kind) with
    | error e => rfl
    | ok w =>
      change t.run (Value.conformAll ((Value.conformAll args (s.params.set i (.wrapper kind))
        false).set i w) _ false) (⟨s.ret, false⟩ :: ⟨s.ret, false⟩ :: pending) = t.run _ _
      rw [Value.conformAll_set_of_convertsAt hat hkinds, run_repeat]
  have hcast := Value.checkCast_unbox v kind
  rw [run_cast hv]
  change (do v.checkCast (.wrapper kind); _) = _
  rw [signature_adapter, hinner]
  cases h : v.checkCast (.wrapper kind) with
  | error e =>
    rw [h] at hcast
    rw [← hcast]
    rfl
  | ok => rfl

/-- What a conversion does to its argument does not depend on how many nodes it takes. -/
theorem run_converting (hat : Ty.ConvertsAt src dst i s.params t.signature.params finals)
    (hconv : src.converts dst = true) (hkinds : List.Forall₂ Value.KindAgrees args s.params)
    (hv : args[i]? = some v) :
    (t.converting s i src dst).run args pending = (do
      let w ← v.passAs src dst
      t.run (Value.conformAll (args.set i w) t.signature.params false)
        (⟨s.ret, false⟩ :: pending)) := by
  have hfree := hat.not_passesFreely
  rcases Ty.of_converts hconv hfree with ⟨p, q, rfl, rfl, -⟩ | ⟨hsrc, q, rfl⟩ | ⟨hsrc, hdst⟩
  · rw [Value.passAs_prim hfree]
    refine run_adapter_of_set ?_ rfl
    rw [Step.run, Step.argAt, hv]
    rfl
  · rw [Value.passAs_unbox hsrc, converting_unbox hsrc]
    split
    · exact run_unbox hv q
    · exact run_cast_unbox hat hkinds hv
  · rw [Value.passAs_cast hdst hfree, converting_cast hdst, run_cast hv]
    cases v.checkCast dst with
    | error e => rfl
    | ok =>
      have hset : args.set i v = args := by
        obtain ⟨hi, rfl⟩ := List.getElem?_eq_some_iff.mp hv
        exact List.set_getElem_self hi
      change _ = t.run (Value.conformAll (args.set i v) _ _) _
      rw [hset]
      rfl

/-! ## All conversions -/

/-- Whether `t` comes to `u` as the reference does, for arguments in line with its own parameters
    and a caller that waits for `ret`. -/
def ComesTo (t u : Handle) (ret : Ty) : Prop :=
  ∀ args, args.length = t.signature.arity →
    Value.conformAll args t.signature.params false = args →
    t.run args [⟨ret, false⟩] = (do
      let passed ← Value.passAllAs args t.signature.params u.signature.params
      u.run passed [⟨ret, false⟩])

theorem comesTo_self (t : Handle) (ret : Ty) : t.ComesTo t ret := by
  intro args _ hline
  rw [Value.passAllAs_of_passAll (Ty.passAll_refl _), hline]
  rfl

/-- One more conversion in front. -/
theorem ComesTo.run_converting (ht : t.ComesTo u s.ret)
    (hat : Ty.ConvertsAt src dst i s.params t.signature.params u.signature.params)
    (hconv : src.converts dst = true) (hkinds : List.Forall₂ Value.KindAgrees args s.params)
    (hpending : ∀ args, t.run args (⟨s.ret, false⟩ :: pending) = t.run args [⟨s.ret, false⟩]) :
    (t.converting s i src dst).run args pending = (do
      let passed ← Value.passAllAs args s.params u.signature.params
      u.run passed [⟨s.ret, false⟩]) := by
  have hi : i < args.length := by
    rw [hkinds.length_eq]
    exact (List.getElem?_eq_some_iff.mp hat.caller).1
  have hv := List.getElem?_eq_getElem hi
  rw [Handle.run_converting hat hconv hkinds hv, Value.passAllAs_of_convertsAt hat hconv hkinds hv]
  cases args[i].passAs src dst with
  | error e => rfl
  | ok w =>
    change t.run _ _ = _
    rw [hpending]
    refine ht _ ?_ (Value.conformAll_self _ _ _)
    rw [Value.length_conformAll, List.length_set, hkinds.length_eq]
    exact hat.length_eq

theorem ComesTo.converting (ht : t.ComesTo u s.ret)
    (hat : Ty.ConvertsAt src dst i s.params t.signature.params u.signature.params)
    (hconv : src.converts dst = true) : (t.converting s i src dst).ComesTo u s.ret := by
  intro args hlen hline
  rw [signature_converting] at hlen hline ⊢
  have hkinds := Value.kindAgrees_conformAll hlen
  rw [hline] at hkinds
  exact ht.run_converting hat hconv hkinds fun args => run_repeat t args _ []

variable {target : Handle} {new : Signature}

/-- The chain in the middle of an adaptation. -/
theorem comesTo_midway (hconv : Ty.ConvertAll new.params target.signature.params)
    (hi : i ≤ new.arity) : (target.midway new i).ComesTo target new.ret := by
  have harity : new.arity = target.signature.arity := hconv.length_eq
  induction i with
  | zero => exact comesTo_self target new.ret
  | succ i ih =>
    have htail := ih (Nat.le_of_succ_le hi)
    rw [midway]
    split
    · exact htail
    · rename_i hfree
      rw [Bool.not_eq_true] at hfree
      have hat := Ty.convertsAt_midway hconv (Signature.param?_eq_paramAt hi)
        (Signature.param?_eq_paramAt (harity ▸ hi)) hfree
      rw [← params_midway harity (Nat.le_of_succ_le hi)] at hat
      exact htail.converting (s := new.midway target.signature (i + 1)) hat
        (Signature.rel_paramAt hconv hi)

/-- The whole chain, for a caller that has not brought its arguments in line. -/
theorem run_adapted (hconv : Ty.ConvertAll new.params target.signature.params)
    (hkinds : List.Forall₂ Value.KindAgrees args new.params) :
    (target.adapted new).run args [] = (do
      let passed ← Value.passAllAs args new.params target.signature.params
      target.run passed [⟨new.ret, false⟩]) := by
  have harity : new.arity = target.signature.arity := hconv.length_eq
  unfold adapted
  cases hlast : new.lastConversion? target.signature with
  | some last =>
    obtain ⟨hin, hwork, hafter⟩ := Signature.of_lastConversion? harity hlast
    have hat := Ty.convertsAt_last hconv (Signature.param?_eq_paramAt hin)
      (Signature.param?_eq_paramAt (harity ▸ hin)) hwork hafter
    rw [← params_midway harity (Nat.le_of_lt hin)] at hat
    exact (comesTo_midway hconv (Nat.le_of_lt hin)).run_converting hat
      (Signature.rel_paramAt hconv hin) hkinds fun _ => rfl
  | none =>
    rw [Value.passAllAs_of_passAll ((Signature.lastConversion?_eq_none_iff harity).mp hlast)]
    rfl

/-- Calling an adapted handle is passing the arguments and calling the target. -/
theorem invoke_adapted (hconv : Ty.ConvertAll new.params target.signature.params)
    (hkinds : List.Forall₂ Value.KindAgrees args new.params) :
    (target.adapted new).invoke args = (do
      let passed ← Value.passAllAs args new.params target.signature.params
      let result ← target.invoke passed
      return result.coerce new.ret false) := by
  have hlen : args.length = (target.adapted new).signature.arity := by
    rw [signature_adapted]
    exact hkinds.length_eq
  rw [invoke, if_pos hlen, run_adapted hconv hkinds]
  cases hpassed : Value.passAllAs args new.params target.signature.params with
  | error e => rfl
  | ok passed =>
    have htarget : passed.length = target.signature.arity := by
      rw [Value.length_passAllAs hpassed, hkinds.length_eq]
      exact hconv.length_eq
    exact run_eq_invoke_bind htarget ⟨new.ret, false⟩

end Handle

/-- A call of a handle that has been adapted to another signature takes each argument by itself, from
    the last one to the first. Where the caller's type does not pass freely, a primitive is
    converted to the target's kind, a wrapper of exactly that kind is opened, and any other reference
    has to be an instance of what the target takes. The first argument that is refused on the way is
    the error. Otherwise the target is called, and its result is brought in line with the return type
    asked for. -/
theorem Host.invoke_adapt (h : Host) (new : Signature) (target r : Handle) (args : List Value)
    (hne : target.signature ≠ new) (hok : h.adapt new target = .ok r)
    (hargs : List.Forall₂ Value.KindAgrees args new.params) :
    r.invoke args = (do
      let passed ← Value.passAllAs args new.params target.signature.params
      let result ← target.invoke passed
      return result.coerce new.ret false) := by
  obtain ⟨hadapts, rfl⟩ := eq_adapted_of_adapt hne hok
  exact Handle.invoke_adapted (Signature.adaptsTo_iff.mp hadapts).2 hargs

/-- Two arguments are refused, and the later one is reported; with other arguments all is well. -/
theorem Host.invoke_adapt_two_refused :
    let f : Handle :=
      .direct "f" ⟨[.prim .int, .string, .prim .int], .object⟩ HostFunction.echo
    let new : Signature := ⟨[.object, .object, .prim .short], .object⟩
    let refused : List Value := [.null, .boxed (.long 5), .prim (.short 3)]
    let taken : List Value := [.boxed (.int 7), .str "a", .prim (.short 3)]
    ∃ r, f.signature ≠ new ∧ ({} : Host).adapt new f = .ok r ∧
      List.Forall₂ Value.KindAgrees refused new.params ∧
      List.Forall₂ Value.KindAgrees taken new.params ∧
      r.invoke refused = .error (.classCast (.boxed (.long 5)) .string) ∧
      r.invoke taken =
        .ok (.array (.array .object) [.prim (.int 7), .str "a", .prim (.int 3)]) := by
  intro f new refused taken
  have hne : f.signature ≠ new := by decide
  have hok : ({} : Host).adapt new f = .ok (f.adapted new) :=
    adapt_eq_ok ⟨rfl, rfl, rfl, rfl⟩ hne rfl
  have hrefused : List.Forall₂ Value.KindAgrees refused new.params := by
    refine .cons ?_ (.cons ?_ (.cons ?_ .nil)) <;> rintro d kind ⟨⟩ ⟨⟩
    rfl
  have htaken : List.Forall₂ Value.KindAgrees taken new.params := by
    refine .cons ?_ (.cons ?_ (.cons ?_ .nil)) <;> rintro d kind ⟨⟩ ⟨⟩
    rfl
  refine ⟨_, hne, hok, hrefused, htaken, ?_, ?_⟩
  · rw [invoke_adapt {} new f _ refused hne hok hrefused]
    rfl
  · rw [invoke_adapt {} new f _ taken hne hok htaken]
    rfl

end CallBridge
