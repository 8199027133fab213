import CallBridge.Proofs.AdaptedCalls
import CallBridge.Proofs.Collecting
import CallBridge.Proofs.Typing

/-!
# Calls through collectors

A caller of a collector either passes the array itself or has its trailing arguments
gathered into one. The first is an adaptation of the function, in which the array
passes as it is. In the second the arguments are first converted one by one, as for
a function that takes the elements separately, and then gathered: the order in which
a call runs the steps is the reverse of the order in which they were built. Where a
caller has exactly the types of that function, no step is built, and what it hands
over is gathered as it is; that makes a difference for elements of type void only.
-/

namespace CallBridge

/-! ## Passing the array -/

namespace Ty

theorem isReference_of_array_accepts {elem src : Ty} (h : (array elem).accepts src = true) :
    src.isReference = true := by
  cases src with
  | null | object | cls | iface | array => rfl
  | void | prim => simp [accepts] at h

/-- What an array variable may hold passes wherever the array passes. -/
theorem passesFreely_of_array_accepts {elem src dst : Ty} (hsrc : (array elem).accepts src = true)
    (hdst : (array elem).passesFreely dst = true) : src.passesFreely dst = true := by
  by_cases hvoid : dst = .void
  · rw [hvoid]
    exact passesFreely_void src
  · rcases of_passesFreely hdst hvoid with ⟨p, q, harray, -⟩ | ⟨-, href, habove⟩
    · cases harray
    · refine passesFreely_of_isReference (isReference_of_array_accepts hsrc) href ?_
      rcases habove with hiface | haccepts
      · exact .inl hiface
      · exact .inr (accepts_trans src haccepts hsrc)

end Ty

namespace Handle

variable {P : Nat → Prop} {r t u : Handle}

/-- Whether `r` is `t` behind elementary steps, all of them at positions with property `P`. -/
def StepsAt (P : Nat → Prop) (r t : Handle) : Prop :=
  ∃ nodes, r.chain = nodes ++ t.chain ∧ ∀ node ∈ nodes, ∃ s step u,
    node = adapter s step u ∧ ∀ i, step.argPos? = some i → P i

theorem stepsAt_refl (P : Nat → Prop) (t : Handle) : StepsAt P t t :=
  ⟨[], rfl, by simp⟩

theorem StepsAt.mono {Q : Nat → Prop} (ht : StepsAt P t u) (hmono : ∀ i, P i → Q i) :
    StepsAt Q t u := by
  obtain ⟨nodes, hchain, hnodes⟩ := ht
  refine ⟨nodes, hchain, ?_⟩
  intro node hmem
  obtain ⟨s, step, target, hnode, hstep⟩ := hnodes node hmem
  exact ⟨s, step, target, hnode, fun i hi => hmono i (hstep i hi)⟩

theorem StepsAt.adapter (ht : StepsAt P t u) (s : Signature) {step : Step}
    (hstep : ∀ i, step.argPos? = some i → P i) : StepsAt P (adapter s step t) u := by
  obtain ⟨nodes, hchain, hnodes⟩ := ht
  refine ⟨.adapter s step t :: nodes, ?_, ?_⟩
  · rw [chain, hchain]
    rfl
  · intro node hmem
    rcases List.mem_cons.mp hmem with rfl | hmem
    · exact ⟨s, step, t, rfl, hstep⟩
    · exact hnodes node hmem

theorem StepsAt.converting (ht : StepsAt P t u) (s : Signature) {i : Nat} (hi : P i)
    (src dst : Ty) : StepsAt P (t.converting s i src dst) u := by
  have hat : ∀ {step : Step}, step.argPos? = some i → ∀ j, step.argPos? = some j → P j := by
    intro step hstep j hj
    rw [hstep] at hj
    cases hj
    exact hi
  unfold Handle.converting
  split
  · split
    · exact ht.adapter s (hat rfl)
    · split
      · exact ht.adapter s (hat rfl)
      · exact (ht.adapter _ (hat rfl)).adapter s (hat rfl)
  · exact ht.adapter s (hat rfl)

/-- An adaptation has steps only where an argument does not pass freely. -/
theorem stepsAt_midway (target : Handle) (new : Signature) (i : Nat) :
    StepsAt (fun j => (new.paramAt j).passesFreely (target.signature.paramAt j) = false)
      (target.midway new i) target := by
  induction i with
  | zero => exact stepsAt_refl _ target
  | succ i ih =>
    rw [midway]
    split
    · exact ih
    · rename_i hfree
      exact ih.converting _ (Bool.not_eq_true _ ▸ hfree) _ _

theorem stepsAt_adapted {target : Handle} {new : Signature}
    (harity : new.arity = target.signature.arity) :
    StepsAt (fun j => (new.paramAt j).passesFreely (target.signature.paramAt j) = false)
      (target.adapted new) target := by
  unfold adapted
  cases hlast : new.lastConversion? target.signature with
  | some last =>
    obtain ⟨-, hwork, -⟩ := Signature.of_lastConversion? harity hlast
    exact (stepsAt_midway target new last).converting new hwork _ _
  | none =>
    refine (stepsAt_refl _ target).adapter new ?_
    rintro i ⟨⟩

end Handle

/-- Where all conversions are at hand, what adapts is adapted. -/
theorem Host.exists_adapt_iff {h : Host} (hh : h.RunsAdaptations) {new : Signature}
    {target : Handle} :
    (∃ r, h.adapt new target = .ok r) ↔ target.signature.adaptsTo new = true := by
  by_cases hsame : target.signature = new
  · refine ⟨fun _ => hsame ▸ Signature.adaptsTo_refl _, fun _ => ⟨target, ?_⟩⟩
    exact if_pos hsame
  · constructor
    · rintro ⟨r, hok⟩
      exact (eq_adapted_of_adapt hsame hok).1
    · intro hadapts
      exact ⟨_, adapt_eq_ok hh hsame hadapts⟩

theorem Host.stepsAt_of_adapt {h : Host} {new : Signature} {target r : Handle}
    (hok : h.adapt new target = .ok r) :
    r.StepsAt (fun j => (new.paramAt j).passesFreely (target.signature.paramAt j) = false)
      target := by
  by_cases hsame : target.signature = new
  · rw [adapt, if_pos hsame] at hok
    cases hok
    exact Handle.stepsAt_refl _ target
  · obtain ⟨hadapts, rfl⟩ := eq_adapted_of_adapt hsame hok
    exact Handle.stepsAt_adapted (Signature.adaptsTo_iff.mp hadapts).2.length_eq

/-! ## Arguments in two parts -/

namespace Value

variable {args out : List Value}

theorem conformAll_append (args : List Value) (ts us : List Ty) (raw : Bool) :
    conformAll args (ts ++ us) raw =
      conformAll (args.take ts.length) ts raw ++ conformAll (args.drop ts.length) us raw := by
  induction ts generalizing args with
  | nil => cases args <;> rfl
  | cons t ts ih =>
    cases args with
    | nil => cases us <;> rfl
    | cons v vs =>
      simp only [List.cons_append, conformAll, List.length_cons, List.take_succ_cons,
        List.drop_succ_cons, ih]

/-- Arguments that have been converted are in line with the types they were converted to. -/
theorem conformAll_of_passAllAs {srcs dsts : List Ty} (hconv : Ty.ConvertAll srcs dsts)
    (hout : passAllAs args srcs dsts = .ok out) : conformAll out dsts false = out := by
  induction hconv generalizing args out with
  | nil => cases out <;> rfl
  | cons hhead _ ih =>
    cases args with
    | nil =>
      cases hout
      rfl
    | cons v vs =>
      obtain ⟨ws, hws, hrest⟩ := bind_eq_ok_iff.mp hout
      obtain ⟨w, hw, hout⟩ := bind_eq_ok_iff.mp hrest
      cases hout
      rw [conformAll, ih hws, conform_of_passAs hhead hw]

theorem conformAll_of_forall₂ {types : List Ty}
    (h : List.Forall₂ (fun v type => v.conform type false = v) args types) :
    conformAll args types false = args := by
  induction h with
  | nil => rfl
  | cons hhead _ ih => rw [conformAll, hhead, ih]

/-- Elements of the right kind are in line with the element type. Only for the type void every kind
    is right, and there a primitive value is not in line. -/
theorem conformAll_replicate {elem : Ty} {n : Nat}
    (hkinds : List.Forall₂ KindAgrees args (List.replicate n elem))
    (hvoid : elem = .void → ∀ d, .prim d ∉ args) :
    conformAll args (List.replicate n elem) false = args := by
  obtain ⟨hlen, hkinds⟩ := forall₂_replicate_right_iff.mp hkinds
  refine conformAll_of_forall₂ (forall₂_replicate_right_iff.mpr ⟨hlen, fun v hv => ?_⟩)
  by_cases helem : elem = .void
  · cases v with
    | prim d => exact absurd hv (hvoid helem d)
    | void | null | str | boxed | array | object => rfl
  · exact conform_of_kindAgrees (hkinds v hv) helem

end Value

/-! ## Gathering elements -/

namespace Collector

variable {c : Collector} {elem last : Ty} {new : Signature} {args : List Value} {arity : Nat}

/-- The parameters in front of the array. -/
def front (c : Collector) : List Ty :=
  c.signature.params.dropLast

theorem length_front (c : Collector) : c.front.length = c.leading :=
  List.length_dropLast

theorem Takes.params (hc : c.Takes elem last) : c.target.signature.params = c.front ++ [last] :=
  (List.dropLast_append_getLast? last hc.lastParam?).symm

theorem params_gathering (c : Collector) (elem : Ty) (arity : Nat) :
    (c.gathering elem arity).signature.params =
      c.front ++ List.replicate (arity - c.leading) elem :=
  rfl

theorem arity_gathering (hle : c.leading ≤ arity) :
    (c.gathering elem arity).signature.arity = arity := by
  rw [Signature.arity, params_gathering, List.length_append, List.length_replicate, length_front]
  omega

/-- A collecting handle brings the leading arguments in line with the function's parameters and
    gathers the others as they are. -/
theorem Takes.invoke_gathering (hc : c.Takes elem last) (hle : c.leading ≤ arity)
    (hlen : args.length = arity) :
    (c.gathering elem arity).invoke args = (do
      let result ← c.target.invoke (Value.conformAll (args.take c.leading) c.front false ++
        [.array c.array (args.drop c.leading)])
      return result.coerce c.signature.ret false) := by
  have hfront : (args.take c.leading).length = c.front.length := by
    rw [List.length_take_of_le (by omega), length_front]
  have hgather : Handle.gather c.leading c.array args =
      .ok (args.take c.leading ++ [.array c.array (args.drop c.leading)]) :=
    if_pos (by omega)
  -- An array is in line with whatever the last parameter is.
  have hline : Value.conformAll (args.take c.leading ++ [.array c.array (args.drop c.leading)])
      c.target.signature.params false =
        Value.conformAll (args.take c.leading) c.front false ++
          [.array c.array (args.drop c.leading)] := by
    rw [hc.params, Value.conformAll_append, List.take_left' hfront, List.drop_left' hfront]
    rfl
  have htarget : (Value.conformAll (args.take c.leading) c.front false ++
      [Value.array c.array (args.drop c.leading)]).length = c.target.signature.arity := by
    rw [Signature.arity, hc.params, List.length_append, List.length_append,
      Value.length_conformAll, hfront]
    rfl
  rw [Handle.invoke, if_pos (hlen.trans (arity_gathering hle).symm), gathering, Handle.run, hgather]
  change c.target.run (Value.conformAll _ c.target.signature.params false) _ = _
  rw [hline]
  exact Handle.run_eq_invoke_bind htarget ⟨c.signature.ret, false⟩

section InLine

variable (hle : c.leading ≤ args.length)
include hle

theorem take_conformAll_gathering (elem : Ty) (arity : Nat) :
    (Value.conformAll args (c.gathering elem arity).signature.params false).take c.leading =
      Value.conformAll (args.take c.leading) c.front false := by
  rw [params_gathering, Value.conformAll_append, length_front, List.take_left']
  rw [Value.length_conformAll, List.length_take_of_le hle]

theorem drop_conformAll_gathering (elem : Ty) (arity : Nat) :
    (Value.conformAll args (c.gathering elem arity).signature.params false).drop c.leading =
      Value.conformAll (args.drop c.leading) (List.replicate (arity - c.leading) elem) false := by
  rw [params_gathering, Value.conformAll_append, length_front, List.drop_left']
  rw [Value.length_conformAll, List.length_take_of_le hle]

/-- Elements of a caller that has the collecting handle's own types are in line with them, but for
    primitive values of type void. -/
theorem drop_conformAll_gathering_self
    (hkinds : List.Forall₂ Value.KindAgrees args (c.gathering elem arity).signature.params)
    (hvoid : elem = .void → ∀ d, .prim d ∉ args.drop c.leading) :
    (Value.conformAll args (c.gathering elem arity).signature.params false).drop c.leading =
      args.drop c.leading := by
  have helems := List.forall₂_drop c.leading hkinds
  rw [params_gathering, List.drop_left' (length_front c)] at helems
  exact (drop_conformAll_gathering hle elem arity).trans (Value.conformAll_replicate helems hvoid)

end InLine

/-- Arguments that have been converted for the collecting handle are gathered as they are. -/
theorem Takes.invoke_gathering_of_conformAll (hc : c.Takes elem last) (hle : c.leading ≤ arity)
    (hlen : args.length = arity)
    (hline : Value.conformAll args (c.gathering elem arity).signature.params false = args) :
    (c.gathering elem arity).invoke args = (do
      let result ← c.target.invoke
        (args.take c.leading ++ [.array c.array (args.drop c.leading)])
      return result.coerce c.signature.ret false) := by
  have hargs : c.leading ≤ args.length := hlen ▸ hle
  have htake := take_conformAll_gathering hargs elem arity
  rw [hline] at htake
  rw [hc.invoke_gathering hle hlen, ← htake]

/-- A caller that has all the types of the collecting handle gets that handle itself, which gathers
    the elements as they are. -/
theorem Takes.invoke_of_adapt_self (hc : c.Takes elem last) {h : Host} {r : Handle}
    (hle : c.leading ≤ new.arity) (hok : h.adapt new (c.gathering elem new.arity) = .ok r)
    (hsame : new = (c.gathering elem new.arity).signature) (hlen : args.length = new.arity) :
    r.invoke args = (do
      let result ← c.target.invoke (Value.conformAll (args.take c.leading) c.front false ++
        [.array c.array (args.drop c.leading)])
      return result.coerce c.signature.ret false) := by
  rw [Host.adapt, if_pos hsame.symm] at hok
  cases hok
  exact hc.invoke_gathering hle hlen

/-- What an adapted collecting handle makes of a call. A conversion to void would take a primitive
    element away, but a caller that has all the types already gets no conversion. -/
theorem Takes.invoke_of_adapt (hc : c.Takes elem last) {h : Host} {r : Handle}
    (hle : c.leading ≤ new.arity) (hok : h.adapt new (c.gathering elem new.arity) = .ok r)
    (hkinds : List.Forall₂ Value.KindAgrees args new.params)
    (hvoid : new = (c.gathering elem new.arity).signature → elem = .void →
      ∀ d, .prim d ∉ args.drop c.leading) :
    let gathered := (c.gathering elem new.arity).signature
    r.invoke args = (do
      let passed ← Value.passAllAs args new.params gathered.params
      let result ← c.target.invoke
        (passed.take c.leading ++ [.array c.array (passed.drop c.leading)])
      return (result.coerce c.signature.ret false).coerce new.ret false) := by
  intro gathered
  have hlen : args.length = new.arity := hkinds.length_eq
  have hargs : c.leading ≤ args.length := hlen ▸ hle
  by_cases hsame : new = gathered
  · have hret : new.ret = c.signature.ret := by
      rw [hsame]
      rfl
    have hparams : new.params = gathered.params := congrArg Signature.params hsame
    rw [hparams] at hkinds
    rw [hc.invoke_of_adapt_self hle hok hsame hlen, hparams,
      Value.passAllAs_of_passAll (Ty.passAll_refl _),
      ← take_conformAll_gathering hargs elem new.arity,
      ← drop_conformAll_gathering_self hargs hkinds (hvoid hsame)]
    simp only [hret, Value.coerce_coerce]
    rfl
  · obtain ⟨hadapts, rfl⟩ := Host.eq_adapted_of_adapt (Ne.symm hsame) hok
    have hconv := (Signature.adaptsTo_iff.mp hadapts).2
    rw [Handle.invoke_adapted hconv hkinds]
    cases hpassed : Value.passAllAs args new.params gathered.params with
    | error e => rfl
    | ok passed =>
      have hlen : passed.length = new.arity := (Value.length_passAllAs hpassed).trans hlen
      have hline := Value.conformAll_of_passAllAs hconv hpassed
      change ((c.gathering elem new.arity).invoke passed >>= _) = _
      rw [hc.invoke_gathering_of_conformAll hle hlen hline, bind_assoc]
      rfl

/-! ## Requests -/

/-- A caller that passes the array itself declares a type that passes freely. -/
theorem Takes.of_passesArray (hc : c.Takes elem last) (hpasses : c.passesArray new = true) :
    ∃ src, new.param? c.leading = some src ∧ c.signature.param? c.leading = some last ∧
      src.passesFreely last = true := by
  obtain ⟨harity, hlast⟩ := Bool.and_eq_true_iff.mp hpasses
  obtain ⟨src, hsrc, haccepts⟩ := (Option.any_eq_true _ _).mp hlast
  have hleading : new.arity - 1 = c.leading := by
    rw [beq_iff_eq.mp harity]
    rfl
  have hdst := hc.lastParam?
  rw [Signature.lastParam?, List.getLast?_eq_getElem?] at hsrc hdst
  refine ⟨src, hleading ▸ hsrc, hdst, ?_⟩
  have hfree := hc.passesFreely
  rw [hc.array] at haccepts hfree
  exact Ty.passesFreely_of_array_accepts haccepts hfree

/-- A caller that passes the array itself gets the function adapted, by steps that leave the array
    alone. Any other caller is served if it has the leading arguments and adapts to the signature in
    which the elements stand for the array. A call then converts all arguments one by one, with the
    last one that is refused deciding the error, and gathers the elements in order into an array of
    the collector's own type; its result comes back through both return types. For a caller with
    exactly that signature no step is built, and its elements are gathered as they are: that is the
    same, unless they are of type void and there is a primitive value among them. -/
theorem adapt_gathers (hosts : Host → Prop) (c : Collector) (hc : c.Reachable hosts)
    (hh : c.host.RunsAdaptations) (elem : Ty) (harray : c.array = .array elem) (new : Signature) :
    let own := c.target.signature
    let p := own.arity - 1
    let gathered := own.collecting elem (new.arity - p)
    (c.passesArray new = true →
      (c.adapt new).1 = c.host.adapt new c.target ∧
      (∀ r, (c.adapt new).1 = .ok r → r.StepsAt (· ≠ p) c.target) ∧
      ∃ src dst, new.param? p = some src ∧ own.param? p = some dst ∧ src.passesFreely dst = true) ∧
    (c.passesArray new = false →
      ((∃ r, (c.adapt new).1 = .ok r) ↔ p ≤ new.arity ∧ gathered.adaptsTo new = true) ∧
      ∀ r args, (c.adapt new).1 = .ok r → List.Forall₂ Value.KindAgrees args new.params →
        ((new = gathered → elem = .void → ∀ d, .prim d ∉ args.drop p) →
          r.invoke args = (do
            let passed ← Value.passAllAs args new.params gathered.params
            let result ← c.target.invoke (passed.take p ++ [.array c.array (passed.drop p)])
            return (result.coerce own.ret false).coerce new.ret false)) ∧
        (new = gathered →
          r.invoke args = (do
            let lead := Value.conformAll (args.take p) own.params.dropLast false
            let result ← c.target.invoke (lead ++ [.array c.array (args.drop p)])
            return result.coerce own.ret false))) := by
  intro own p gathered
  obtain ⟨elem', last, htakes, hreply⟩ := hc.adapt_fst
  have helem : elem' = elem := Ty.array.inj (htakes.array.symm.trans harray)
  subst helem
  rw [hreply, reply]
  constructor
  · intro hpasses
    obtain ⟨src, hsrc, hdst, hfree⟩ := htakes.of_passesArray hpasses
    rw [if_pos hpasses]
    refine ⟨rfl, ?_, src, last, hsrc, hdst, hfree⟩
    have hcaller : new.paramAt p = src := Signature.paramAt_of_param? hsrc
    have hcallee : own.paramAt p = last := Signature.paramAt_of_param? hdst
    intro r hok
    refine (Host.stepsAt_of_adapt hok).mono ?_
    rintro j hwork rfl
    rw [hcaller, hcallee, hfree] at hwork
    cases hwork
  · intro hpasses
    rw [if_neg (Bool.not_eq_true _ ▸ hpasses)]
    by_cases hlt : new.arity < c.leading
    · rw [if_pos hlt]
      refine ⟨⟨?_, ?_⟩, ?_⟩
      · rintro ⟨r, hok⟩
        cases hok
      · rintro ⟨hle, -⟩
        exact absurd hlt (Nat.not_lt.mpr hle)
      · intro r args hok
        cases hok
    · have hle : c.leading ≤ new.arity := Nat.not_lt.mp hlt
      rw [if_neg hlt]
      refine ⟨(Host.exists_adapt_iff hh).trans (and_iff_right hle).symm, ?_⟩
      intro r args hok hkinds
      constructor
      · exact htakes.invoke_of_adapt hle hok hkinds
      · intro hsame
        exact htakes.invoke_of_adapt_self hle hok hsame hkinds.length_eq

/-- Strings are gathered for a parameter that takes any objects: one leading argument is unboxed and
    one element is cast. A caller may also pass an array of strings. -/
theorem adapt_gathers_strings :
    let f : Handle := .direct "f" ⟨[.prim .int, .array .object], .object⟩ HostFunction.echo
    let c : Collector := ⟨{}, f, .array .string, []⟩
    let new : Signature := ⟨[.wrapper .int, .string, .object], .object⟩
    let passing : Signature := ⟨[.object, .array .string], .object⟩
    let args : List Value := [.boxed (.int 7), .str "a", .str "b"]
    c.Reachable (fun _ => True) ∧ c.host.RunsAdaptations ∧ c.passesArray new = false ∧
      (∃ r, (c.adapt new).1 = .ok r ∧ r.invoke args = .ok (.array (.array .object)
        [.prim (.int 7), .array (.array .string) [.str "a", .str "b"]])) ∧
      c.passesArray passing = true ∧ ∃ r, (c.adapt passing).1 = .ok r ∧ r.StepsAt (· ≠ 1) f := by
  intro f c new passing args
  have hok : ({} : Host).collector f (.array .string) = .ok c := rfl
  have hc : c.Reachable (fun _ => True) := .collector trivial (.direct ..) hok
  have hh : ({} : Host).RunsAdaptations := ⟨rfl, rfl, rfl, rfl⟩
  have hkinds : List.Forall₂ Value.KindAgrees args new.params :=
    .cons (by rintro d kind ⟨⟩) (.cons (by rintro d kind ⟨⟩) (.cons (by rintro d kind ⟨⟩) .nil))
  obtain ⟨-, hgathers⟩ := adapt_gathers (fun _ => True) c hc hh .string rfl new
  obtain ⟨hserved, hinvoke⟩ := hgathers rfl
  obtain ⟨r, hr⟩ := hserved.mpr ⟨by decide, rfl⟩
  obtain ⟨hconverted, -⟩ := hinvoke r args hr hkinds
  obtain ⟨hpasses, -⟩ := adapt_gathers (fun _ => True) c hc hh .string rfl passing
  obtain ⟨hsame, hsteps, -⟩ := hpasses rfl
  obtain ⟨r', hr'⟩ := (Host.exists_adapt_iff hh).mpr (rfl : f.signature.adaptsTo passing = true)
  have hserved' : (c.adapt passing).1 = .ok r' := hsame.trans hr'
  refine ⟨hc, hh, rfl, ⟨r, hr, ?_⟩, rfl, r', hserved', hsteps r' hserved'⟩
  rw [hconverted (by rintro - ⟨⟩)]
  rfl

/-- A number that a caller with exactly the types of the collecting handle hands over as an element
    of type void arrives in the array, while the number in front of it is taken away. So the call is
    neither the one on converted arguments nor the one on the arguments as they were. -/
theorem adapt_gathers_void_kept :
    let f : Handle := .direct "f" ⟨[.void, .array .void], .object⟩ HostFunction.echo
    let c : Collector := ⟨{}, f, .array .void, []⟩
    let new : Signature := ⟨[.void, .void], .object⟩
    let args : List Value := [.prim (.int 5), .prim (.int 6)]
    c.Reachable (fun _ => True) ∧ c.host.RunsAdaptations ∧ c.passesArray new = false ∧
      new = f.signature.collecting .void 1 ∧ List.Forall₂ Value.KindAgrees args new.params ∧
      ∃ r, (c.adapt new).1 = .ok r ∧
        r.invoke args = .ok (.array (.array .object)
          [.void, .array (.array .void) [.prim (.int 6)]]) ∧
        r.invoke args ≠ (do
          let passed ← Value.passAllAs args new.params (f.signature.collecting .void 1).params
          let result ← f.invoke (passed.take 1 ++ [.array (.array .void) (passed.drop 1)])
          return (result.coerce .object false).coerce .object false) ∧
        r.invoke args ≠ f.invoke (args.take 1 ++ [.array (.array .void) (args.drop 1)]) := by
  intro f c new args
  have hok : ({} : Host).collector f (.array .void) = .ok c := rfl
  have hh : ({} : Host).RunsAdaptations := ⟨rfl, rfl, rfl, rfl⟩
  refine ⟨.collector trivial (.direct ..) hok, hh, rfl, rfl, ?_, c.gathering .void 2, rfl, rfl,
    ?_, ?_⟩
  · exact .cons (by rintro d kind - ⟨⟩) (.cons (by rintro d kind - ⟨⟩) .nil)
  · rintro ⟨⟩
  · rintro ⟨⟩

end Collector

end CallBridge
