import CallBridge.Handle.Invoke
import Mathlib.Logic.Relation

/-!
# Calls in progress

A call walks down the chain of handles. What it does is seen best one hand-over
at a time: the state of a call is the handle in control, the arguments it was
handed, and the return types that wait for the result. Running a handle is the
same from every state that the call goes through.
-/

namespace CallBridge

theorem bind_eq_ok_iff {ε α β : Type} {x : Except ε α} {f : α → Except ε β} {b : β} :
    (x >>= f) = .ok b ↔ ∃ a, x = .ok a ∧ f a = .ok b := by
  cases x <;> simp [bind, Except.bind]

/-! ## Coercion -/

namespace Datum

@[simp] theorem kind_convert (d : Datum) (kind : Prim) : (d.convert kind).kind = kind := by
  unfold convert
  split
  · assumption
  · cases kind <;> rfl

@[simp] theorem kind_reinterpret (d : Datum) (kind : Prim) : (d.reinterpret kind).kind = kind := by
  cases kind <;> rfl

end Datum

namespace Value

@[simp] theorem coerce_void (v : Value) (raw : Bool) : v.coerce .void raw = void := by
  cases v <;> rfl

/-- A datum coerced to a primitive type has the kind of that type. -/
theorem exists_coerce_prim (d : Datum) (kind : Prim) (raw : Bool) :
    ∃ e : Datum, (prim d).coerce (.prim kind) raw = prim e ∧ e.kind = kind := by
  simp only [coerce]
  split
  · exact ⟨d, rfl, ‹_›⟩
  · split
    · exact ⟨_, rfl, Datum.kind_reinterpret d kind⟩
    · exact ⟨_, rfl, Datum.kind_convert d kind⟩

/-- A datum that has the kind of the type already stays as it is. -/
theorem coerce_prim_self {d : Datum} {kind : Prim} (h : d.kind = kind) (raw : Bool) :
    (prim d).coerce (.prim kind) raw = prim d := by
  simp [coerce, h]

theorem coerce_of_isReference {type : Ty} (h : type.isReference = true) (v : Value) (raw : Bool) :
    v.coerce type raw = v := by
  cases type with
  | void => simp [Ty.isReference] at h
  | prim kind => simp [Ty.isReference] at h
  | null | object | cls | iface | array => cases v <;> rfl

theorem coerce_coerce (v : Value) (type : Ty) (raw : Bool) :
    (v.coerce type raw).coerce type raw = v.coerce type raw := by
  cases type with
  | void => simp
  | prim kind =>
    cases v with
    | prim d =>
      obtain ⟨e, he, hkind⟩ := exists_coerce_prim d kind raw
      rw [he, coerce_prim_self hkind]
    | void => exact coerce_prim_self (Datum.kind_convert _ kind) raw
    | null | str | boxed | array | object => rfl
  | null | object | cls | iface | array => rw [coerce_of_isReference rfl, coerce_of_isReference rfl]

/-- Whether a primitive value stands where a primitive of exactly its kind is declared; other values
    and other types are not looked at. -/
def KindAgrees (v : Value) (type : Ty) : Prop :=
  ∀ d kind, v = prim d → type = .prim kind → d.kind = kind

/-- Bringing a value in line with its own declared type first makes no difference to where it
    passes freely. -/
theorem conform_conform {v : Value} {src dst : Ty} (hkind : v.KindAgrees src)
    (hpass : src.passesFreely dst = true) :
    (v.conform src false).conform dst false = v.conform dst false := by
  cases v with
  | prim d =>
    cases src with
    | void =>
      have hdst : dst = .void := by
        cases dst <;> simp_all [Ty.passesFreely, Ty.isReference]
      subst hdst
      rfl
    | prim kind => rw [conform, coerce_prim_self (hkind d kind rfl rfl)]
    | null | object | cls | iface | array => rfl
  | void | null | str | boxed | array | object => rfl

/-- Arguments that are numbered, in line with types that are. -/
theorem conformAll_map (value : Nat → Value) (type : Nat → Ty) (js : List Nat) (raw : Bool) :
    conformAll (js.map value) (js.map type) raw =
      js.map fun j => (value j).conform (type j) raw := by
  induction js with
  | nil => rfl
  | cons j js ih => simp only [List.map_cons, conformAll, ih]

end Value

/-! ## Hand-overs -/

/-- The state of a call: the handle in control, its arguments, and the return types that its result
    is to be brought in line with, the innermost first. -/
structure Call where
  handle : Handle
  args : List Value
  pending : List Handle.Return

namespace Call

/-- The call of a handle from outside. -/
def start (h : Handle) (args : List Value) : Call :=
  ⟨h, args, []⟩

def run (c : Call) : Except InvokeError Value :=
  c.handle.run c.args c.pending

/-- One hand-over: the handle in control succeeds in its step and calls the handle behind it. -/
inductive Moves : Call → Call → Prop where
  | adapter {s : Signature} {step : Step} {target : Handle} {args out : List Value}
      {pending : List Handle.Return} :
      step.run args = .ok out →
      Moves ⟨.adapter s step target, args, pending⟩
        ⟨target, Value.conformAll out target.signature.params step.isRaw,
          ⟨s.ret, step.isRaw⟩ :: pending⟩
  | collect {s : Signature} {pos count : Nat} {array : Ty} {target : Handle}
      {args out : List Value} {pending : List Handle.Return} :
      Handle.gather pos array args = .ok out →
      Moves ⟨.collect s pos count array target, args, pending⟩
        ⟨target, Value.conformAll out target.signature.params false, ⟨s.ret, false⟩ :: pending⟩

/-- Any number of hand-overs. -/
def Reaches : Call → Call → Prop :=
  Relation.ReflTransGen Moves

theorem Moves.run_eq {c c' : Call} (h : Moves c c') : c.run = c'.run := by
  cases h with
  | adapter hstep => simp only [run, Handle.run, hstep]; rfl
  | collect hgather => simp only [run, Handle.run, hgather]; rfl

/-- A call gives the same result from every state it goes through. -/
theorem Reaches.run_eq {c c' : Call} (h : Reaches c c') : c.run = c'.run := by
  induction h with
  | refl => rfl
  | tail _ hmove ih => rw [ih, hmove.run_eq]

end Call

/-! ## Results -/

namespace Handle

/-- Brings a result in line with the waiting return types. -/
def unwind (pending : List Return) (result : Value) : Value :=
  pending.foldl (fun v r => v.coerce r.type r.raw) result

/-- Coming back through one return type several times is no different from once. -/
theorem unwind_replicate {n : Nat} (hn : n ≠ 0) (r : Return) (result : Value) :
    unwind (List.replicate n r) result = result.coerce r.type r.raw := by
  induction n with
  | zero => exact absurd rfl hn
  | succ n ih =>
    rw [List.replicate_succ', unwind, List.foldl_append]
    cases n with
    | zero => rfl
    | succ n =>
      change (unwind (List.replicate (n + 1) r) result).coerce r.type r.raw = _
      rw [ih (by omega), Value.coerce_coerce]

theorem map_unwind_cons (r : Return) (pending : List Return) (result : Except InvokeError Value) :
    result.map (unwind (r :: pending)) = (result.map (unwind [r])).map (unwind pending) := by
  cases result <;> rfl

/-- What waits for the result can be dealt with after the call. -/
theorem run_eq_map (h : Handle) (args : List Value) (pending : List Return) :
    h.run args pending = (h.run args []).map (unwind pending) := by
  induction h generalizing args pending with
  | direct name s body =>
    simp only [run]
    cases body args <;> rfl
  | adapter s step target ih =>
    simp only [run]
    cases step.run args with
    | error e => rfl
    | ok out =>
      change target.run _ _ = (target.run _ _).map _
      rw [ih _ (_ :: pending), ih _ [_], map_unwind_cons]
  | collect s pos count array target ih =>
    simp only [run]
    cases gather pos array args with
    | error e => rfl
    | ok out =>
      change target.run _ _ = (target.run _ _).map _
      rw [ih _ (_ :: pending), ih _ [_], map_unwind_cons]

/-- The result that one waiting return type has been applied to. -/
theorem exists_of_run_eq_ok {h : Handle} {args : List Value} {r : Return} {v : Value}
    (hrun : h.run args [r] = .ok v) : ∃ w, h.run args [] = .ok w ∧ v = w.coerce r.type r.raw := by
  rw [run_eq_map] at hrun
  cases hw : h.run args [] with
  | error e =>
    rw [hw] at hrun
    cases hrun
  | ok w =>
    rw [hw] at hrun
    cases hrun
    exact ⟨w, rfl, rfl⟩

theorem invoke_eq_run {h : Handle} {args : List Value} (hlen : args.length = h.signature.arity) :
    h.invoke args = (Call.start h args).run :=
  if_pos hlen

/-- What waits for the result of a handle that has all its arguments. -/
theorem run_eq_invoke_bind {h : Handle} {args : List Value} (hlen : args.length = h.signature.arity)
    (r : Return) :
    h.run args [r] = (do
      let result ← h.invoke args
      return result.coerce r.type r.raw) := by
  rw [run_eq_map, invoke_eq_run hlen]
  change (h.run args []).map _ = (h.run args [] >>= _)
  cases h.run args [] <;> rfl

/-- A call of the right number of arguments is no different from a call of a handle that it comes
    to, up to what waits for the result. -/
theorem invoke_eq_of_reaches {h h' : Handle} {args args' : List Value} {pending : List Return}
    (hreach : Call.Reaches (.start h args) ⟨h', args', pending⟩)
    (hlen : args.length = h.signature.arity) (hlen' : args'.length = h'.signature.arity) :
    h.invoke args = (h'.invoke args').map (unwind pending) := by
  rw [invoke_eq_run hlen, invoke_eq_run hlen', hreach.run_eq]
  exact run_eq_map h' args' pending

end Handle

end CallBridge
