import CallBridge.Proofs.CollectedCalls
import CallBridge.Proofs.Safety

/-!
# Spreading undoes gathering

A spread hands on the items of an array as separate arguments, a collector gathers
separate arguments into an array. Put one behind the other, the two cancel out. The
items of an array that is spread for a collecting handle come out again in an array
of the collector's type. Arguments that are gathered for a spread arrive at the
handle behind it, if there are as many as it takes.
-/

namespace CallBridge

/-! ## Calls through a spread -/

namespace Value

variable {args items : List Value} {types : List Ty} {type array : Ty} {v : Value} {i count : Nat}

/-- The declared type of an argument may change to any other that it is in line with. -/
theorem conformAll_set (hargs : conformAll args types false = args) (hv : args[i]? = some v)
    (hline : v.conform type false = v) : conformAll args (types.set i type) false = args := by
  induction args generalizing types i with
  | nil => cases hv
  | cons w ws ih =>
    cases types with
    | nil => rfl
    | cons t ts =>
      rw [conformAll, List.cons.injEq] at hargs
      obtain ⟨hhead, htail⟩ := hargs
      cases i with
      | zero =>
        obtain rfl : w = v := Option.some.inj hv
        rw [List.set_cons_zero, conformAll, hline, htail]
      | succ i => rw [List.set_cons_succ, conformAll, hhead, ih htail hv]

/-- An array at the end is in line with whatever is declared there. -/
theorem conformAll_concat_array (hlen : args.length = types.length)
    (hargs : conformAll args types false = args) (last : Ty) :
    conformAll (args ++ [.array type items]) (types ++ [last]) false =
      args ++ [.array type items] := by
  rw [conformAll_append, List.take_left' hlen, List.drop_left' hlen, hargs]
  rfl

theorem spreadItems_array (haccepts : array.accepts type = true) :
    (Value.array type items).spreadItems array count =
      if items.length = count then .ok items else .error (.arrayLength count items.length) := by
  have hcast : (Value.array type items).checkCast array = .ok () := if_pos haccepts
  rw [spreadItems, hcast]
  rfl

/-- A cast in front of a spread refuses no array that the spread does not refuse itself. -/
theorem checkCast_spreadItems (type array : Ty) (items : List Value) (count : Nat) :
    (do
      (Value.array type items).checkCast array
      (Value.array type items).spreadItems array count) =
    (Value.array type items).spreadItems array count := by
  rw [spreadItems]
  cases (Value.array type items).checkCast array <;> rfl

end Value

namespace Handle

variable {s : Signature} {t : Handle} {args : List Value} {v : Value} {pos : Nat}

theorem run_spread (hv : args[pos]? = some v) (count : Nat) (array : Ty) (slots : Nat)
    (pending : List Return) :
    (adapter s (.spread pos count array slots) t).run args pending = (do
      let items ← v.spreadItems array count
      t.run (Value.conformAll (args.take pos ++ items ++ args.drop (pos + 1)) t.signature.params
        false) (⟨s.ret, false⟩ :: pending)) := by
  have harg : Step.argAt args pos = .ok v := by rw [Step.argAt, hv]
  rw [run, Step.run, harg]
  change ((do
    let items ← v.spreadItems array count
    return args.take pos ++ items ++ args.drop (pos + 1)) >>= _) = _
  cases v.spreadItems array count <;> rfl

end Handle

namespace Host

variable {h : Host} {new : Signature} {u s : Handle} {array type : Ty} {pos count : Nat}
  {args items : List Value}

/-- A spread is one node, or two where the argument may be something else than an array. -/
theorem of_spread (hok : h.spread new u array pos count = .ok s) :
    let step := Step.spread pos count array (u.signature.slotsAt pos count)
    h.canSpread new u.signature array pos count = true ∧
      (s = .adapter new step u ∨
        s = .adapter new (.cast pos array) (.adapter (new.withParam pos array) step u)) := by
  intro step
  unfold spread at hok
  cases hcan : h.canSpread new u.signature array pos count with
  | false =>
    rw [hcan] at hok
    cases hok
  | true =>
    rw [hcan] at hok
    refine ⟨rfl, ?_⟩
    cases hparam : new.param? pos with
    | none =>
      rw [hparam] at hok
      cases hok
    | some incoming =>
      rw [hparam] at hok
      cases hfree : incoming.passesFreely array with
      | true =>
        simp only [hfree, if_true] at hok
        cases hok
        exact .inl rfl
      | false =>
        simp only [hfree, Bool.false_eq_true, if_false, if_true] at hok
        exact .inr (eq_of_cast hok)

/-- What a spread hands on where it is called with an array. The cast that may stand in front of it
    does not show. -/
theorem invoke_spread (hok : h.spread new u array pos count = .ok s)
    (hlen : args.length = new.arity) (hargs : Value.conformAll args new.params false = args)
    (hv : args[pos]? = some (.array type items)) :
    s.invoke args = (do
      let items ← (Value.array type items).spreadItems array count
      let result ← u.invoke (Value.conformAll (args.take pos ++ items ++ args.drop (pos + 1))
        u.signature.params false)
      return result.coerce new.ret false) := by
  obtain ⟨hcan, hshape⟩ := of_spread hok
  -- With one node or two, the items are handed on and the result comes back through one type.
  have hrun : s.invoke args = (do
      let items ← (Value.array type items).spreadItems array count
      u.run (Value.conformAll (args.take pos ++ items ++ args.drop (pos + 1)) u.signature.params
        false) [⟨new.ret, false⟩]) := by
    rcases hshape with rfl | rfl
    · rw [Handle.invoke, Handle.signature_adapter, if_pos hlen, Handle.run_spread hv]
    · have hline : Value.conformAll args (new.withParam pos array).params false = args :=
        Value.conformAll_set hargs hv rfl
      rw [Handle.invoke, Handle.signature_adapter, if_pos hlen, Handle.run_cast hv,
        Handle.signature_adapter, hline, Handle.run_spread hv, ← bind_assoc,
        Value.checkCast_spreadItems]
      simp only [Signature.ret_withParam, Handle.run_repeat]
  rw [hrun]
  cases hitems : (Value.array type items).spreadItems array count with
  | error e => rfl
  | ok out =>
    have hcount : out.length = count := by
      have hhands := Value.handsOn_spreadItems (.array type items) array count
      rw [hitems] at hhands
      exact hhands
    obtain ⟨hpos, harity⟩ := arity_of_canSpread hcan
    refine Handle.run_eq_invoke_bind ?_ ⟨new.ret, false⟩
    rw [Value.length_conformAll, List.length_append, List.length_append, List.length_take,
      List.length_drop]
    omega

/-- What a spread at the last position hands on. -/
theorem invoke_spread_last {front : List Ty} {last : Ty}
    (hok : h.spread new u array pos count = .ok s) (hparams : new.params = front ++ [last])
    (hfront : front.length = pos) (hlen : args.length = pos)
    (hargs : Value.conformAll args front false = args) :
    s.invoke (args ++ [.array type items]) = (do
      let items ← (Value.array type items).spreadItems array count
      let result ← u.invoke (Value.conformAll (args ++ items) u.signature.params false)
      return result.coerce new.ret false) := by
  have harity : (args ++ [Value.array type items]).length = new.arity := by
    rw [Signature.arity, hparams, List.length_append, List.length_append, hlen, hfront]
    rfl
  have hline : Value.conformAll (args ++ [.array type items]) new.params false =
      args ++ [.array type items] := by
    rw [hparams]
    exact Value.conformAll_concat_array (hlen.trans hfront.symm) hargs last
  have hv : (args ++ [Value.array type items])[pos]? = some (.array type items) := by
    rw [← hlen]
    exact List.getElem?_concat_length
  have hafter : (args ++ [Value.array type items]).drop (pos + 1) = [] :=
    List.drop_eq_nil_of_le (by simp [hlen])
  rw [invoke_spread hok harity hline hv]
  simp only [List.take_left' hlen, hafter, List.append_nil]

/-- An argument that is declared as the array needs no cast. -/
theorem spread_eq_ok (hcan : h.canSpread new u.signature array pos count = true)
    (hparam : new.param? pos = some array) :
    h.spread new u array pos count =
      .ok (.adapter new (.spread pos count array (u.signature.slotsAt pos count)) u) := by
  have hfree : array.passesFreely array = true := Ty.passesFreely_refl array
  simp only [spread, hcan, hparam, hfree, if_true]

end Host

/-! ## There and back -/

theorem Signature.arity_collecting (own : Signature) (elem : Ty) (count : Nat) :
    (own.collecting elem count).arity = own.arity - 1 + count := by
  rw [arity, collecting, params_withParams, List.length_append, List.length_dropLast,
    List.length_replicate, arity]

namespace Collector

variable {c : Collector} {elem last : Ty} {h : Host} {u r : Handle} {n k : Nat}
  {lead items args : List Value} {type : Ty}

theorem signature_gathering (c : Collector) (elem : Ty) (n : Nat) :
    (c.gathering elem (c.leading + n)).signature = c.signature.collecting elem n := by
  rw [gathering, Handle.signature_collect, Nat.add_sub_cancel_left]

/-- A caller with just the signature of the collecting handle gets that handle. -/
theorem reply_collecting (hpasses : c.passesArray (c.signature.collecting elem n) = false) :
    c.reply elem (c.signature.collecting elem n) = .ok (c.gathering elem (c.leading + n)) := by
  have harity : (c.signature.collecting elem n).arity = c.leading + n :=
    c.signature.arity_collecting elem n
  have hle : ¬ c.leading + n < c.leading := by omega
  rw [reply, hpasses, harity, if_neg Bool.false_ne_true, if_neg hle, Host.adapt,
    if_pos (signature_gathering c elem n)]

/-- The signature in which the array stands as the last parameter. -/
def spreading (c : Collector) : Signature :=
  c.signature.withParams (c.front ++ [c.array])

theorem param?_spreading (c : Collector) : c.spreading.param? c.leading = some c.array := by
  rw [Signature.param?, spreading, Signature.params_withParams, ← length_front]
  exact List.getElem?_concat_length

theorem Takes.canSpread_gathering (hc : c.Takes elem last) (hop : h.supports .spreadArgs = true)
    (n : Nat) :
    h.canSpread c.spreading (c.gathering elem (c.leading + n)).signature c.array c.leading n =
      true := by
  have hwhole : (c.front ++ [c.array]).drop (c.leading + 1) = [] :=
    List.drop_eq_nil_of_le (by simp [length_front])
  have hspread : c.spreading.withParams (c.spreading.params.take c.leading ++
      (List.replicate n elem ++ c.spreading.params.drop (c.leading + 1))) =
        c.signature.collecting elem n := by
    simp only [spreading, Signature.params_withParams, List.take_left' (length_front c), hwhole,
      List.append_nil]
    rfl
  refine Host.canSpread_iff.mpr ⟨hop, c.array, elem, param?_spreading c, hc.array, .inl rfl, ?_⟩
  rw [hspread, signature_gathering]
  exact Signature.passes_refl _

/-- Items of the element type are gathered for the function again. -/
theorem Takes.invoke_gathering_items (hc : c.Takes elem last) (hvoid : elem ≠ .void)
    (hlen : lead.length = c.leading) (hline : Value.conformAll lead c.front false = lead)
    (hcount : items.length = n) (hitems : ∀ v ∈ items, v.KindAgrees elem) :
    let gathered := c.gathering elem (c.leading + n)
    gathered.invoke (Value.conformAll (lead ++ items) gathered.signature.params false) = (do
      let result ← c.target.invoke (lead ++ [.array c.array items])
      return result.coerce c.signature.ret false) := by
  intro gathered
  have hfront : lead.length = c.front.length := hlen.trans (length_front c).symm
  have helems : Value.conformAll items (List.replicate n elem) false = items := by
    refine Value.conformAll_replicate (forall₂_replicate_right_iff.mpr ?_) ?_
    · exact ⟨hcount, hitems⟩
    · intro helem
      exact absurd helem hvoid
  have hargs : Value.conformAll (lead ++ items) gathered.signature.params false =
      lead ++ items := by
    rw [params_gathering, Nat.add_sub_cancel_left, Value.conformAll_append,
      List.take_left' hfront, List.drop_left' hfront, hline, helems]
  have harity : (lead ++ items).length = c.leading + n := by
    rw [List.length_append, hlen, hcount]
  rw [hargs, hc.invoke_gathering_of_conformAll (Nat.le_add_right _ _) harity hargs,
    List.take_left' hlen, List.drop_left' hlen]

/-- The items of an array that is spread for a collecting handle arrive at the function. -/
theorem Takes.invoke_spread_gathering (hc : c.Takes elem last) (hvoid : elem ≠ .void)
    (hok : h.spread c.spreading (c.gathering elem (c.leading + n)) c.array c.leading n = .ok r)
    (hlen : lead.length = c.leading) (hline : Value.conformAll lead c.front false = lead)
    (haccepts : c.array.accepts type = true)
    (hitems : items.length = n → ∀ v ∈ items, v.KindAgrees elem) :
    r.invoke (lead ++ [.array type items]) =
      if items.length = n then (do
        let result ← c.target.invoke (lead ++ [.array c.array items])
        return result.coerce c.signature.ret false)
      else .error (.arrayLength n items.length) := by
  rw [Host.invoke_spread_last hok rfl (length_front c) hlen hline,
    Value.spreadItems_array haccepts]
  split
  · rename_i hcount
    have hgather := hc.invoke_gathering_items hvoid hlen hline hcount (hitems hcount)
    change ((c.gathering elem (c.leading + n)).invoke _ >>= _) = _
    rw [hgather, bind_assoc]
    simp only [pure_bind, spreading, Signature.ret_withParams, Value.coerce_coerce]
  · rfl

/-- Arguments that are gathered for a spread arrive at the handle behind it. -/
theorem Takes.invoke_gathering_spread (hc : c.Takes elem last)
    (hok : h.spread c.signature u c.array c.leading n = .ok c.target)
    (hlen : args.length = c.leading + k)
    (hargs : Value.conformAll args (c.signature.collecting elem k).params false = args) :
    (c.gathering elem (c.leading + k)).invoke args =
      if k = n then (do
        let result ← u.invoke (Value.conformAll args u.signature.params false)
        return result.coerce c.signature.ret false)
      else .error (.arrayLength n k) := by
  rw [← signature_gathering] at hargs
  have hle : c.leading ≤ args.length := hlen ▸ Nat.le_add_right _ _
  have hlead : (args.take c.leading).length = c.leading := List.length_take_of_le hle
  have hcount : (args.drop c.leading).length = k := by
    rw [List.length_drop, hlen, Nat.add_sub_cancel_left]
  have htake := take_conformAll_gathering hle elem (c.leading + k)
  rw [hargs] at htake
  rw [hc.invoke_gathering_of_conformAll (Nat.le_add_right _ _) hlen hargs,
    Host.invoke_spread_last hok hc.params (length_front c) hlead htake.symm,
    Value.spreadItems_array (Ty.accepts_self c.array), hcount]
  split
  · change ((do
      let result ← u.invoke (Value.conformAll (args.take c.leading ++ args.drop c.leading) _ false)
      return result.coerce c.signature.ret false) >>= _) = _
    rw [List.take_append_drop, bind_assoc]
    simp only [pure_bind, Value.coerce_coerce]
  · rfl

/-- Gathering and spreading undo each other, whatever the collector has been used for. An array that
    is spread for a collecting handle reaches the function with the same items, as an array of the
    collector's type, and one of another length is refused. Arguments that are gathered for a spread
    reach the handle behind it if there are as many as it takes, and are refused otherwise. Only a
    single element that may itself be passed as the array is not gathered. -/
theorem spread_inverts_gathering (hosts : Host → Prop) (c : Collector) (hc : c.Reachable hosts)
    (elem : Ty) (harray : c.array = .array elem) (hvoid : elem ≠ .void) :
    let own := c.target.signature
    let p := own.arity - 1
    (∀ (h : Host) (n : Nat), h.supports .spreadArgs = true →
      c.passesArray (own.collecting elem n) = false →
      ∃ g r, (c.adapt (own.collecting elem n)).1 = .ok g ∧
        h.spread (own.withParams (own.params.dropLast ++ [c.array])) g c.array p n = .ok r ∧
        ∀ lead type items, lead.length = p →
          Value.conformAll lead own.params.dropLast false = lead →
          (Value.array type items).isInstanceOf c.array = true →
          (items.length = n → (∀ v ∈ items, v.KindAgrees elem) →
            r.invoke (lead ++ [.array type items]) = (do
              let result ← c.target.invoke (lead ++ [.array c.array items])
              return result.coerce own.ret false)) ∧
          (items.length ≠ n →
            r.invoke (lead ++ [.array type items]) = .error (.arrayLength n items.length))) ∧
    (∀ (h : Host) (u : Handle) (n k : Nat), h.spread own u c.array p n = .ok c.target →
      (c.passesArray (own.collecting elem k) = true →
        k = 1 ∧
          (c.adapt (own.collecting elem k)).1 = c.host.adapt (own.collecting elem k) c.target) ∧
      (c.passesArray (own.collecting elem k) = false →
        ∃ r, (c.adapt (own.collecting elem k)).1 = .ok r ∧ ∀ args, args.length = p + k →
          Value.conformAll args (own.collecting elem k).params false = args →
          (k = n → r.invoke args = (do
            let result ← u.invoke (Value.conformAll args u.signature.params false)
            return result.coerce own.ret false)) ∧
          (k ≠ n → r.invoke args = .error (.arrayLength n k)))) := by
  intro own p
  obtain ⟨elem', last, htakes, hreply⟩ := hc.adapt_fst
  have helem : elem' = elem := Ty.array.inj (htakes.array.symm.trans harray)
  subst helem
  constructor
  · intro h n hop hpasses
    have hok := Host.spread_eq_ok (htakes.canSpread_gathering hop n) (param?_spreading c)
    refine ⟨_, _, (hreply _).trans (reply_collecting hpasses), hok, ?_⟩
    intro lead type items hlen hline hinstance
    refine ⟨fun hcount hitems => ?_, fun hcount => ?_⟩
    · rw [htakes.invoke_spread_gathering hvoid hok hlen hline hinstance fun _ => hitems]
      exact if_pos hcount
    · rw [htakes.invoke_spread_gathering hvoid hok hlen hline hinstance fun h => absurd h hcount]
      exact if_neg hcount
  · intro h u n k hok
    refine ⟨fun hpasses => ⟨?_, ?_⟩, fun hpasses => ?_⟩
    · have harity : (own.collecting elem' k).arity = own.arity :=
        beq_iff_eq.mp (Bool.and_eq_true_iff.mp hpasses).1
      have hown : own.arity = c.leading + 1 := htakes.arity
      rw [Signature.arity_collecting] at harity
      omega
    · rw [hreply, reply, if_pos hpasses]
    · refine ⟨_, (hreply _).trans (reply_collecting hpasses), ?_⟩
      intro args hlen hargs
      have hinvoke := htakes.invoke_gathering_spread hok hlen hargs
      exact ⟨fun hk => hinvoke.trans (if_pos hk), fun hk => hinvoke.trans (if_neg hk)⟩

/-- An array of strings is spread into objects, which a function gets as an array of objects. Two
    strings are gathered for a spread that takes any object and casts it first, and three are
    refused. -/
theorem spread_inverts_gathering_strings :
    let f : Handle := .direct "f" ⟨[.prim .int, .array .object], .object⟩ HostFunction.echo
    let c : Collector := ⟨{}, f, .array .object, []⟩
    let strings (names : List String) : Value := .array (.array .string) (names.map .str)
    let u : Handle := .direct "u" ⟨[.prim .int, .string, .string], .object⟩ HostFunction.echo
    c.Reachable (fun _ => True) ∧
      (∃ g r, (c.adapt ⟨[.prim .int, .object, .object], .object⟩).1 = .ok g ∧
        ({} : Host).spread ⟨[.prim .int, .array .object], .object⟩ g (.array .object) 1 2 = .ok r ∧
        r.invoke [.prim (.int 7), strings ["a", "b"]] = .ok (.array (.array .object)
          [.prim (.int 7), .array (.array .object) [.str "a", .str "b"]]) ∧
        r.invoke [.prim (.int 7), strings ["a"]] = .error (.arrayLength 2 1)) ∧
      ∃ s, ({} : Host).spread ⟨[.prim .int, .object], .object⟩ u (.array .string) 1 2 = .ok s ∧
        let d : Collector := ⟨{}, s, .array .string, []⟩
        d.Reachable (fun _ => True) ∧
        (∃ r, (d.adapt ⟨[.prim .int, .string, .string], .object⟩).1 = .ok r ∧
          r.invoke [.prim (.int 7), .str "a", .str "b"] =
            .ok (.array (.array .object) [.prim (.int 7), .str "a", .str "b"])) ∧
        ∃ r, (d.adapt ⟨[.prim .int, .string, .string, .string], .object⟩).1 = .ok r ∧
          r.invoke [.prim (.int 7), .str "a", .str "b", .str "c"] = .error (.arrayLength 2 3) := by
  intro f c strings u
  have hc : c.Reachable (fun _ => True) :=
    .collector trivial (.direct ..) (rfl : ({} : Host).collector f (.array .object) = .ok c)
  obtain ⟨hspread, -⟩ := spread_inverts_gathering (fun _ => True) c hc .object rfl (by rintro ⟨⟩)
  obtain ⟨g, r, hg, hr, hinvoke⟩ := hspread {} 2 rfl rfl
  have hkinds : ∀ v ∈ [Value.str "a", .str "b"], v.KindAgrees .object := by
    rintro v - d kind - ⟨⟩
  refine ⟨hc, ⟨g, r, hg, hr, ?_, ?_⟩, ?_⟩
  · exact ((hinvoke [.prim (.int 7)] (.array .string) [.str "a", .str "b"] rfl rfl rfl).1
      rfl hkinds).trans rfl
  · exact (hinvoke [.prim (.int 7)] (.array .string) [.str "a"] rfl rfl rfl).2 (by decide)
  · let s : Handle := .adapter ⟨[.prim .int, .object], .object⟩ (.cast 1 (.array .string))
      (.adapter ⟨[.prim .int, .array .string], .object⟩ (.spread 1 2 (.array .string) 2) u)
    have hs : ({} : Host).spread ⟨[.prim .int, .object], .object⟩ u (.array .string) 1 2 =
        .ok s := rfl
    have hbuild : ({} : Host).build ⟨[.prim .int, .object], .object⟩ u
        (.spread (.array .string) 1 2) = .ok s := hs
    refine ⟨s, hs, ?_⟩
    intro d
    have hd : d.Reachable (fun _ => True) :=
      .collector trivial (.build trivial (.direct ..) hbuild)
        (rfl : ({} : Host).collector s (.array .string) = .ok d)
    obtain ⟨-, hgather⟩ := spread_inverts_gathering (fun _ => True) d hd .string rfl (by rintro ⟨⟩)
    obtain ⟨r, hr, hinvoke⟩ := (hgather {} u 2 2 hs).2 rfl
    obtain ⟨r', hr', hrefused⟩ := (hgather {} u 2 3 hs).2 rfl
    refine ⟨hd, ⟨r, hr, ?_⟩, r', hr', ?_⟩
    · exact ((hinvoke [.prim (.int 7), .str "a", .str "b"] rfl rfl).1 rfl).trans rfl
    · exact (hrefused [.prim (.int 7), .str "a", .str "b", .str "c"] rfl rfl).2 (by decide)

end Collector

end CallBridge
