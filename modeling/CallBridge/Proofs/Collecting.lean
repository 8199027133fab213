import CallBridge.Proofs.Verified

/-!
# Collectors in use

A collector keeps collecting handles by the number of arguments alone, and keeps
them even where the caller is refused in the end. What it keeps is determined by its
function and its array type, so that the requests made so far do not show in its
answers, only in the list of arities it has handles for.
-/

namespace CallBridge

/-- What a function of signature `own` is called as when `count` elements stand in for its last
    parameter. -/
def Signature.collecting (own : Signature) (elem : Ty) (count : Nat) : Signature :=
  own.withParams (own.params.dropLast ++ List.replicate count elem)

namespace Collector

variable {c d fresh : Collector} {elem last : Ty} {h : Host} {t : Handle} {array : Ty}

/-- The number of parameters in front of the array. -/
def leading (c : Collector) : Nat :=
  c.signature.arity - 1

/-- The collecting handle for callers with `arity` arguments. -/
def gathering (c : Collector) (elem : Ty) (arity : Nat) : Handle :=
  .collect (c.signature.collecting elem (arity - c.leading)) c.leading (arity - c.leading) c.array
    c.target

/-- Whether a collector gathers elements of type `elem` for a last parameter of type `last`. -/
structure Takes (c : Collector) (elem last : Ty) : Prop where
  array : c.array = .array elem
  lastParam? : c.signature.lastParam? = some last
  passesFreely : c.array.passesFreely last = true

theorem Takes.arity (hc : c.Takes elem last) : c.signature.arity = c.leading + 1 := by
  have hpos : 0 < c.signature.params.length := by
    refine List.length_pos_iff.mpr ?_
    intro hnil
    have hlast := hc.lastParam?
    rw [Signature.lastParam?, hnil] at hlast
    cases hlast
  rw [leading, Signature.arity]
  omega

theorem Takes.collecting? (hc : c.Takes elem last) (arity : Nat) :
    c.target.collecting? c.array (arity + 1 - c.signature.arity) = some (c.gathering elem arity) := by
  have hcount : arity + 1 - c.signature.arity = arity - c.leading := by
    rw [hc.arity]
    omega
  have hlast : c.target.signature.lastParam? = some last := hc.lastParam?
  have helem : c.array.elem? = some elem := Ty.elem?_eq_some_iff.mpr hc.array
  rw [hcount, Handle.collecting?, hlast, helem]
  rfl

/-- A new collector keeps nothing yet. -/
theorem of_collector (hok : h.collector t array = .ok c) :
    c = ⟨h, t, array, []⟩ ∧ ∃ elem last, c.Takes elem last := by
  unfold Host.collector at hok
  dsimp only at hok
  split at hok
  · rename_i hfits
    cases hok
    rw [Bool.and_eq_true] at hfits
    obtain ⟨elem, helem⟩ := Option.isSome_iff_exists.mp hfits.1
    obtain ⟨last, hlast, hpass⟩ := (Option.any_eq_true _ _).mp hfits.2
    exact ⟨rfl, elem, last, Ty.elem?_eq_some_iff.mp helem, hlast, hpass⟩
  · cases hok

/-! ## One request -/

/-- Requests change nothing but the handles that are kept. -/
theorem adapt_snd (c : Collector) (new : Signature) :
    ∃ built, (c.adapt new).2 = { c with built := built } := by
  unfold Collector.adapt
  split
  · exact ⟨c.built, rfl⟩
  · split
    · exact ⟨c.built, rfl⟩
    · split
      · exact ⟨c.built, rfl⟩
      · split
        · exact ⟨_, rfl⟩
        · exact ⟨c.built, rfl⟩

/-- What a collector that keeps nothing answers. -/
def reply (c : Collector) (elem : Ty) (new : Signature) : Except AdaptError Handle :=
  if c.passesArray new then c.host.adapt new c.target
  else if new.arity < c.leading then .error (.notConvertible c.signature new)
  else c.host.adapt new (c.gathering elem new.arity)

theorem reply_congr (hhost : c.host = d.host) (htarget : c.target = d.target)
    (harray : c.array = d.array) (elem : Ty) (new : Signature) :
    c.reply elem new = d.reply elem new := by
  cases c
  cases d
  cases hhost
  cases htarget
  cases harray
  rfl

/-- Whether all handles that are kept are the collecting handles for their arities. -/
def Keeps (c : Collector) (elem : Ty) : Prop :=
  ∀ k node, (k, node) ∈ c.built → c.leading ≤ k ∧ node = c.gathering elem k

theorem Keeps.of_find? {k : Nat} {node : Handle} (hkeeps : c.Keeps elem)
    (hfind : c.find? k = some node) :
    c.leading ≤ k ∧ k ∈ c.arities ∧ node = c.gathering elem k := by
  obtain ⟨⟨k', node'⟩, hentry, rfl⟩ := Option.map_eq_some_iff.mp hfind
  have hmem := List.mem_of_find?_eq_some hentry
  have hk : k' = k := by simpa using List.find?_some hentry
  subst hk
  obtain ⟨hle, hnode⟩ := hkeeps k' node' hmem
  exact ⟨hle, List.mem_map_of_mem hmem, hnode⟩

/-- A request is answered as by a collector that keeps nothing. It leaves the collector alone, or
    adds the collecting handle for its arity. -/
theorem adapt_cases (hc : c.Takes elem last) (hkeeps : c.Keeps elem) (new : Signature) :
    (c.adapt new = (c.reply elem new, c) ∧
      (c.passesArray new = true ∨ new.arity < c.leading ∨ new.arity ∈ c.arities)) ∨
    (c.adapt new = (c.reply elem new, c.insert new.arity (c.gathering elem new.arity)) ∧
      c.passesArray new = false ∧ c.leading ≤ new.arity) := by
  have harity := hc.arity
  unfold Collector.adapt reply
  cases hpasses : c.passesArray new with
  | true => exact .inl ⟨rfl, .inl rfl⟩
  | false =>
    simp only [Bool.false_eq_true, if_false]
    cases hfind : c.find? new.arity with
    | some node =>
      obtain ⟨hle, hmem, rfl⟩ := hkeeps.of_find? hfind
      rw [if_neg (Nat.not_lt.mpr hle)]
      exact .inl ⟨rfl, .inr (.inr hmem)⟩
    | none =>
      by_cases hlt : new.arity < c.leading
      · rw [if_pos hlt, if_pos (by omega)]
        exact .inl ⟨rfl, .inr (.inl hlt)⟩
      · rw [if_neg hlt, if_neg (by omega), hc.collecting?]
        exact .inr ⟨rfl, trivial, Nat.not_lt.mp hlt⟩

/-! ### Kept handles -/

theorem mem_keys_insertByArity {arity k : Nat} {node : Handle} {entries : List (Nat × Handle)} :
    k ∈ (insertByArity arity node entries).map Prod.fst ↔
      k = arity ∨ k ∈ entries.map Prod.fst := by
  induction entries with
  | nil => simp [insertByArity]
  | cons entry rest ih =>
    obtain ⟨j, other⟩ := entry
    simp only [insertByArity]
    split
    · simp
    · split
      · rename_i heq
        simp [heq]
      · rw [List.map_cons, List.map_cons, List.mem_cons, List.mem_cons, ih]
        exact or_left_comm

theorem pairwise_keys_insertByArity {arity : Nat} {node : Handle} {entries : List (Nat × Handle)}
    (hsorted : (entries.map Prod.fst).Pairwise (· < ·)) :
    ((insertByArity arity node entries).map Prod.fst).Pairwise (· < ·) := by
  induction entries with
  | nil => simp [insertByArity]
  | cons entry rest ih =>
    obtain ⟨j, other⟩ := entry
    obtain ⟨hfirst, hrest⟩ := List.pairwise_cons.mp hsorted
    simp only [insertByArity]
    split
    · rename_i hlt
      refine List.pairwise_cons.mpr ⟨?_, hsorted⟩
      intro k hk
      rcases List.mem_cons.mp hk with rfl | hk
      · exact hlt
      · exact Nat.lt_trans hlt (hfirst k hk)
    · split
      · rename_i heq
        exact List.pairwise_cons.mpr ⟨heq ▸ hfirst, hrest⟩
      · refine List.pairwise_cons.mpr ⟨?_, ih hrest⟩
        intro k hk
        rcases mem_keys_insertByArity.mp hk with rfl | hk
        · omega
        · exact hfirst k hk

/-! ## Any number of requests -/

/-- The collector after a sequence of requests. -/
def after (c : Collector) (requests : List Signature) : Collector :=
  requests.foldl (fun c new => (c.adapt new).2) c

theorem after_concat (c : Collector) (requests : List Signature) (new : Signature) :
    c.after (requests ++ [new]) = ((c.after requests).adapt new).2 :=
  List.foldl_append

/-- How a collector stands to the requests it has answered since it was made as `fresh`. -/
structure Serving (fresh : Collector) (elem : Ty) (requests : List Signature) (c : Collector) :
    Prop where
  host : c.host = fresh.host
  target : c.target = fresh.target
  array : c.array = fresh.array
  keeps : c.Keeps elem
  ascending : c.arities.Pairwise (· < ·)
  mem_arities : ∀ k, k ∈ c.arities ↔ ∃ new ∈ requests,
    new.arity = k ∧ c.leading ≤ k ∧ c.passesArray new = false

namespace Serving

variable {requests : List Signature}

theorem nil (hbuilt : fresh.built = []) : Serving fresh elem [] fresh where
  host := rfl
  target := rfl
  array := rfl
  keeps := by
    intro k node hmem
    rw [hbuilt] at hmem
    cases hmem
  ascending := by
    rw [arities, hbuilt]
    exact .nil
  mem_arities k := by simp [arities, hbuilt]

theorem takes (hc : Serving fresh elem requests c) (hfresh : fresh.Takes elem last) :
    c.Takes elem last := by
  refine ⟨?_, ?_, ?_⟩
  · rw [hc.array, hfresh.array]
  · rw [signature, hc.target]
    exact hfresh.lastParam?
  · rw [hc.array]
    exact hfresh.passesFreely

theorem adapt (hc : Serving fresh elem requests c) (hfresh : fresh.Takes elem last)
    (new : Signature) : Serving fresh elem (requests ++ [new]) (c.adapt new).2 := by
  have hrequests : ∀ k, (∃ req ∈ requests ++ [new],
      req.arity = k ∧ c.leading ≤ k ∧ c.passesArray req = false) ↔
        k ∈ c.arities ∨ (new.arity = k ∧ c.leading ≤ k ∧ c.passesArray new = false) := by
    intro k
    simp only [List.mem_append, List.mem_singleton, or_and_right, exists_or, exists_eq_left,
      hc.mem_arities]
  rcases adapt_cases (hc.takes hfresh) hc.keeps new with ⟨heq, hwhy⟩ | ⟨heq, hpasses, hle⟩
  · rw [heq]
    refine ⟨hc.host, hc.target, hc.array, hc.keeps, hc.ascending, ?_⟩
    intro k
    rw [hrequests]
    refine ⟨.inl, ?_⟩
    rintro (hmem | ⟨rfl, hle, hpasses⟩)
    · exact hmem
    · rcases hwhy with htrue | hlt | hmem
      · rw [hpasses] at htrue
        cases htrue
      · omega
      · exact hmem
  · rw [heq]
    refine ⟨hc.host, hc.target, hc.array, ?_, pairwise_keys_insertByArity hc.ascending, ?_⟩
    · intro k node hmem
      rcases mem_insertByArity hmem with hnew | hmem
      · cases hnew
        exact ⟨hle, rfl⟩
      · exact hc.keeps k node hmem
    · intro k
      refine (mem_keys_insertByArity.trans ?_).trans (hrequests k).symm
      constructor
      · rintro (rfl | hmem)
        · exact .inr ⟨rfl, hle, hpasses⟩
        · exact .inl hmem
      · rintro (hmem | ⟨rfl, -⟩)
        · exact .inr hmem
        · exact .inl rfl

theorem after (hc : Serving fresh elem requests c) (hfresh : fresh.Takes elem last)
    (more : List Signature) : Serving fresh elem (requests ++ more) (c.after more) := by
  induction more generalizing requests c with
  | nil =>
    rw [List.append_nil]
    exact hc
  | cons new more ih =>
    have hnext := ih (hc.adapt hfresh new)
    rw [List.append_assoc] at hnext
    exact hnext

/-- The answer to a request does not show what was requested before. -/
theorem adapt_fst (hc : Serving fresh elem requests c) (hfresh : fresh.Takes elem last)
    (new : Signature) : (c.adapt new).1 = fresh.reply elem new := by
  have hreply := reply_congr hc.host hc.target hc.array elem new
  rcases adapt_cases (hc.takes hfresh) hc.keeps new with ⟨heq, -⟩ | ⟨heq, -⟩
  · rw [heq, hreply]
  · rw [heq, hreply]

end Serving

theorem serving_after (hok : h.collector t array = .ok fresh) (hfresh : fresh.Takes elem last)
    (requests : List Signature) : Serving fresh elem requests (fresh.after requests) := by
  obtain ⟨rfl, -⟩ := of_collector hok
  exact (Serving.nil rfl).after hfresh requests

/-- A collector in any state of use is a new one after some requests. -/
theorem Reachable.exists_after {hosts : Host → Prop} (hc : c.Reachable hosts) :
    ∃ fresh requests, c.host.collector c.target c.array = .ok fresh ∧ c = fresh.after requests := by
  -- The induction is on the collector alone: nothing is needed about the handles it comes from.
  refine @Collector.Reachable.rec hosts (fun _ _ => True)
    (fun c _ => ∃ fresh requests, c.host.collector c.target c.array = .ok fresh ∧
      c = fresh.after requests)
    ?direct ?build ?inner ?given ?collector ?adapt ?retarget c hc
  case direct | build | inner | given => intros; trivial
  case collector =>
    intro h t array c _ _ hok _
    obtain ⟨rfl, -⟩ := of_collector hok
    exact ⟨_, [], hok, rfl⟩
  case adapt =>
    rintro c new - ⟨fresh, requests, hok, hc⟩
    obtain ⟨built, hnext⟩ := adapt_snd c new
    refine ⟨fresh, requests ++ [new], ?_, ?_⟩
    · rw [hnext]
      exact hok
    · rw [after_concat, ← hc]
  case retarget =>
    rintro c d array - hok ⟨fresh, requests, hfresh, hc⟩
    unfold Collector.retarget at hok
    split at hok
    · cases hok
      exact ⟨fresh, requests, hfresh, hc⟩
    · obtain ⟨rfl, -⟩ := of_collector hok
      exact ⟨_, [], hok, rfl⟩

/-- A collector in any state of use answers as if it kept nothing. -/
theorem Reachable.adapt_fst {hosts : Host → Prop} (hc : c.Reachable hosts) :
    ∃ elem last, c.Takes elem last ∧ ∀ new, (c.adapt new).1 = c.reply elem new := by
  obtain ⟨fresh, requests, hok, hafter⟩ := hc.exists_after
  obtain ⟨-, elem, last, hfresh⟩ := of_collector hok
  have hserving := serving_after hok hfresh requests
  rw [← hafter] at hserving
  refine ⟨elem, last, hserving.takes hfresh, ?_⟩
  intro new
  rw [hserving.adapt_fst hfresh, reply_congr hserving.host hserving.target hserving.array]

/-- Whatever was requested of a collector, it answers the next request as a new one does. All handles
    it keeps are the collecting handles of its function for their arities, and it keeps one for each
    arity, no less than that of the leading parameters, of a request that did not pass the array
    itself, however the request ended. -/
theorem adapt_after (h : Host) (t : Handle) (array : Ty) (fresh : Collector)
    (hok : h.collector t array = .ok fresh) (requests : List Signature) :
    let c := fresh.after requests
    let leading := t.signature.arity - 1
    (∀ new, (c.adapt new).1 = (fresh.adapt new).1) ∧
    (∀ k node, (k, node) ∈ c.built → leading ≤ k ∧ ∃ elem, array = .array elem ∧
      node = .collect (t.signature.collecting elem (k - leading)) leading (k - leading) array t) ∧
    c.arities.Pairwise (· < ·) ∧
    (∀ k, k ∈ c.arities ↔ ∃ new ∈ requests,
      new.arity = k ∧ leading ≤ k ∧ fresh.passesArray new = false) := by
  intro c leading
  obtain ⟨rfl, elem, last, htakes⟩ := of_collector hok
  have hserving : Serving _ elem requests c := serving_after hok htakes requests
  have hnew : Serving _ elem [] ⟨h, t, array, []⟩ := serving_after hok htakes []
  have hleading : c.leading = leading := by
    rw [Collector.leading, signature, hserving.target]
  refine ⟨?_, ?_, hserving.ascending, ?_⟩
  · intro new
    rw [hserving.adapt_fst htakes, hnew.adapt_fst htakes]
  · intro k node hmem
    obtain ⟨hle, hnode⟩ := hserving.keeps k node hmem
    refine ⟨hleading ▸ hle, elem, htakes.array, ?_⟩
    rw [hnode, gathering, hleading, signature, hserving.target, hserving.array]
  · intro k
    have hmem := hserving.mem_arities k
    simp only [hleading, passesArray, signature, hserving.target, hserving.array] at hmem
    exact hmem

/-- One request is refused, one passes an array, one has no elements and one lacks an argument. -/
theorem adapt_after_mixed :
    let f : Handle := .direct "f" ⟨[.prim .int, .array .object], .object⟩ (fun _ => .ok .null)
    let fresh : Collector := ⟨{}, f, .array .object, []⟩
    let requests : List Signature :=
      [⟨[.prim .float, .object, .object], .object⟩, ⟨[.prim .int, .array .string], .object⟩,
        ⟨[.prim .int], .object⟩, ⟨[], .object⟩]
    let new : Signature := ⟨[.prim .int, .string, .string], .object⟩
    ({} : Host).collector f (.array .object) = .ok fresh ∧
      (fresh.after requests).arities = [1, 3] ∧
      ((fresh.after requests).adapt new).1 = (fresh.adapt new).1 ∧
      (∀ k, k ∈ [1, 3] ↔ ∃ req ∈ requests,
        req.arity = k ∧ 1 ≤ k ∧ fresh.passesArray req = false) := by
  intro f fresh requests new
  have hok : ({} : Host).collector f (.array .object) = .ok fresh := rfl
  have harities : (fresh.after requests).arities = [1, 3] := rfl
  obtain ⟨hsame, -, -, hmem⟩ := adapt_after {} f (.array .object) fresh hok requests
  rw [harities] at hmem
  exact ⟨hok, harities, hsame new, hmem⟩

end Collector

end CallBridge
