import CallBridge.Adapt
import CallBridge.Proofs.Rewiring

/-!
# Adapted handles

What stands in front of a handle that is adapted argument by argument. Conversions
are stacked from the first position to the last, so the chain in the middle of an
adaptation takes the caller's types at the positions that are converted already and
the target's everywhere else. `Handle.adapted` is the whole of it, a function of the
target and the signature asked for.
-/

namespace CallBridge

/-! ## Conversions between types -/

namespace Ty

variable {src dst : Ty}

/-- A conversion that needs work is a primitive cast, an unboxing or a checked cast. -/
theorem of_converts (h : src.converts dst = true) (hfree : src.passesFreely dst = false) :
    (∃ p q, src = .prim p ∧ dst = .prim q ∧ src.primCasts dst = true) ∨
      (src.isReference = true ∧ ∃ q, dst = .prim q) ∨
      (src.isReference = true ∧ dst.isReference = true) := by
  simp only [converts, hfree, Bool.false_eq_true, if_false] at h
  cases src with
  | prim p =>
    cases dst with
    | prim q => exact .inl ⟨p, q, rfl, rfl, h⟩
    | void | null | object | cls | iface | array => cases h
  | void =>
    cases dst with
    | prim q => cases h
    | void | null | object | cls | iface | array => cases h
  | null | object | cls | iface | array =>
    cases dst with
    | prim q => exact .inr (.inl ⟨rfl, q, rfl⟩)
    | void => cases h
    | null | object | cls | iface | array => exact .inr (.inr ⟨rfl, rfl⟩)

theorem ne_void_of_converts (h : src.converts dst = true) (hfree : src.passesFreely dst = false) :
    src ≠ .void := by
  rintro rfl
  rcases of_converts h hfree with ⟨p, q, hsrc, -⟩ | ⟨href, -⟩ | ⟨href, -⟩
  · cases hsrc
  · cases href
  · cases href

theorem passAll_of_getElem? {srcs dsts : List Ty} (hlen : srcs.length = dsts.length)
    (h : ∀ (j : Nat) src dst, srcs[j]? = some src → dsts[j]? = some dst →
      src.passesFreely dst = true) : PassAll .checked srcs dsts := by
  rw [PassAll, List.forall₂_iff_get]
  refine ⟨hlen, fun j hj hj' => ?_⟩
  exact passing_checked_iff.mpr
    (h j _ _ (List.getElem?_eq_getElem hj) (List.getElem?_eq_getElem hj'))

/-- Position by position, some single elementary step turns the one type into the other. -/
def ConvertAll (srcs dsts : List Ty) : Prop :=
  List.Forall₂ (fun src dst => src.converts dst = true) srcs dsts

/-! ### Counting the steps -/

/-- Whether an unboxing has to be preceded by a cast to the wrapper class. -/
def castsToUnbox (src dst : Ty) : Bool :=
  match dst with
  | .prim kind => src.isReference && !src.passesFreely (.wrapper kind)
  | _ => false

/-- The number of steps that pass the caller's types for the callee's: one for each pair that does
    not pass freely, and one more for each cast before an unboxing. -/
def stepCount (pairs : List (Ty × Ty)) : Nat :=
  pairs.countP (fun (src, dst) => !src.passesFreely dst) +
    pairs.countP (fun (src, dst) => src.castsToUnbox dst)

theorem castsToUnbox_of_passesFreely (hfree : src.passesFreely dst = true) :
    src.castsToUnbox dst = false := by
  cases dst with
  | prim kind =>
    cases href : src.isReference with
    | true =>
      rw [not_passesFreely_prim href] at hfree
      cases hfree
    | false =>
      rw [castsToUnbox, href]
      rfl
  | void | null | object | cls | iface | array => rfl

theorem stepCount_append (front back : List (Ty × Ty)) :
    stepCount (front ++ back) = stepCount front + stepCount back := by
  unfold stepCount
  rw [List.countP_append, List.countP_append]
  omega

theorem stepCount_of_passesFreely {pairs : List (Ty × Ty)}
    (h : ∀ src dst, (src, dst) ∈ pairs → src.passesFreely dst = true) : stepCount pairs = 0 := by
  have hwork : pairs.countP (fun (src, dst) => !src.passesFreely dst) = 0 :=
    List.countP_eq_zero.mpr fun (src, dst) hmem => by simp [h src dst hmem]
  have hcasts : pairs.countP (fun (src, dst) => src.castsToUnbox dst) = 0 :=
    List.countP_eq_zero.mpr fun (src, dst) hmem => by
      simp [castsToUnbox_of_passesFreely (h src dst hmem)]
  rw [stepCount, hwork, hcasts]

/-! ### One conversion between lists of types -/

/-- What may become of a type that is not being converted: it stays, or passes freely for the final
    one. -/
def Settles (caller callee final : Ty) : Prop :=
  (caller = callee ∧ caller ≠ .void) ∨ (caller.passesFreely callee = true ∧ callee = final)

theorem Settles.passesFreely {caller callee final : Ty} (h : Settles caller callee final) :
    caller.passesFreely callee = true := by
  rcases h with ⟨rfl, -⟩ | ⟨hfree, -⟩
  · exact passesFreely_refl caller
  · exact hfree

/-- At position `i` a type `src` of the caller is converted to `dst`. Types further on pass freely
    for the final ones, which the callee takes there; types further to the front settle. -/
inductive ConvertsAt (src dst : Ty) : (i : Nat) → (callers callees finals : List Ty) → Prop where
  | here {srcs dsts : List Ty} : src.passesFreely dst = false → PassAll .checked srcs dsts →
      ConvertsAt src dst 0 (src :: srcs) (dst :: dsts) (dst :: dsts)
  | later {i : Nat} {caller callee final : Ty} {callers callees finals : List Ty} :
      Settles caller callee final → ConvertsAt src dst i callers callees finals →
      ConvertsAt src dst (i + 1) (caller :: callers) (callee :: callees) (final :: finals)

namespace ConvertsAt

variable {i : Nat} {callers callees finals : List Ty}

theorem not_passesFreely (h : ConvertsAt src dst i callers callees finals) :
    src.passesFreely dst = false := by
  induction h with
  | here hfree _ => exact hfree
  | later _ _ ih => exact ih

theorem length_eq (h : ConvertsAt src dst i callers callees finals) :
    callers.length = callees.length := by
  induction h with
  | here _ hpass => simp only [List.length_cons, hpass.length_eq]
  | later _ _ ih => simp only [List.length_cons, ih]

theorem caller (h : ConvertsAt src dst i callers callees finals) : callers[i]? = some src := by
  induction h with
  | here => rfl
  | later _ _ ih => exact ih

theorem callee (h : ConvertsAt src dst i callers callees finals) : callees[i]? = some dst := by
  induction h with
  | here => rfl
  | later _ _ ih => exact ih

/-- Away from position `i` all types pass freely. -/
theorem passesFreely (h : ConvertsAt src dst i callers callees finals) {j : Nat} (hj : j ≠ i)
    {s t : Ty} (hs : callers[j]? = some s) (ht : callees[j]? = some t) :
    s.passesFreely t = true := by
  induction h generalizing j with
  | here _ hpass =>
    cases j with
    | zero => exact absurd rfl hj
    | succ j =>
      obtain ⟨hlt, rfl⟩ := List.getElem?_eq_some_iff.mp hs
      obtain ⟨hlt', rfl⟩ := List.getElem?_eq_some_iff.mp ht
      exact passing_checked_iff.mp (hpass.get (Nat.lt_of_succ_lt_succ hlt) (Nat.lt_of_succ_lt_succ hlt'))
  | later hhead _ ih =>
    cases j with
    | zero =>
      cases hs
      cases ht
      exact hhead.passesFreely
    | succ j => exact ih (fun h => hj (congrArg (· + 1) h)) hs ht

/-- A conversion at `i` is the one difference between the signatures on its two sides. -/
theorem difference_eq {caller callee : Signature}
    (h : ConvertsAt src dst i caller.params callee.params finals)
    (hret : callee.ret.passesFreely caller.ret = true) :
    caller.difference callee .checked = .single i := by
  have hi : i < caller.arity := (List.getElem?_eq_some_iff.mp h.caller).1
  rw [Signature.difference_eq_single_iff]
  refine ⟨Signature.returnsMatch_checked_iff.mpr hret, h.length_eq, fun k => ?_⟩
  constructor
  · rintro ⟨hk, hdiffers⟩
    by_contra hne
    have hk' : k < callee.params.length := h.length_eq ▸ hk
    have hsame : caller.differsAt callee .checked k k = false :=
      Signature.differsAt_eq_false_iff.mpr ⟨_, _, List.getElem?_eq_getElem hk,
        List.getElem?_eq_getElem hk', passing_checked_iff.mpr
          (h.passesFreely hne (List.getElem?_eq_getElem hk) (List.getElem?_eq_getElem hk'))⟩
    rw [hsame] at hdiffers
    cases hdiffers
  · rintro rfl
    refine ⟨hi, ?_⟩
    rw [← Bool.not_eq_false, Signature.differsAt_eq_false_iff]
    rintro ⟨s, t, hs, ht, hpass⟩
    obtain rfl := Option.some.inj (h.caller.symm.trans hs)
    obtain rfl := Option.some.inj (h.callee.symm.trans ht)
    rw [passing_checked_iff, h.not_passesFreely] at hpass
    cases hpass

end ConvertsAt

/-! ### Halfway from one list to another -/

/-- The types between the steps of an adaptation from `srcs` to `dsts`. Of the positions below `i`,
    those that need converting still have the caller's types; all others have the final ones. -/
def midway : (i : Nat) → (srcs dsts : List Ty) → List Ty
  | i + 1, src :: srcs, dst :: dsts =>
    (if src.passesFreely dst then dst else src) :: midway i srcs dsts
  | _, _, dsts => dsts

@[simp] theorem midway_zero (srcs dsts : List Ty) : midway 0 srcs dsts = dsts := by
  cases srcs <;> rfl

variable {srcs dsts : List Ty} {i : Nat}

theorem getElem?_midway (srcs dsts : List Ty) (i : Nat) : (midway i srcs dsts)[i]? = dsts[i]? := by
  induction i generalizing srcs dsts with
  | zero => simp
  | succ i ih =>
    cases srcs with
    | nil => rfl
    | cons src srcs =>
      cases dsts with
      | nil => rfl
      | cons dst dsts => exact ih srcs dsts

theorem midway_succ (hsrc : srcs[i]? = some src) (hdst : dsts[i]? = some dst) :
    midway (i + 1) srcs dsts =
      (midway i srcs dsts).set i (if src.passesFreely dst then dst else src) := by
  induction i generalizing srcs dsts with
  | zero =>
    cases srcs with
    | nil => cases hsrc
    | cons s srcs =>
      cases dsts with
      | nil => cases hdst
      | cons d dsts =>
        cases hsrc
        cases hdst
        simp [midway]
  | succ i ih =>
    cases srcs with
    | nil => cases hsrc
    | cons s srcs =>
      cases dsts with
      | nil => cases hdst
      | cons d dsts =>
        rw [midway, ih hsrc hdst, midway]
        rfl

/-- A position that passes freely changes nothing. -/
theorem midway_succ_of_passesFreely (hsrc : srcs[i]? = some src) (hdst : dsts[i]? = some dst)
    (hfree : src.passesFreely dst = true) : midway (i + 1) srcs dsts = midway i srcs dsts := by
  have hhere := (getElem?_midway srcs dsts i).trans hdst
  obtain ⟨hlt, rfl⟩ := List.getElem?_eq_some_iff.mp hhere
  rw [midway_succ hsrc hdst, if_pos hfree, List.set_getElem_self]

/-- Adding one conversion in the middle of an adaptation. -/
theorem convertsAt_midway (hconv : ConvertAll srcs dsts)
    (hsrc : srcs[i]? = some src) (hdst : dsts[i]? = some dst)
    (hfree : src.passesFreely dst = false) :
    ConvertsAt src dst i (midway (i + 1) srcs dsts) (midway i srcs dsts) dsts := by
  induction i generalizing srcs dsts with
  | zero =>
    cases hconv with
    | nil => cases hsrc
    | cons _ htail =>
      cases hsrc
      cases hdst
      rw [midway, hfree, midway_zero, midway_zero]
      exact .here hfree (passAll_refl _)
  | succ i ih =>
    cases hconv with
    | nil => cases hsrc
    | @cons s d _ _ hhead htail =>
      rw [midway, midway]
      refine .later ?_ (ih htail hsrc hdst)
      cases hpass : s.passesFreely d with
      | true => exact .inr ⟨passesFreely_refl _, rfl⟩
      | false => exact .inl ⟨rfl, ne_void_of_converts hhead hpass⟩

/-- Adding the last conversion, which takes all types of the caller as they are. -/
theorem convertsAt_last (hconv : ConvertAll srcs dsts)
    (hsrc : srcs[i]? = some src) (hdst : dsts[i]? = some dst)
    (hfree : src.passesFreely dst = false)
    (hafter : ∀ (j : Nat) s d, i < j → srcs[j]? = some s → dsts[j]? = some d →
      s.passesFreely d = true) :
    ConvertsAt src dst i srcs (midway i srcs dsts) dsts := by
  induction i generalizing srcs dsts with
  | zero =>
    cases hconv with
    | nil => cases hsrc
    | cons _ htail =>
      cases hsrc
      cases hdst
      rw [midway_zero]
      refine .here hfree (passAll_of_getElem? htail.length_eq ?_)
      intro j s d hs hd
      exact hafter (j + 1) s d (Nat.zero_lt_succ j) hs hd
  | succ i ih =>
    cases hconv with
    | nil => cases hsrc
    | @cons s d _ _ hhead htail =>
      rw [midway]
      refine .later ?_ (ih htail hsrc hdst ?_)
      · cases hpass : s.passesFreely d with
        | true => exact .inr ⟨hpass, rfl⟩
        | false => exact .inl ⟨rfl, ne_void_of_converts hhead hpass⟩
      · intro j s d hj hs hd
        exact hafter (j + 1) s d (Nat.succ_lt_succ hj) hs hd

/-- Changing one type to another that it does not pass for. -/
theorem convertsAt_set {type : Ty} (hsrc : srcs[i]? = some src)
    (hfree : src.passesFreely type = false) :
    ConvertsAt src type i srcs (srcs.set i type) (srcs.set i type) := by
  induction i generalizing srcs with
  | zero =>
    cases srcs with
    | nil => cases hsrc
    | cons s srcs =>
      cases hsrc
      exact .here hfree (passAll_refl _)
  | succ i ih =>
    cases srcs with
    | nil => cases hsrc
    | cons s srcs => exact .later (.inr ⟨passesFreely_refl s, rfl⟩) (ih hsrc)

end Ty

/-! ## Signatures that adapt -/

namespace Signature

variable {new old : Signature}

theorem adaptsTo_iff : old.adaptsTo new = true ↔ old.ret.passesFreely new.ret = true ∧
    Ty.ConvertAll new.params old.params := by
  simp only [adaptsTo, Ty.ConvertAll, Bool.and_eq_true, beq_iff_eq, List.all_eq_true, Prod.forall,
    List.forall₂_iff_zip, and_assoc, arity]
  constructor
  · rintro ⟨harity, hret, hall⟩
    exact ⟨hret, harity, fun {src dst} hmem => hall src dst hmem⟩
  · rintro ⟨hret, harity, hall⟩
    exact ⟨harity, hret, fun src dst hmem => hall src dst hmem⟩

/-- What holds of the parameters pairwise holds at each position. -/
theorem rel_paramAt {R : Ty → Ty → Prop} {i : Nat} (h : List.Forall₂ R new.params old.params)
    (hi : i < new.arity) : R (new.paramAt i) (old.paramAt i) := by
  have harity : new.arity = old.arity := h.length_eq
  have hold : i < old.arity := harity ▸ hi
  obtain ⟨hi, hsrc⟩ := List.getElem?_eq_some_iff.mp (param?_eq_paramAt hi)
  obtain ⟨hold, hdst⟩ := List.getElem?_eq_some_iff.mp (param?_eq_paramAt hold)
  rw [← hsrc, ← hdst]
  exact h.get hi hold

theorem adaptsTo_refl (s : Signature) : s.adaptsTo s = true := by
  refine adaptsTo_iff.mpr ⟨Ty.passesFreely_refl _, List.forall₂_same.mpr fun t _ => ?_⟩
  rw [Ty.converts, if_pos (Ty.passesFreely_refl t)]

/-- The signature between the steps of an adaptation, with the positions below `i` dealt with. -/
def midway (new old : Signature) (i : Nat) : Signature :=
  ⟨Ty.midway i new.params old.params, new.ret⟩

theorem midway_zero (new old : Signature) : new.midway old 0 = old.withRet new.ret := by
  rw [midway, Ty.midway_zero]
  rfl

theorem param?_midway {i : Nat} (hold : i < old.arity) :
    (new.midway old i).param? i = some (old.paramAt i) :=
  (Ty.getElem?_midway _ _ _).trans (param?_eq_paramAt hold)

section Midway

variable {i : Nat} (hnew : i < new.arity) (hold : i < old.arity)
include hnew hold

theorem midway_succ_of_passesFreely
    (hfree : (new.paramAt i).passesFreely (old.paramAt i) = true) :
    new.midway old (i + 1) = new.midway old i := by
  rw [midway, Ty.midway_succ_of_passesFreely (param?_eq_paramAt hnew) (param?_eq_paramAt hold) hfree]
  rfl

theorem midway_succ_of_not_passesFreely
    (hfree : (new.paramAt i).passesFreely (old.paramAt i) = false) :
    new.midway old (i + 1) = (new.midway old i).withParam i (new.paramAt i) := by
  rw [midway, Ty.midway_succ (param?_eq_paramAt hnew) (param?_eq_paramAt hold), hfree]
  rfl

end Midway

/-- The last conversion is one, and everything behind it passes freely. -/
theorem of_lastConversion? {last : Nat} (harity : new.arity = old.arity)
    (h : new.lastConversion? old = some last) :
    last < new.arity ∧ (new.paramAt last).passesFreely (old.paramAt last) = false ∧
      ∀ (j : Nat) src dst, last < j → new.params[j]? = some src → old.params[j]? = some dst →
        src.passesFreely dst = true := by
  obtain ⟨front, hfront⟩ := List.getLast?_eq_some_iff.mp h
  have hmem := List.mem_filter.mp (List.mem_of_getLast? h)
  have hlast := List.mem_range.mp hmem.1
  refine ⟨hlast, ?_, fun j src dst hj hsrc hdst => ?_⟩
  · have hlast' : last < old.arity := harity ▸ hlast
    simpa [param?_eq_paramAt hlast, param?_eq_paramAt hlast'] using hmem.2
  · -- A later conversion would stand behind the last one in the ascending list of them.
    cases hfree : src.passesFreely dst with
    | true => rfl
    | false =>
      have hin : j ∈ front ++ [last] := by
        rw [← hfront, List.mem_filter]
        refine ⟨List.mem_range.mpr (List.getElem?_eq_some_iff.mp hsrc).1, ?_⟩
        simp [param?, hsrc, hdst, hfree]
      have hsorted : (front ++ [last]).Pairwise (· < ·) :=
        hfront ▸ List.pairwise_lt_range.filter _
      rcases List.mem_append.mp hin with hin | hin
      · have hlt := (List.pairwise_append.mp hsorted).2.2 j hin last (List.mem_singleton.mpr rfl)
        omega
      · rw [List.mem_singleton] at hin
        omega

theorem lastConversion?_eq_none_iff (harity : new.arity = old.arity) :
    new.lastConversion? old = none ↔ Ty.PassAll .checked new.params old.params := by
  constructor
  · intro hnone
    rw [lastConversion?, List.getLast?_eq_none_iff, List.filter_eq_nil_iff] at hnone
    refine Ty.passAll_of_getElem? harity fun i src dst hsrc hdst => ?_
    have hi : i < new.arity := (List.getElem?_eq_some_iff.mp hsrc).1
    have hfree := hnone i (List.mem_range.mpr hi)
    simpa [param?, hsrc, hdst] using hfree
  · intro hpass
    cases hlast : new.lastConversion? old with
    | none => rfl
    | some last =>
      obtain ⟨hin, hwork, -⟩ := of_lastConversion? harity hlast
      rw [Ty.passing_checked_iff.mp (rel_paramAt hpass hin)] at hwork
      cases hwork

end Signature

/-! ## What is built -/

namespace Handle

variable {t target : Handle} {s new : Signature} {i : Nat}

/-- `t` behind the steps that convert the argument at `i` from `src` to `dst`. -/
def converting (t : Handle) (s : Signature) (i : Nat) (src dst : Ty) : Handle :=
  match dst with
  | .prim kind =>
    match src with
    | .prim source => .adapter s (.primCast i source kind) t
    | _ =>
      if src.passesFreely (.wrapper kind) then .adapter s (.unbox i kind (.wrapper kind)) t
      else
        .adapter s (.cast i (.wrapper kind))
          (.adapter (s.withParam i (.wrapper kind)) (.unbox i kind (.wrapper kind)) t)
  | _ => .adapter s (.cast i dst) t

@[simp] theorem signature_converting (t : Handle) (s : Signature) (i : Nat) (src dst : Ty) :
    (t.converting s i src dst).signature = s := by
  unfold converting
  split
  · split
    · rfl
    · split <;> rfl
  · rfl

theorem converting_unbox {src : Ty} (hsrc : src.isReference = true) (t : Handle) (s : Signature)
    (i : Nat) (kind : Prim) :
    t.converting s i src (.prim kind) =
      if src.passesFreely (.wrapper kind) then .adapter s (.unbox i kind (.wrapper kind)) t
      else .adapter s (.cast i (.wrapper kind))
        (.adapter (s.withParam i (.wrapper kind)) (.unbox i kind (.wrapper kind)) t) := by
  cases src with
  | void | prim => cases hsrc
  | null | object | cls | iface | array => rfl

theorem converting_cast {dst : Ty} (hdst : dst.isReference = true) (t : Handle) (s : Signature)
    (i : Nat) (src : Ty) : t.converting s i src dst = .adapter s (.cast i dst) t := by
  cases dst with
  | void | prim => cases hdst
  | null | object | cls | iface | array => rfl

/-- `target` with the arguments below `i` converted from what `new` declares. -/
def midway (target : Handle) (new : Signature) : (i : Nat) → Handle
  | 0 => target
  | i + 1 =>
    let src := new.paramAt i
    let dst := target.signature.paramAt i
    if src.passesFreely dst then target.midway new i
    else (target.midway new i).converting (new.midway target.signature (i + 1)) i src dst

/-- The chain in the middle of an adaptation takes the types it should. -/
theorem params_midway (harity : new.arity = target.signature.arity) (hi : i ≤ new.arity) :
    (target.midway new i).signature.params = Ty.midway i new.params target.signature.params := by
  induction i with
  | zero => exact (Ty.midway_zero new.params _).symm
  | succ i ih =>
    rw [midway]
    split
    · rename_i hfree
      rw [Ty.midway_succ_of_passesFreely (Signature.param?_eq_paramAt hi)
        (Signature.param?_eq_paramAt (harity ▸ hi)) hfree]
      exact ih (Nat.le_of_succ_le hi)
    · rw [signature_converting]
      rfl

theorem ret_midway (hret : target.signature.ret.passesFreely new.ret = true) (i : Nat) :
    (target.midway new i).signature.ret.passesFreely new.ret = true := by
  induction i with
  | zero => exact hret
  | succ i ih =>
    rw [midway]
    split
    · exact ih
    · rw [signature_converting]
      exact Ty.passesFreely_refl _

/-- `target` with all arguments converted from what `new` declares. The outermost conversion takes
    the signature as it is; if there is none, a retype does. -/
def adapted (target : Handle) (new : Signature) : Handle :=
  match new.lastConversion? target.signature with
  | some last =>
    (target.midway new last).converting new last (new.paramAt last) (target.signature.paramAt last)
  | none => .adapter new (.retype .checked) target

@[simp] theorem signature_adapted (target : Handle) (new : Signature) :
    (target.adapted new).signature = new := by
  unfold adapted
  split
  · exact signature_converting _ _ _ _ _
  · rfl

/-! ### The length of the chain -/

/-- One conversion takes one node, or two if a cast comes before an unboxing. -/
theorem chain_converting {src dst : Ty} (hconv : src.converts dst = true)
    (hfree : src.passesFreely dst = false) :
    ∃ nodes, (t.converting s i src dst).chain = nodes ++ t.chain ∧
      nodes.length = Ty.stepCount [(src, dst)] := by
  rcases Ty.of_converts hconv hfree with ⟨p, q, rfl, rfl, -⟩ | ⟨hsrc, q, rfl⟩ | ⟨hsrc, hdst⟩
  · refine ⟨[.adapter s (.primCast i p q) t], rfl, ?_⟩
    simp [Ty.stepCount, Ty.castsToUnbox, hfree, Ty.isReference]
  · rw [converting_unbox hsrc]
    split
    · rename_i hwrapper
      refine ⟨[_], rfl, ?_⟩
      simp [Ty.stepCount, Ty.castsToUnbox, hfree, hwrapper]
    · rename_i hwrapper
      refine ⟨[_, _], rfl, ?_⟩
      simp [Ty.stepCount, Ty.castsToUnbox, hfree, hwrapper, hsrc]
  · have hcasts : src.castsToUnbox dst = false := by
      cases dst with
      | prim => cases hdst
      | void | null | object | cls | iface | array => rfl
    rw [converting_cast hdst]
    refine ⟨[_], rfl, ?_⟩
    simp [Ty.stepCount, hcasts, hfree]

variable (hconv : Ty.ConvertAll new.params target.signature.params)
include hconv

theorem take_zip_succ (hi : i < new.arity) :
    (new.params.zip target.signature.params).take (i + 1) =
      (new.params.zip target.signature.params).take i ++
        [(new.paramAt i, target.signature.paramAt i)] := by
  have harity : new.arity = target.signature.arity := hconv.length_eq
  have hpair : (new.params.zip target.signature.params)[i]? =
      some (new.paramAt i, target.signature.paramAt i) :=
    List.getElem?_zip_eq_some.mpr
      ⟨Signature.param?_eq_paramAt hi, Signature.param?_eq_paramAt (harity ▸ hi)⟩
  rw [List.take_add_one, hpair]
  rfl

/-- The chain grows by what each position takes. -/
theorem chain_midway (hi : i ≤ new.arity) :
    ∃ nodes, (target.midway new i).chain = nodes ++ target.chain ∧
      nodes.length = Ty.stepCount ((new.params.zip target.signature.params).take i) := by
  induction i with
  | zero => exact ⟨[], rfl, rfl⟩
  | succ i ih =>
    obtain ⟨nodes, hchain, hlen⟩ := ih (Nat.le_of_succ_le hi)
    rw [take_zip_succ hconv hi, Ty.stepCount_append, ← hlen, midway]
    cases hfree : (new.paramAt i).passesFreely (target.signature.paramAt i) with
    | true =>
      refine ⟨nodes, hchain, ?_⟩
      rw [Ty.stepCount_of_passesFreely]
      · rfl
      · intro src dst hmem
        cases List.mem_singleton.mp hmem
        exact hfree
    | false =>
      obtain ⟨front, hfront, hcount⟩ :=
        chain_converting (s := new.midway target.signature (i + 1)) (t := target.midway new i)
          (i := i) (Signature.rel_paramAt hconv hi) hfree
      refine ⟨front ++ nodes, ?_, ?_⟩
      · rw [List.append_assoc, ← hchain]
        exact hfront
      · rw [List.length_append, hcount, Nat.add_comm]

/-- Positions behind the last conversion take nothing. -/
theorem chain_adapted {last : Nat} (hlast : new.lastConversion? target.signature = some last) :
    ∃ nodes, (target.adapted new).chain = nodes ++ target.chain ∧
      nodes.length = Ty.stepCount (new.params.zip target.signature.params) := by
  have harity : new.arity = target.signature.arity := hconv.length_eq
  obtain ⟨hin, hwork, hafter⟩ := Signature.of_lastConversion? harity hlast
  obtain ⟨nodes, hchain, hlen⟩ := chain_midway hconv (Nat.le_of_lt hin)
  obtain ⟨front, hfront, hcount⟩ :=
    chain_converting (s := new) (t := target.midway new last) (i := last)
      (Signature.rel_paramAt hconv hin) hwork
  have hrest : Ty.stepCount ((new.params.zip target.signature.params).drop (last + 1)) = 0 := by
    refine Ty.stepCount_of_passesFreely fun src dst hmem => ?_
    obtain ⟨j, hj⟩ := List.mem_iff_getElem?.mp hmem
    rw [List.getElem?_drop] at hj
    obtain ⟨hsrc, hdst⟩ := List.getElem?_zip_eq_some.mp hj
    exact hafter _ src dst (by omega) hsrc hdst
  refine ⟨front ++ nodes, ?_, ?_⟩
  · rw [adapted, hlast, List.append_assoc, ← hchain]
    exact hfront
  · rw [← List.take_append_drop (last + 1) (new.params.zip _), Ty.stepCount_append, hrest,
      take_zip_succ hconv hin, Ty.stepCount_append, ← hlen, List.length_append, hcount]
    omega

end Handle

end CallBridge
