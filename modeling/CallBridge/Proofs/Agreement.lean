import CallBridge.Proofs.Retyping

/-!
# Predicates and constructors

A constructor does more than ask its predicate. A count of none turns it into a
retype, which has a check of its own; a rotation may be refused before the
predicate is asked; a cast that goes first compares the caller's signature with
one that was made up on the way. On a host that runs retypes and casts, none of
this lets a constructor refuse what its predicate allows, or the other way
around.
-/

namespace CallBridge

/-- Whether the request is for one elementary adapter that has a constructor: a retype in checked
    mode, a conversion of one argument, or a reshaping; a swap names the earlier argument first. -/
def Request.IsElementary : Request → Prop
  | .retype mode => mode = .checked
  | .swap first second => first < second
  | .cast .. | .primCast .. | .unbox .. | .drop .. | .dup .. | .rotate .. | .spread .. => True
  | .adapt | .rewire _ | .box .. | .collect | .flyby | .ricochet => False

namespace Host

variable {h : Host} {new : Signature} {t : Handle} {arg pos count : Nat} {type src : Ty}

/-- A constructor that asks its predicate first agrees with it if it never fails afterwards. -/
theorem exists_ite_refuse_iff {can : Bool} {built : Except AdaptError Handle}
    (hbuilt : can = true → ∃ r, built = .ok r) :
    (∃ r, (if can then built else refuse new t) = .ok r) ↔ can = true := by
  cases can with
  | true => exact ⟨fun _ => rfl, fun _ => hbuilt rfl⟩
  | false =>
    constructor
    · rintro ⟨r, hok⟩
      cases hok
    · intro hfalse
      cases hfalse

/-! ## Retypes -/

/-- A handle that has the signature already would pass the check too. -/
theorem exists_retype_checked_iff (hop : h.supports .retypeOnly = true) :
    (∃ r, h.retype new t .checked = .ok r) ↔ h.canRetype new t.signature .checked = true := by
  rw [exists_retype_iff]
  refine or_iff_right_of_imp fun hsame => ?_
  rw [hsame]
  exact canRetype_iff.mpr ⟨hop, new.passes_refl⟩

/-! ## Conversions -/

theorem exists_cast_iff :
    (∃ r, h.cast new t arg type = .ok r) ↔ h.canCast new t.signature arg type = true :=
  exists_ite_refuse_iff fun _ => ⟨_, rfl⟩

/-- Only primitives are converted to one another. -/
theorem exists_prims_of_primCasts {src dst : Ty} (hcasts : src.primCasts dst = true) :
    ∃ source kind, src.asPrim? = some source ∧ dst.asPrim? = some kind := by
  unfold Ty.primCasts at hcasts
  split at hcasts
  · exact ⟨_, _, ‹_›, ‹_›⟩
  · cases hcasts

theorem exists_primCast_iff :
    (∃ r, h.primCast new t arg type = .ok r) ↔
      h.canPrimCast new t.signature arg type = true := by
  refine exists_ite_refuse_iff fun hcan => ?_
  rw [canPrimCast, Bool.and_eq_true, canConvertAt_iff] at hcan
  obtain ⟨-, -, src, dst, hsrc, -, hcasts, -⟩ := hcan
  obtain ⟨source, kind, hsource, hkind⟩ := exists_prims_of_primCasts hcasts
  simp [hsrc, hsource, hkind]

/-- A cast in front of a step that takes the casted type instead: that argument is the only
    difference, so the cast is never refused. -/
theorem canCast_withParam (hop : h.supports .checkCast = true) (hsrc : new.param? arg = some src)
    (hfree : src.passesFreely type = false) (hcasts : src.casts type = true) :
    h.canCast new (new.withParam arg type) arg type = true := by
  rw [canCast, hop, Bool.true_and]
  exact canConvertAt_of_convertsAt (Ty.convertsAt_set hsrc hfree) (Ty.passesFreely_refl new.ret)
    hcasts (Ty.passesFreely_refl type)

theorem of_canUnbox {u : Signature} (hcan : h.canUnbox new u arg type = true) :
    ∃ kind src, kindNamed? type = some kind ∧ new.param? arg = some src ∧
      src.casts (.wrapper kind) = true := by
  cases hkind : kindNamed? type with
  | none =>
    rw [canUnbox, hkind] at hcan
    cases hcan
  | some kind =>
    rw [canUnbox_iff hkind, canConvertAt_iff] at hcan
    obtain ⟨-, -, src, -, hsrc, -, hcasts, -⟩ := hcan
    exact ⟨kind, src, rfl, hsrc, hcasts⟩

/-- An argument that does not pass for the wrapper class is cast to it, then unboxed. -/
theorem unbox_eq_cast {kind : Prim} (hop : h.supports .checkCast = true)
    (hcan : h.canUnbox new t.signature arg type = true) (hkind : kindNamed? type = some kind)
    (hsrc : new.param? arg = some src) (hfree : src.passesFreely (.wrapper kind) = false) :
    h.canCast new (new.withParam arg (.wrapper kind)) arg (.wrapper kind) = true ∧
      h.unbox new t arg type = .ok (.adapter new (.cast arg (.wrapper kind))
        (.adapter (new.withParam arg (.wrapper kind)) (.unbox arg kind (.wrapper kind)) t)) := by
  obtain ⟨kind', src', hkind', hsrc', hcasts⟩ := of_canUnbox hcan
  obtain rfl := Option.some.inj (hkind.symm.trans hkind')
  obtain rfl := Option.some.inj (hsrc.symm.trans hsrc')
  have hcast := canCast_withParam hop hsrc hfree hcasts
  refine ⟨hcast, ?_⟩
  simp only [unbox, hcan, hkind, hsrc, hfree, if_true, Bool.false_eq_true, if_false]
  exact if_pos hcast

theorem exists_unbox_iff (hop : h.supports .checkCast = true) :
    (∃ r, h.unbox new t arg type = .ok r) ↔ h.canUnbox new t.signature arg type = true := by
  refine exists_ite_refuse_iff fun hcan => ?_
  obtain ⟨kind, src, hkind, hsrc, hcasts⟩ := of_canUnbox hcan
  simp only [hkind, hsrc]
  cases hfree : src.passesFreely (.wrapper kind) with
  | true => exact ⟨_, rfl⟩
  | false => exact exists_cast_iff.mpr (canCast_withParam hop hsrc hfree hcasts)

/-! ## Reshapings -/

/-- Dropping none is a retype, for the predicate as for the constructor. -/
theorem exists_drop_iff (hop : h.supports .retypeOnly = true) :
    (∃ r, h.drop new t pos count = .ok r) ↔ h.canDrop new t.signature pos count = true := by
  by_cases hcount : count = 0
  · rw [drop, canDrop, if_pos hcount, if_pos hcount]
    exact exists_retype_checked_iff hop
  · rw [drop, if_neg hcount]
    exact exists_ite_refuse_iff fun _ => ⟨_, rfl⟩

/-- A target that takes the arguments and no copies is one that passes. -/
theorem passes_of_canDup_zero {u : Signature} (hcan : h.canDup new u pos 0 = true) :
    new.Passes .checked u := by
  simp only [canDup, Bool.and_eq_true, decide_eq_true_eq, Nat.add_zero, and_assoc] at hcan
  obtain ⟨-, hret, -, harity, hparams, -⟩ := hcan
  refine Signature.difference_eq_zero_iff.mp ?_
  rw [Signature.difference, hret, if_neg (by decide), if_neg (not_not.mpr harity.symm)]
  exact beq_iff_eq.mp hparams

theorem exists_dup_iff (hop : h.supports .retypeOnly = true) :
    (∃ r, h.dup new t pos count = .ok r) ↔ h.canDup new t.signature pos count = true := by
  refine exists_ite_refuse_iff fun hcan => ?_
  by_cases hcount : count = 0
  · subst hcount
    rw [if_pos rfl, exists_retype_checked_iff hop]
    exact canRetype_iff.mpr ⟨hop, passes_of_canDup_zero hcan⟩
  · exact ⟨_, if_neg hcount⟩

theorem exists_swap_iff {first second : Nat} (hlt : first < second) :
    (∃ r, h.swap new t first second = .ok r) ↔
      h.canSwap new t.signature first second = true := by
  rw [swap, if_neg (Nat.ne_of_lt hlt)]
  have hle := Nat.le_of_lt hlt
  simp only [Nat.min_eq_left hle, Nat.max_eq_right hle]
  refine exists_ite_refuse_iff fun hcan => ?_
  obtain ⟨-, ⟨-, hsecond, -⟩, -⟩ := canSwap_iff.mp hcan
  have hfirst : new.param? first = some _ := List.getElem?_eq_getElem (Nat.lt_trans hlt hsecond)
  rw [hfirst]
  exact ⟨_, rfl⟩

theorem swap_comm (h : Host) (new : Signature) (t : Handle) (first second : Nat) :
    h.swap new t first second = h.swap new t second first := by
  by_cases hsame : first = second
  · rw [hsame]
  · rw [swap, swap, if_neg hsame, if_neg (Ne.symm hsame), Nat.min_comm, Nat.max_comm]

/-- What is refused for being too wide is not allowed either. -/
theorem canRotate_eq_false_of_isWideRotation {u : Signature} {first : Nat} {amount : Int}
    (hwide : isWideRotation count (rotationAmount count amount) = true) :
    h.canRotate new u first count amount = false := by
  simp [canRotate, hwide]

theorem exists_rotate_iff {first : Nat} {amount : Int} :
    (∃ r, h.rotate new t first count amount = .ok r) ↔
      h.canRotate new t.signature first count amount = true := by
  simp only [rotate]
  split
  · rename_i hwide
    rw [canRotate_eq_false_of_isWideRotation hwide.2]
    simp
  · refine exists_ite_refuse_iff fun hcan => ?_
    obtain ⟨-, ⟨hcount, hin, -⟩, -⟩ := canRotate_iff.mp hcan
    have hmoved : ∀ i, i < first + count → ∃ type, new.param? i = some type :=
      fun i hi => ⟨_, List.getElem?_eq_getElem (Nat.lt_of_lt_of_le hi hin)⟩
    by_cases hone : rotationAmount count amount = 1
    · obtain ⟨type, htype⟩ := hmoved (first + count - 1) (by omega)
      rw [if_pos hone]
      simp only [htype]
      exact ⟨_, rfl⟩
    · obtain ⟨type, htype⟩ := hmoved first (by omega)
      rw [if_neg hone]
      simp only [htype]
      exact ⟨_, rfl⟩

/-! ## Spreading -/

theorem of_canSpread {u : Signature} {array : Ty}
    (hcan : h.canSpread new u array pos count = true) :
    ∃ src, new.param? pos = some src ∧
      (src.passesFreely array = false → src.casts array = true) := by
  obtain ⟨-, src, -, hsrc, -, hcasts, -⟩ := canSpread_iff.mp hcan
  refine ⟨src, hsrc, fun hfree => hcasts.resolve_left ?_⟩
  rintro rfl
  rw [Ty.passesFreely_refl] at hfree
  cases hfree

/-- An argument that does not pass for the array type is cast to it, then spread. -/
theorem spread_eq_cast {array : Ty} (hop : h.supports .checkCast = true)
    (hcan : h.canSpread new t.signature array pos count = true)
    (hsrc : new.param? pos = some src) (hfree : src.passesFreely array = false) :
    h.canCast new (new.withParam pos array) pos array = true ∧
      h.spread new t array pos count = .ok (.adapter new (.cast pos array)
        (.adapter (new.withParam pos array)
          (.spread pos count array (t.signature.slotsAt pos count)) t)) := by
  obtain ⟨src', hsrc', hcasts⟩ := of_canSpread hcan
  obtain rfl := Option.some.inj (hsrc.symm.trans hsrc')
  have hcast := canCast_withParam hop hsrc hfree (hcasts hfree)
  refine ⟨hcast, ?_⟩
  simp only [spread, hcan, hsrc, hfree, if_true, Bool.false_eq_true, if_false]
  exact if_pos hcast

theorem exists_spread_iff {array : Ty} (hop : h.supports .checkCast = true) :
    (∃ r, h.spread new t array pos count = .ok r) ↔
      h.canSpread new t.signature array pos count = true := by
  refine exists_ite_refuse_iff fun hcan => ?_
  obtain ⟨src, hsrc, hcasts⟩ := of_canSpread hcan
  simp only [hsrc]
  cases hfree : src.passesFreely array with
  | true => exact ⟨_, rfl⟩
  | false => exact exists_cast_iff.mpr (canCast_withParam hop hsrc hfree (hcasts hfree))

/-! ## All of them -/

/-- On a host that runs retypes and casts, an elementary request is met exactly when it is allowed.
    The casts that unboxing and spreading put in front of their own steps are never refused, and a
    swap is the same in both orders. -/
theorem builds_iff_allows (h : Host) (hretype : h.supports .retypeOnly = true)
    (hcast : h.supports .checkCast = true) (new : Signature) (t : Handle) :
    (∀ request : Request, request.IsElementary →
      ((∃ r, h.build new t request = .ok r) ↔ h.allows new t.signature request = true)) ∧
    (∀ arg type kind src, h.allows new t.signature (.unbox arg type) = true →
      kindNamed? type = some kind → new.param? arg = some src →
      src.passesFreely (.wrapper kind) = false →
      h.canCast new (new.withParam arg (.wrapper kind)) arg (.wrapper kind) = true ∧
        h.build new t (.unbox arg type) = .ok (.adapter new (.cast arg (.wrapper kind))
          (.adapter (new.withParam arg (.wrapper kind)) (.unbox arg kind (.wrapper kind)) t))) ∧
    (∀ array pos count src, h.allows new t.signature (.spread array pos count) = true →
      new.param? pos = some src → src.passesFreely array = false →
      h.canCast new (new.withParam pos array) pos array = true ∧
        h.build new t (.spread array pos count) = .ok (.adapter new (.cast pos array)
          (.adapter (new.withParam pos array)
            (.spread pos count array (t.signature.slotsAt pos count)) t))) ∧
    ∀ first second,
      h.build new t (.swap first second) = h.build new t (.swap second first) := by
  refine ⟨?_, fun arg type kind src => unbox_eq_cast hcast,
    fun array pos count src => spread_eq_cast hcast, swap_comm h new t⟩
  intro request helementary
  cases request with
  | retype mode =>
    cases helementary
    exact exists_retype_checked_iff hretype
  | cast arg type => exact exists_cast_iff
  | primCast arg type => exact exists_primCast_iff
  | unbox arg type => exact exists_unbox_iff hcast
  | drop pos count => exact exists_drop_iff hretype
  | dup pos count => exact exists_dup_iff hretype
  | swap first second => exact exists_swap_iff helementary
  | rotate first count amount => exact exists_rotate_iff
  | spread array pos count => exact exists_spread_iff hcast
  | adapt | rewire | box | collect | flyby | ricochet => cases helementary

/-- An object is unboxed after a cast to the wrapper class, an object is spread after a cast to the
    array type, an empty drop is allowed for any arguments that pass, and a rotation by the least
    word turns a run of three one to the right. -/
theorem builds_iff_allows_object :
    let h : Host := {}
    let u : Handle := .direct "u" ⟨[.prim .int, .string], .void⟩ HostFunction.echo
    let v : Handle := .direct "v" ⟨[.string, .object, .prim .int], .void⟩ HostFunction.echo
    h.supports .retypeOnly = true ∧ h.supports .checkCast = true ∧
      (∃ r, h.build ⟨[.object, .string], .void⟩ u (.unbox 0 (.prim .int)) =
        .ok (.adapter ⟨[.object, .string], .void⟩ (.cast 0 (.wrapper .int)) r)) ∧
      (∃ r, h.build ⟨[.object, .prim .int], .void⟩ v (.spread (.array .string) 0 2) =
        .ok (.adapter ⟨[.object, .prim .int], .void⟩ (.cast 0 (.array .string)) r)) ∧
      (∃ r, h.build ⟨[.prim .short, .string], .void⟩ u (.drop 18446744073709551615 0) = .ok r) ∧
      (∃ r, h.build ⟨[.object, .prim .int, .string], .void⟩ v
        (.rotate 0 3 (-9223372036854775808)) = .ok r) := by
  have hagree := builds_iff_allows {} (by decide) (by decide)
  refine ⟨by decide, by decide, ⟨_, ((hagree _ _).2.1 0 _ .int .object ?_ rfl rfl rfl).2⟩,
    ⟨_, ((hagree _ _).2.2.1 _ 0 2 .object ?_ rfl rfl).2⟩,
    ((hagree _ _).1 (.drop 18446744073709551615 0) trivial).mpr ?_,
    ((hagree _ _).1 (.rotate 0 3 (-9223372036854775808)) trivial).mpr ?_⟩
  all_goals decide

end Host

end CallBridge
