import CallBridge.Proofs.Calls
import CallBridge.Request

/-!
# Hosts that run more

The operations that a host runs decide whether a step may be built, never which
step is tried. Planners ask the same of every host: a host that lacks an operation
refuses, and one that has it goes on in the same way. A host that runs more
therefore allows more, and builds the same chains where both build one.
-/

namespace CallBridge

/-- Whether `h'` runs all that `h` runs, raw retypes included. -/
structure Host.Extends (h' h : Host) : Prop where
  ops : ∀ op, h.supports op = true → h'.supports op = true
  rawRetype : h.rawRetype = true → h'.rawRetype = true

/-! ## Constructions that go through elsewhere -/

/-- Whether what the construction `x` gives is what `y` gives. A refusal by `x` says nothing. -/
def Carries {α : Type} (x y : Except AdaptError α) : Prop :=
  ∀ a, x = .ok a → y = .ok a

namespace Carries

variable {α β : Type} {x y : Except AdaptError α}

theorem refl (x : Except AdaptError α) : Carries x x :=
  fun _ hx => hx

theorem error (e : AdaptError) (y : Except AdaptError α) : Carries (.error e) y := by
  rintro a ⟨⟩

/-- A condition that is no harder to meet. -/
theorem ite {p q : Bool} {e : AdaptError} {z : Except AdaptError α} (hpq : p = true → q = true)
    (hxy : Carries x y) : Carries (if p then x else .error e) (if q then y else z) := by
  cases hp : p with
  | true =>
    rw [hpq hp]
    exact hxy
  | false => exact error e _

theorem bind {f g : α → Except AdaptError β} (hxy : Carries x y) (hfg : ∀ a, Carries (f a) (g a)) :
    Carries (x >>= f) (y >>= g) := by
  intro b hb
  obtain ⟨a, ha, hfa⟩ := bind_eq_ok_iff.mp hb
  exact bind_eq_ok_iff.mpr ⟨a, hxy a ha, hfg a b hfa⟩

end Carries

namespace Host.Extends

variable {h h' : Host} (hext : h'.Extends h)
include hext

/-! ## Predicates -/

section Predicates

variable {new target : Signature} {arg pos count : Nat} {type array : Ty}

theorem retypes {mode : Mode} (hcan : h.retypes mode = true) : h'.retypes mode = true := by
  cases mode with
  | checked => exact hext.ops _ hcan
  | raw =>
    simp only [Host.retypes, Bool.and_eq_true] at hcan ⊢
    exact ⟨hext.rawRetype hcan.1, hext.ops _ hcan.2⟩

theorem canRetype {mode : Mode} (hcan : h.canRetype new target mode = true) :
    h'.canRetype new target mode = true := by
  simp only [Host.canRetype, Bool.and_eq_true] at hcan ⊢
  exact ⟨hext.retypes hcan.1, hcan.2⟩

theorem canCast (hcan : h.canCast new target arg type = true) :
    h'.canCast new target arg type = true := by
  simp only [Host.canCast, Bool.and_eq_true] at hcan ⊢
  exact ⟨hext.ops _ hcan.1, hcan.2⟩

theorem canPrimCast (hcan : h.canPrimCast new target arg type = true) :
    h'.canPrimCast new target arg type = true := by
  simp only [Host.canPrimCast, Bool.and_eq_true] at hcan ⊢
  exact ⟨hext.ops _ hcan.1, hcan.2⟩

theorem canUnbox (hcan : h.canUnbox new target arg type = true) :
    h'.canUnbox new target arg type = true := by
  unfold Host.canUnbox at hcan ⊢
  cases hkind : kindNamed? type with
  | none =>
    rw [hkind] at hcan
    cases hcan
  | some kind =>
    rw [hkind] at hcan
    simp only [Bool.and_eq_true] at hcan ⊢
    exact ⟨hext.ops _ hcan.1, hcan.2⟩

theorem canBox (hcan : h.canBox new arg type = true) : h'.canBox new arg type = true := by
  simp only [Host.canBox, Bool.and_eq_true] at hcan ⊢
  exact ⟨hext.ops _ hcan.1, hcan.2⟩

theorem canDrop (hcan : h.canDrop new target pos count = true) :
    h'.canDrop new target pos count = true := by
  unfold Host.canDrop at hcan ⊢
  by_cases hcount : count = 0
  · rw [if_pos hcount] at hcan ⊢
    exact hext.canRetype hcan
  · rw [if_neg hcount] at hcan ⊢
    simp only [Bool.and_eq_true, and_assoc] at hcan ⊢
    exact ⟨hext.ops _ hcan.1, hcan.2⟩

theorem canDup (hcan : h.canDup new target pos count = true) :
    h'.canDup new target pos count = true := by
  simp only [Host.canDup, Bool.and_eq_true, and_assoc] at hcan ⊢
  exact ⟨hext.ops _ hcan.1, hcan.2⟩

theorem canSwap {first second : Nat} (hcan : h.canSwap new target first second = true) :
    h'.canSwap new target first second = true := by
  simp only [Host.canSwap, Bool.and_eq_true, and_assoc] at hcan ⊢
  exact ⟨hext.ops _ hcan.1, hcan.2⟩

theorem canRotate {first : Nat} {amount : Int}
    (hcan : h.canRotate new target first count amount = true) :
    h'.canRotate new target first count amount = true := by
  simp only [Host.canRotate, Bool.and_eq_true, and_assoc] at hcan ⊢
  exact ⟨hext.ops _ hcan.1, hcan.2⟩

theorem canSpread (hcan : h.canSpread new target array pos count = true) :
    h'.canSpread new target array pos count = true := by
  unfold Host.canSpread at hcan ⊢
  cases hincoming : new.param? pos with
  | none =>
    rw [hincoming] at hcan
    cases hcan
  | some incoming =>
    cases helem : array.elem? with
    | none =>
      rw [hincoming, helem] at hcan
      cases hcan
    | some elem =>
      rw [hincoming, helem] at hcan
      simp only [Bool.and_eq_true, and_assoc] at hcan ⊢
      exact ⟨hext.ops _ hcan.1, hcan.2⟩

/-- The plan is the same for both hosts; one runs it if the other does. -/
theorem canRewire {map : List Nat} (hcan : h.canRewire new target map = true) :
    h'.canRewire new target map = true := by
  unfold Host.canRewire at hcan ⊢
  cases hcheck : new.checkMap target map with
  | error e =>
    rw [hcheck] at hcan
    cases hcan
  | ok =>
    rw [hcheck] at hcan
    by_cases hid : new.isIdentityMap target map = true
    · simp only [hid, if_true] at hcan ⊢
      exact hcan
    · simp only [hid, Bool.false_eq_true, if_false, List.all_eq_true] at hcan ⊢
      intro s hs
      exact hext.ops _ (hcan s hs)

end Predicates

/-! ## Constructors -/

section Constructors

variable (new : Signature) (t : Handle)

theorem carries_retype (mode : Mode) : Carries (h.retype new t mode) (h'.retype new t mode) := by
  unfold Host.retype
  split
  · exact .refl _
  · exact .ite hext.canRetype (.refl _)

theorem carries_cast (arg : Nat) (type : Ty) :
    Carries (h.cast new t arg type) (h'.cast new t arg type) :=
  .ite hext.canCast (.refl _)

theorem carries_primCast (arg : Nat) (type : Ty) :
    Carries (h.primCast new t arg type) (h'.primCast new t arg type) :=
  .ite hext.canPrimCast (.refl _)

theorem carries_unbox (arg : Nat) (type : Ty) :
    Carries (h.unbox new t arg type) (h'.unbox new t arg type) := by
  refine .ite hext.canUnbox ?_
  split
  · -- Whether a cast goes first depends on the types alone.
    dsimp only
    split
    · exact .refl _
    · exact hext.carries_cast new _ arg _
  · exact .refl _

theorem carries_drop (pos count : Nat) :
    Carries (h.drop new t pos count) (h'.drop new t pos count) := by
  unfold Host.drop
  split
  · exact hext.carries_retype new t .checked
  · exact .ite hext.canDrop (.refl _)

theorem carries_dup (pos count : Nat) :
    Carries (h.dup new t pos count) (h'.dup new t pos count) := by
  refine .ite hext.canDup ?_
  split
  · exact hext.carries_retype new t .checked
  · exact .refl _

theorem carries_swap (first second : Nat) :
    Carries (h.swap new t first second) (h'.swap new t first second) := by
  unfold Host.swap
  split
  · exact hext.carries_retype new t .checked
  · exact .ite hext.canSwap (.refl _)

theorem carries_rotate (first count : Nat) (amount : Int) :
    Carries (h.rotate new t first count amount) (h'.rotate new t first count amount) := by
  unfold Host.rotate
  dsimp only
  split
  · exact .refl _
  · exact .ite hext.canRotate (.refl _)

theorem carries_spread (array : Ty) (pos count : Nat) :
    Carries (h.spread new t array pos count) (h'.spread new t array pos count) := by
  refine .ite hext.canSpread ?_
  split
  · dsimp only
    split
    · exact .refl _
    · exact hext.carries_cast new _ pos array
  · exact .refl _

theorem carries_shuffle (s : Shuffle) : Carries (h.shuffle new t s) (h'.shuffle new t s) := by
  cases s with
  | drop pos count => exact hext.carries_drop new t pos count
  | dup pos count => exact hext.carries_dup new t pos count
  | swap first second => exact hext.carries_swap new t first second
  | rotate first count amount => exact hext.carries_rotate new t first count amount

theorem carries_convertAt (i : Nat) (src dst : Ty) :
    Carries (h.convertAt new t i src dst) (h'.convertAt new t i src dst) := by
  unfold Host.convertAt
  split
  · exact hext.carries_primCast new t i dst
  · exact .refl _
  · exact hext.carries_unbox new t i dst
  · exact hext.carries_cast new t i dst

/-! ## Planners -/

theorem carries_shuffles (ss : List Shuffle) : Carries (h.shuffles new ss t) (h'.shuffles new ss t) := by
  induction ss generalizing new with
  | nil => exact .refl _
  | cons s ss ih =>
    refine (ih _).bind ?_
    intro inner
    exact hext.carries_shuffle new inner s

theorem carries_finish : Carries (h.finish new t) (h'.finish new t) := by
  unfold Host.finish
  dsimp only
  split
  · exact .refl _
  · refine (hext.carries_retype new t .checked).bind ?_
    intro r
    exact .refl _

theorem carries_adaptStep (last : Nat) (mid : Signature) (i : Nat) :
    Carries (h.adaptStep new last mid t i) (h'.adaptStep new last mid t i) := by
  unfold Host.adaptStep
  split
  · split
    · exact .refl _
    · refine (hext.carries_convertAt _ t i _ _).bind ?_
      intro r
      exact .refl _
  · exact .refl _

theorem carries_adaptSteps (last : Nat) (positions : List Nat) (mid : Signature) :
    Carries (h.adaptSteps new last positions mid t) (h'.adaptSteps new last positions mid t) := by
  induction positions generalizing mid t with
  | nil => exact .refl _
  | cons i rest ih =>
    refine (hext.carries_adaptStep new t last mid i).bind ?_
    rintro ⟨mid, adapter⟩
    exact ih adapter mid

theorem carries_adapt : Carries (h.adapt new t) (h'.adapt new t) := by
  unfold Host.adapt
  dsimp only
  split
  · exact .refl _
  · split
    · exact .refl _
    · split
      · refine (hext.carries_adaptSteps new t _ _ _).bind ?_
        intro r
        exact hext.carries_finish new r
      · exact hext.carries_finish new t

theorem carries_rewire (map : List Nat) : Carries (h.rewire new t map) (h'.rewire new t map) := by
  unfold Host.rewire
  refine (Carries.refl (new.checkMap t.signature map)).bind ?_
  intro _
  split
  · exact hext.carries_adapt new t
  · refine (hext.carries_shuffles new t _).bind ?_
    intro r
    exact hext.carries_finish new r

end Constructors

end Host.Extends

/-! ## Requests -/

/-- Whatever is asked for, a host that runs all that another one runs allows it if the other does,
    and builds the same chain if the other builds one. -/
theorem Host.grants_monotone (h h' : Host) (hext : h'.Extends h) :
    (∀ new target request,
      h.allows new target request = true → h'.allows new target request = true) ∧
    (∀ new t request r, h.build new t request = .ok r → h'.build new t request = .ok r) := by
  constructor
  · intro new target request hallows
    cases request with
    | retype mode => exact hext.canRetype hallows
    | adapt => exact hallows
    | rewire map => exact hext.canRewire hallows
    | cast arg type => exact hext.canCast hallows
    | primCast arg type => exact hext.canPrimCast hallows
    | unbox arg type => exact hext.canUnbox hallows
    | box arg type => exact hext.canBox hallows
    | drop pos count => exact hext.canDrop hallows
    | dup pos count => exact hext.canDup hallows
    | swap first second => exact hext.canSwap hallows
    | rotate first count amount => exact hext.canRotate hallows
    | spread array pos count => exact hext.canSpread hallows
    | collect | flyby | ricochet => cases hallows
  · intro new t request r
    cases request with
    | retype mode => exact hext.carries_retype new t mode r
    | adapt => exact hext.carries_adapt new t r
    | rewire map => exact hext.carries_rewire new t map r
    | cast arg type => exact hext.carries_cast new t arg type r
    | primCast arg type => exact hext.carries_primCast new t arg type r
    | unbox arg type => exact hext.carries_unbox new t arg type r
    | drop pos count => exact hext.carries_drop new t pos count r
    | dup pos count => exact hext.carries_dup new t pos count r
    | swap first second => exact hext.carries_swap new t first second r
    | rotate first count amount => exact hext.carries_rotate new t first count amount r
    | spread array pos count => exact hext.carries_spread new t array pos count r
    | box | collect | flyby | ricochet => exact Carries.refl _ r

/-- A host that only casts and unboxes unboxes an argument after a cast, and so does every host that
    runs the elementary operations. -/
theorem Host.grants_monotone_unboxing :
    let h : Host := { ops := .ofList [.checkCast, .refToPrim] }
    let f : Handle := .direct "f" ⟨[.prim .int], .object⟩ (fun _ => .ok .null)
    let new : Signature := ⟨[.object], .object⟩
    let r : Handle :=
      .adapter new (.cast 0 (.wrapper .int))
        (.adapter ⟨[.wrapper .int], .object⟩ (.unbox 0 .int (.wrapper .int)) f)
    ({} : Host).Extends h ∧ h.allows new f.signature (.unbox 0 (.prim .int)) = true ∧
      ({} : Host).allows new f.signature (.unbox 0 (.prim .int)) = true ∧
      h.build new f .adapt = .ok r ∧ ({} : Host).build new f .adapt = .ok r := by
  intro h f new r
  have hops : ∀ op, Host.supports { ops := .ofList [.checkCast, .refToPrim] } op = true →
      ({} : Host).supports op = true := by
    intro op
    cases op <;> decide
  have hext : ({} : Host).Extends h := ⟨hops, fun hraw => hraw⟩
  have hallows : Host.allows { ops := .ofList [.checkCast, .refToPrim] } new f.signature
      (.unbox 0 (.prim .int)) = true := rfl
  have hbuild : Host.build { ops := .ofList [.checkCast, .refToPrim] } new f .adapt = .ok r := rfl
  obtain ⟨hgrants, hbuilds⟩ := grants_monotone h {} hext
  exact ⟨hext, hallows, hgrants _ _ _ hallows, hbuild, hbuilds _ _ _ _ hbuild⟩

end CallBridge
