import CallBridge.Proofs.Verified

/-!
# Slot balance

What passes without any action keeps its slots, unless there is no value at all.
So the slots on both sides of a step differ by what the step itself pushes and
pops, and along a chain these moves add up to the difference between its ends.
Steps compute their moves in 32 bits; the slot arithmetic is done on integers
first and the machine number compared with it at the end.
-/

namespace CallBridge

open Shuffle (slice length_slice take_append_slice_append_drop rotateRight_perm)

/-! ## Slots of types that pass -/

theorem Prim.slotSize_of_fitsWord {p : Prim} (h : p.fitsWord = true) : p.slotSize = 1 := by
  cases p with
  | long | double => cases h
  | boolean | byte | char | short | int | float => rfl

namespace Ty

variable {src dst : Ty} {mode : Mode}

theorem slotSize_of_isReference {t : Ty} (h : t.isReference = true) : t.slotSize = 1 := by
  cases t with
  | void | prim => cases h
  | null | object | cls | iface | array => rfl

/-- Only the absence of a value is passed with another number of slots. -/
theorem slotSize_eq_of_passesFreely (h : src.passesFreely dst = true) (hdst : dst ≠ .void) :
    src.slotSize = dst.slotSize := by
  rcases of_passesFreely h hdst with ⟨p, q, rfl, rfl⟩ | ⟨hsrc, hdst, -⟩
  · have hkinds : p = q ∨ p.widensTo q = true := by simpa [passesFreely] using h
    rcases hkinds with rfl | hwidens
    · rfl
    · simp only [Prim.widensTo, Bool.and_eq_true] at hwidens
      simp only [slotSize]
      rw [Prim.slotSize_of_fitsWord hwidens.1.1, Prim.slotSize_of_fitsWord hwidens.1.2]
  · rw [slotSize_of_isReference hsrc, slotSize_of_isReference hdst]

theorem slotSize_eq_of_passing (h : src.passing dst mode = .trivial)
    (hsrc : mode = .raw → src ≠ .void) (hdst : dst ≠ .void) : src.slotSize = dst.slotSize := by
  cases mode with
  | checked => exact slotSize_eq_of_passesFreely (passing_checked_iff.mp h) hdst
  | raw =>
    simp only [passing, passingRaw] at h
    split at h
    · split at h
      · assumption
      · exact slotSize_eq_of_passesFreely (passing_checked_iff.mp h) hdst
    · exact absurd rfl (hsrc rfl)
    · exact slotSize_eq_of_passesFreely (passing_checked_iff.mp h) hdst

/-- Lists of types that pass take the same slots. -/
theorem PassAll.slots_eq {srcs dsts : List Ty} (h : PassAll mode srcs dsts)
    (hsrc : mode = .raw → .void ∉ srcs) (hdst : .void ∉ dsts) :
    Signature.slots srcs = Signature.slots dsts := by
  induction h with
  | nil => rfl
  | @cons src dst srcs dsts hpass _ ih =>
    rw [List.mem_cons, not_or] at hdst
    have hsize : src.slotSize = dst.slotSize := by
      apply slotSize_eq_of_passing hpass
      · intro hraw hvoid
        exact hsrc hraw (hvoid ▸ List.mem_cons_self)
      · exact Ne.symm hdst.1
    have hrest := ih (fun hraw hmem => hsrc hraw (List.mem_cons_of_mem _ hmem)) hdst.2
    rw [Signature.slots_cons, Signature.slots_cons, hsize, hrest]

theorem PassAll.slice {srcs dsts : List Ty} (h : PassAll mode srcs dsts) (pos count : Nat) :
    PassAll mode (slice pos count srcs) (slice pos count dsts) :=
  List.forall₂_take count (List.forall₂_drop pos h)

end Ty

/-! ## Slots of reshaped lists -/

namespace Signature

variable {ps qs : List Ty}

theorem slots_eq_of_perm (h : ps.Perm qs) : slots ps = slots qs := by
  induction h with
  | nil => rfl
  | cons t _ ih => rw [slots_cons, slots_cons, ih]
  | swap t u ts => simp only [slots_cons, Nat.add_left_comm]
  | trans _ _ ih₁ ih₂ => exact ih₁.trans ih₂

theorem slots_cut (pos count : Nat) (ps : List Ty) :
    slots (ps.take pos) + slots (slice pos count ps) + slots (ps.drop (pos + count)) =
      slots ps := by
  rw [← slots_append, ← slots_append, take_append_slice_append_drop]

theorem slots_cut_one {i : Nat} {t : Ty} (h : ps[i]? = some t) :
    slots (ps.take i) + t.slotSize + slots (ps.drop (i + 1)) = slots ps := by
  obtain ⟨hi, rfl⟩ := List.getElem?_eq_some_iff.mp h
  have hcut := slots_cut i 1 ps
  rwa [Shuffle.slice_one hi] at hcut

theorem slots_set {i : Nat} {t : Ty} (h : ps[i]? = some t) (type : Ty) :
    slots (ps.set i type) + t.slotSize = slots ps + type.slotSize := by
  have hi : i < ps.length := (List.getElem?_eq_some_iff.mp h).1
  have hcut := slots_cut_one h
  rw [List.set_eq_take_append_cons_drop, if_pos hi, slots_append, slots_cons]
  omega

theorem slotDepth_eq_add (s : Signature) (pos count : Nat) :
    s.slotDepth pos = slots (slice pos count s.params) + s.slotDepth (pos + count) := by
  unfold slotDepth
  rw [← slots_append, slice, ← List.drop_drop, List.take_append_drop]

/-- The slots recorded by a step are those of the arguments that it copies or removes. -/
theorem slotsAt_eq (s : Signature) (pos count : Nat) :
    s.slotsAt pos count = slots (slice pos count s.params) := by
  have hcut := s.slotDepth_eq_add pos count
  unfold slotsAt
  omega

end Signature

/-- The net number of slots that a shuffle adds to the given parameters. -/
def Shuffle.slotsAdded (ps : List Ty) : Shuffle → Int
  | drop pos count => -Signature.slots (slice pos count ps)
  | dup pos count => Signature.slots (slice pos count ps)
  | swap .. | rotate .. => 0

/-- Dropping and copying change the slots by those of the range; the order does not matter. -/
theorem Signature.slots_of_act? {sh : Shuffle} {ps qs : List Ty} (h : sh.act? ps = some qs) :
    (slots qs : Int) = slots ps + sh.slotsAdded ps := by
  cases sh with
  | drop pos count =>
    obtain ⟨-, ⟨⟩⟩ := Option.ite_none_right_eq_some.mp h
    have hcut := slots_cut pos count ps
    simp only [Shuffle.slotsAdded, slots_append]
    omega
  | dup pos count =>
    obtain ⟨-, ⟨⟩⟩ := Option.ite_none_right_eq_some.mp h
    simp only [Shuffle.slotsAdded, slots_append]
    omega
  | swap first second =>
    simp only [Shuffle.act?] at h
    split at h
    · rename_i x y hx hy
      cases h
      obtain ⟨hfirst, rfl⟩ := List.getElem?_eq_some_iff.mp hx
      obtain ⟨hsecond, rfl⟩ := List.getElem?_eq_some_iff.mp hy
      have hperm := slots_eq_of_perm (List.set_set_perm hfirst hsecond)
      simp only [Shuffle.slotsAdded]
      omega
    · cases h
  | rotate first count amount =>
    obtain ⟨-, ⟨⟩⟩ := Option.ite_none_right_eq_some.mp h
    have hrun := slots_eq_of_perm (rotateRight_perm amount (slice first count ps))
    have hcut := slots_cut first count ps
    simp only [Shuffle.slotsAdded, slots_append]
    omega

/-! ## Steps -/

/-- The net number of slots that a step pushes, as an integer. -/
def Step.exactMove : Step → Int
  | retype _ | cast .. | swap .. | rotate .. => 0
  | primCast _ source target => target.slotSize - source.slotSize
  | unbox _ target _ => target.slotSize - 1
  | drop _ _ slots => -slots
  | dup _ _ slots => slots
  | spread _ _ _ slots => slots - 1

/-- The machine computes the exact move, wrapped. -/
theorem Step.stackMove_eq_ofInt (step : Step) : step.stackMove = Int32.ofInt step.exactMove := by
  cases step with
  | retype | cast | swap | rotate => rfl
  | primCast arg source target =>
    simp only [stackMove, exactMove, Int32.ofInt_sub, Int32.ofInt_eq_ofNat]
  | unbox arg target wrapper =>
    simp only [stackMove, exactMove, Int32.ofInt_sub, Int32.ofInt_eq_ofNat]
    rfl
  | drop pos count slots => simp only [stackMove, exactMove, Int32.ofInt_neg, Int32.ofInt_eq_ofNat]
  | dup pos count slots => exact Int32.ofInt_eq_ofNat.symm
  | spread pos count array slots =>
    simp only [stackMove, exactMove, Int32.ofInt_sub, Int32.ofInt_eq_ofNat]
    rfl

section Steps

variable {h : Host} {s u : Signature}

theorem Shuffle.Feeds.slotCount_eq {sh : Shuffle} (hfeeds : sh.Feeds s u) (hu : .void ∉ u.params) :
    (u.slotCount : Int) = s.slotCount + sh.slotsAdded s.params := by
  obtain ⟨params, hact, hpass⟩ := hfeeds
  have hslots : Signature.slots params = u.slotCount :=
    hpass.params.slots_eq (by rintro ⟨⟩) hu
  rw [← hslots]
  exact Signature.slots_of_act? hact

/-- Converting one argument exchanges its slots for those of the operand. -/
theorem Host.slotCount_of_canConvertAt {arg : Nat} {operand src : Ty} {p : Ty → Bool}
    (hcan : Host.canConvertAt s u arg operand p = true) (hsrc : s.param? arg = some src)
    (hu : .void ∉ u.params) : u.slotCount + src.slotSize = s.slotCount + operand.slotSize := by
  have hpass := Host.passes_of_canConvertAt hcan
  have hslots : Signature.slots (s.params.set arg operand) = u.slotCount :=
    hpass.params.slots_eq (by rintro ⟨⟩) hu
  rw [← hslots]
  exact Signature.slots_set hsrc operand

/-- Spreading exchanges the slot of the array for those of its items. -/
theorem Host.slotCount_of_canSpread {array : Ty} {pos count : Nat}
    (hcan : h.canSpread s u array pos count = true) (hu : .void ∉ u.params) :
    u.slotCount + 1 = s.slotCount + u.slotsAt pos count := by
  obtain ⟨-, incoming, elem, hincoming, rfl, hcasts, hpass⟩ := Host.canSpread_iff.mp hcan
  have href : incoming.isReference = true := by
    rcases hcasts with rfl | hcasts
    · rfl
    · exact ((Bool.and_eq_true _ _).mp hcasts).1
  have hone := Ty.slotSize_of_isReference href
  have hcut := Signature.slots_cut_one hincoming
  have hfront : (s.params.take pos).length = pos := by
    have hpos := (List.getElem?_eq_some_iff.mp hincoming).1
    rw [List.length_take]
    omega
  have hitems : Signature.slots (List.replicate count elem) = u.slotsAt pos count := by
    have hmiddle := hpass.params.slice pos count
    rw [Signature.params_withParams, slice, List.drop_left' hfront,
      List.take_left' List.length_replicate] at hmiddle
    rw [Signature.slotsAt_eq]
    exact hmiddle.slots_eq (by rintro ⟨⟩) fun hmem => hu (Shuffle.mem_of_mem_slice hmem)
  have hslots : Signature.slots (s.params.take pos ++
      (List.replicate count elem ++ s.params.drop (pos + 1))) = u.slotCount :=
    hpass.params.slots_eq (by rintro ⟨⟩) hu
  have hwhole : Signature.slots s.params = s.slotCount := rfl
  rw [Signature.slots_append, Signature.slots_append] at hslots
  omega

/-- A verified step moves the stack by the difference of the slots on its two sides. -/
theorem Host.Verifies.slotCount_eq {step : Step} (hstep : h.Verifies s u step)
    (hs : .void ∉ s.params) (hu : .void ∉ u.params) :
    (u.slotCount : Int) = s.slotCount + step.exactMove := by
  cases step with
  | retype mode =>
    have hcan : h.canRetype s u mode = true := hstep
    rw [canRetype, Bool.and_eq_true, beq_iff_eq, Signature.difference_eq_zero_iff] at hcan
    have hslots : s.slotCount = u.slotCount := hcan.2.params.slots_eq (fun _ => hs) hu
    simp only [Step.exactMove]
    omega
  | cast arg type =>
    have hcan : h.canCast s u arg type = true := hstep
    rw [canCast, Bool.and_eq_true] at hcan
    obtain ⟨-, src, dst, hsrc, -, hcasts, -⟩ := canConvertAt_iff.mp hcan.2
    rw [Ty.casts, Bool.and_eq_true] at hcasts
    have hslots := slotCount_of_canConvertAt hcan.2 hsrc hu
    have hone := Ty.slotSize_of_isReference hcasts.1
    have hone' := Ty.slotSize_of_isReference hcasts.2
    simp only [Step.exactMove]
    omega
  | primCast arg source target =>
    obtain ⟨hcan, hsource⟩ := hstep
    rw [canPrimCast, Bool.and_eq_true] at hcan
    have hslots : u.slotCount + source.slotSize = s.slotCount + target.slotSize :=
      slotCount_of_canConvertAt hcan.2 hsource hu
    simp only [Step.exactMove]
    omega
  | unbox arg target wrapper =>
    obtain ⟨hcan, -⟩ := hstep
    rw [canUnbox_iff (kindNamed?_prim target)] at hcan
    obtain ⟨-, src, dst, hsrc, -, hcasts, -⟩ := canConvertAt_iff.mp hcan.2
    rw [Ty.casts, Bool.and_eq_true] at hcasts
    have hslots : u.slotCount + src.slotSize = s.slotCount + target.slotSize :=
      slotCount_of_canConvertAt hcan.2 hsrc hu
    have hone := Ty.slotSize_of_isReference hcasts.1
    simp only [Step.exactMove]
    omega
  | drop pos count slots =>
    obtain ⟨hcount, hcan, rfl⟩ := hstep
    rw [Signature.slotsAt_eq]
    exact ((canDrop_iff hcount).mp hcan).2.2.slotCount_eq hu
  | dup pos count slots =>
    obtain ⟨hcount, hcan, rfl⟩ := hstep
    rw [Signature.slotsAt_eq]
    exact ((canDup_iff hcount).mp hcan).2.2.slotCount_eq hu
  | swap first second tag destSlot =>
    exact (canSwap_iff.mp hstep.1).2.2.slotCount_eq hu
  | rotate first count amount moved tag destSlot =>
    exact (canRotate_iff.mp hstep.2.1).2.2.slotCount_eq hu
  | spread pos count array slots =>
    obtain ⟨hcan, rfl, -⟩ := hstep
    have hslots := slotCount_of_canSpread hcan hu
    simp only [Step.exactMove]
    omega

/-- A collecting node leaves one slot in place of those of the gathered arguments. -/
theorem Signature.Collects.slotCount_eq {pos count : Nat} {array : Ty}
    (hnode : s.Collects u pos count array) (hu : .void ∉ u.params) :
    u.slotCount + s.slotDepth pos = s.slotCount + 1 := by
  obtain ⟨harity, ⟨elem, rfl, rfl⟩, last, hlast, hpass⟩ := hnode
  have hone : last.slotSize = 1 := by
    have hne : last ≠ .void := by
      rintro rfl
      exact hu (List.mem_of_getElem? hlast)
    exact (Ty.slotSize_eq_of_passesFreely hpass hne).symm
  have hcut := Signature.slots_cut_one hlast
  have hback : u.params.drop (pos + 1) = [] := List.drop_eq_nil_of_le (Nat.le_of_eq harity)
  have hfront : (u.params.take pos).length = pos := by
    have hlen : u.params.length = pos + 1 := harity
    rw [List.length_take]
    omega
  have hwhole : Signature.slots u.params = u.slotCount := rfl
  rw [hback, Signature.slots_nil] at hcut
  simp only [Signature.slotCount, Signature.slotDepth, Signature.params_withParams, List.drop_zero,
    List.drop_left' hfront, Signature.slots_append]
  omega

end Steps

/-! ## Chains -/

/-- Whether every parameter has a value, and the slots can be counted in 32 signed bits. -/
structure Signature.Countable (s : Signature) : Prop where
  noVoid : .void ∉ s.params
  slots : s.slotCount < 0x80000000

instance (s : Signature) : Decidable s.Countable :=
  decidable_of_iff (.void ∉ s.params ∧ s.slotCount < 0x80000000)
    ⟨fun h => ⟨h.1, h.2⟩, fun h => ⟨h.noVoid, h.slots⟩⟩

namespace Handle

/-- Whether the stack move of a node is what the next handle's slots exceed its own by. -/
def Balances (node next : Handle) : Prop :=
  node.stackMove.toInt = (next.signature.slotCount : Int) - node.signature.slotCount

variable {hosts : Host → Prop} {t : Handle}

theorem Verified.stackMove_eq_ofInt {u : Handle} (ht : t.Verified hosts)
    (htarget : t.target? = some u) (hs : .void ∉ t.signature.params)
    (hu : .void ∉ u.signature.params) :
    t.stackMove = Int32.ofInt ((u.signature.slotCount : Int) - t.signature.slotCount) := by
  cases t with
  | direct name s body => cases htarget
  | adapter s step inner =>
    obtain rfl := Option.some.inj htarget
    obtain ⟨⟨h, -, hstep⟩, -⟩ := ht
    have hslots := hstep.slotCount_eq hs hu
    have hmove : (inner.signature.slotCount : Int) - s.slotCount = step.exactMove := by omega
    rw [signature_adapter, hmove]
    exact step.stackMove_eq_ofInt
  | collect s pos count array inner =>
    obtain rfl := Option.some.inj htarget
    have hslots := ht.1.slotCount_eq hu
    have hmove : (inner.signature.slotCount : Int) - s.slotCount = 1 - (s.slotDepth pos : Int) := by
      omega
    rw [signature_collect, hmove, Int32.ofInt_sub, Int32.ofInt_eq_ofNat]
    rfl

/-- The difference of two slot counts that fit 32 signed bits does so, too. -/
theorem Verified.balances {u : Handle} (ht : t.Verified hosts) (htarget : t.target? = some u)
    (hs : t.signature.Countable) (hu : u.signature.Countable) : t.Balances u := by
  have hs' := hs.slots
  have hu' := hu.slots
  unfold Balances
  rw [ht.stackMove_eq_ofInt htarget hs.noVoid hu.noVoid, Int32.toInt_ofInt_of_le]
  · omega
  · omega

/-- Whether the stack moves of a chain add up to the difference between the slots of the host
    function at its end and those of its head. -/
def MovesAddUp (t : Handle) : Prop :=
  ∃ name s body, t.chain.getLast? = some (.direct name s body) ∧
    (t.chain.map fun node => node.stackMove.toInt).foldr (· + ·) 0 =
      (s.slotCount : Int) - t.signature.slotCount

theorem MovesAddUp.front {node next : Handle} (hnext : next.MovesAddUp)
    (hchain : node.chain = node :: next.chain) (hnode : node.Balances next) :
    node.MovesAddUp := by
  obtain ⟨name, s, body, hlast, hsum⟩ := hnext
  unfold Balances at hnode
  refine ⟨name, s, body, ?_, ?_⟩
  · rw [hchain, List.getLast?_cons, hlast]
    rfl
  · rw [hchain, List.map_cons, List.foldr_cons, hsum, hnode]
    omega

theorem movesAddUp_of_balances (t : Handle)
    (hbalances : ∀ node ∈ t.chain, ∀ next, node.target? = some next → node.Balances next) :
    t.MovesAddUp := by
  induction t with
  | direct name s body => exact ⟨name, s, body, rfl, by simp [chain, stackMove]⟩
  | adapter own step inner ih =>
    have hinner := ih fun node hmem => hbalances node (List.mem_cons_of_mem _ hmem)
    exact hinner.front rfl (hbalances _ List.mem_cons_self inner rfl)
  | collect own pos count array inner ih =>
    have hinner := ih fun node hmem => hbalances node (List.mem_cons_of_mem _ hmem)
    exact hinner.front rfl (hbalances _ List.mem_cons_self inner rfl)

/-- In a chain of any make, the stack move of a node is the difference of the slot counts around
    it, if both signatures have a value for each parameter and can be counted. Where that holds all
    along the chain, the moves add up to the difference between its ends. -/
theorem stackMove_balances (hosts : Host → Prop) (t : Handle) (ht : t.Reachable hosts) :
    (∀ node ∈ t.chain, ∀ next, node.target? = some next →
      node.signature.Countable → next.signature.Countable → node.Balances next) ∧
    ((∀ node ∈ t.chain, ∀ next, node.target? = some next → node.Balances next) →
      t.MovesAddUp) ∧
    ((∀ node ∈ t.chain, node.signature.Countable) → t.MovesAddUp) := by
  have hnodes : ∀ node ∈ t.chain, ∀ next, node.target? = some next →
      node.signature.Countable → next.signature.Countable → node.Balances next := by
    intro node hmem next htarget hnode hnext
    exact (ht.verified.of_mem_chain hmem).balances htarget hnode hnext
  refine ⟨hnodes, t.movesAddUp_of_balances, ?_⟩
  intro hcountable
  apply t.movesAddUp_of_balances
  intro node hmem next htarget
  exact hnodes node hmem next htarget (hcountable node hmem)
    (hcountable next (mem_chain_target? hmem htarget))

/-- A double is dropped, an integer widened, and two strings are gathered. -/
theorem stackMove_balances_gathered :
    let f : Handle := .direct "f" ⟨[.prim .long, .array .object], .object⟩ (fun _ => .ok .null)
    let gathered : Handle :=
      .collect ⟨[.prim .long, .object, .object], .object⟩ 1 2 (.array .object) f
    let widened : Handle :=
      .adapter ⟨[.prim .int, .string, .string], .object⟩ (.primCast 0 .int .long) gathered
    let r : Handle :=
      .adapter ⟨[.prim .double, .prim .int, .string, .string], .object⟩ (.drop 0 1 2) widened
    r.Reachable (· = {}) ∧ widened.Balances gathered ∧ gathered.Balances f ∧ r.MovesAddUp := by
  intro f gathered widened r
  let c : Collector := ⟨{}, f, .array .object, []⟩
  have hcollector : ({} : Host).collector f (.array .object) = .ok c := rfl
  have hadapt : (c.adapt widened.signature).1 = .ok widened := by
    change ({} : Host).adapt ⟨[.prim .int, .string, .string], .object⟩ gathered = .ok widened
    rfl
  have hdrop : ({} : Host).build r.signature widened (.drop 0 1) = .ok r := rfl
  have hreachable : r.Reachable (· = {}) :=
    .build rfl (.adapt (.collector rfl (.direct _ _ _) hcollector) hadapt) hdrop
  have hcountable : ∀ node ∈ r.chain, node.signature.Countable := by decide
  obtain ⟨hnodes, -, hsum⟩ := stackMove_balances _ r hreachable
  have hwidened : widened ∈ r.chain := by simp [r, widened, chain]
  have hgathered : gathered ∈ r.chain := by simp [r, widened, gathered, chain]
  have hf : f ∈ r.chain := by simp [r, widened, gathered, f, chain]
  exact ⟨hreachable,
    hnodes widened hwidened gathered rfl (hcountable _ hwidened) (hcountable _ hgathered),
    hnodes gathered hgathered f rfl (hcountable _ hgathered) (hcountable _ hf),
    hsum hcountable⟩

end Handle

end CallBridge
