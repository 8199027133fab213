import CallBridge.Proofs.Rewiring
import CallBridge.Proofs.SingleMoves
import Mathlib.Data.Int.ModEq
import Mathlib.Data.List.Rotate

/-!
# Shuffles that cancel

A swap is undone by the same swap, a rotation by the rotation the other way, and
copies by dropping them. More generally, shuffles that lead from the arguments
back to the arguments in their places can be stacked in front of any handle, if
the host runs them and slot sizes fit, and the stack is called like the handle
itself: only its return type is applied to the result.
-/

namespace CallBridge

open Shuffle (Path slice)

/-! ## Lists that come back -/

namespace Shuffle

variable {α : Type} {xs ys : List α}

theorem act?_swap_swap {first second : Nat} (hlt : first < second)
    (hact : (swap first second).act? xs = some ys) : (swap first second).act? ys = some xs := by
  have hne : first ≠ second := Nat.ne_of_lt hlt
  simp only [act?] at hact
  split at hact
  · rename_i x y hx hy
    cases hact
    obtain ⟨hfirst, rfl⟩ := List.getElem?_eq_some_iff.mp hx
    obtain ⟨hsecond, rfl⟩ := List.getElem?_eq_some_iff.mp hy
    simp [act?, hne, hne.symm, hfirst, hsecond, List.set_comm]
  · cases hact

/-- A rotation is undone by a rotation through the rest of the run. -/
theorem act?_rotate_rotate {first count amount : Nat} (hle : amount ≤ count)
    (hin : first + count ≤ xs.length) :
    ∃ ys, (rotate first count (count - amount)).act? xs = some ys ∧ ys.length = xs.length ∧
      (rotate first count amount).act? ys = some xs := by
  obtain ⟨front, us, vs, back, rfl, rfl, hvs, rfl⟩ := exists_parts amount (count - amount)
    (show first + (amount + (count - amount)) ≤ xs.length by omega)
  obtain rfl : us.length + vs.length = count := by omega
  rw [← hvs]
  refine ⟨_, act?_rotate_parts front us vs back, ?_, ?_⟩
  · simp only [List.length_append]
    omega
  · rw [Nat.add_comm]
    exact act?_rotate_parts front vs us back

/-- Copies at the end are undone by dropping them. -/
theorem act?_dup_drop {pos count : Nat} (hin : pos + count ≤ xs.length) :
    (drop xs.length count).act? (xs ++ slice pos count xs) = some xs := by
  have hlen := length_slice hin
  simp [act?, hlen]

end Shuffle

/-! ## Stacks that come back -/

/-- Whether `r` is called like `t` with arguments that are in line with the parameters. -/
structure Handle.Restores (r t : Handle) : Prop where
  signature : r.signature = t.signature
  invoke (args : List Value) : Value.conformAll args t.signature.params false = args →
    r.invoke args = (t.invoke args).map (·.coerce t.signature.ret false)

namespace Value

theorem kindAgrees_of_conform {v : Value} {type : Ty} (h : v.conform type false = v) :
    v.KindAgrees type := by
  rintro d kind rfl rfl
  obtain ⟨e, he, hkind⟩ := exists_coerce_prim d kind false
  have hed : prim e = prim d := he.symm.trans h
  cases hed
  exact hkind

/-- Arguments that are in line with the parameters have their kinds. -/
theorem kindAgrees_of_conformAll {args : List Value} {types : List Ty}
    (hlen : args.length = types.length) (h : conformAll args types false = args) :
    List.Forall₂ KindAgrees args types := by
  induction args generalizing types with
  | nil =>
    obtain rfl := List.eq_nil_of_length_eq_zero hlen.symm
    exact .nil
  | cons v vs ih =>
    cases types with
    | nil => cases hlen
    | cons type types =>
      obtain ⟨hhead, htail⟩ := List.cons.inj h
      exact .cons (kindAgrees_of_conform hhead) (ih (Nat.succ.inj hlen) htail)

end Value

namespace Host

variable {h : Host} {t : Handle}

/-- Shuffles that lead back to where they started restore the handle they are stacked on. -/
theorem restores_of_loop {ss : List Shuffle} (hne : ss ≠ [])
    (hpath : Path (Ty.slotSize ∘ t.signature.paramAt) (List.range t.signature.arity) ss
      (List.range t.signature.arity))
    (hops : ∀ s ∈ ss, h.supports (shuffleOp s) = true) :
    ∃ r, h.shuffles t.signature ss t = .ok r ∧ r.Restores t := by
  -- Parameters and arguments are numbered alike, and the numbers come back in order.
  have hself := t.signature.withParams_map_paramAt
  have hpass : (t.signature.withParams ((List.range t.signature.arity).map
      t.signature.paramAt)).Passes .checked t.signature := by
    rw [hself]
    exact Signature.passes_refl _
  have hplaces := hpath.uniform 0
  obtain ⟨r, hok⟩ := (exists_shuffles_iff hplaces hpass).mpr ⟨hops, hpath⟩
  have hsig := signature_of_shuffles hplaces hne hok
  rw [hself] at hsig
  refine ⟨r, by rwa [hself] at hok, hsig, fun args hargs => ?_⟩
  by_cases hlen : args.length = t.signature.arity
  · have hkinds := Value.kindAgrees_argAt (Value.kindAgrees_of_conformAll hlen hargs)
    have hreach := reaches_of_shuffles_start hplaces hne hpass hkinds hok
    rw [← hlen, Value.map_argAt_range, hargs] at hreach
    rw [Handle.invoke_eq_of_reaches hreach (by rw [hsig, hlen]) hlen]
    congr 1
    funext result
    exact Handle.unwind_replicate (by simpa using hne) _ result
  · simp only [Handle.invoke, hsig, if_neg hlen]
    rfl

/-- One shuffle and another one behind it that undoes it. -/
theorem restores_of_pair (s back : Shuffle) {ks : List Nat}
    (hs : s.Buildable (Ty.slotSize ∘ t.signature.paramAt) (List.range t.signature.arity))
    (hact : s.act? (List.range t.signature.arity) = some ks)
    (hback : back.Buildable (Ty.slotSize ∘ t.signature.paramAt) ks)
    (hact' : back.act? ks = some (List.range t.signature.arity))
    (hop : h.supports (shuffleOp s) = true) (hop' : h.supports (shuffleOp back) = true) :
    ∃ inner r, h.shuffle (t.signature.withParams (s.act t.signature.params)) t back = .ok inner ∧
      h.shuffle t.signature inner s = .ok r ∧ r.Restores t := by
  obtain ⟨r, hok, hr⟩ := restores_of_loop (h := h) (List.cons_ne_nil s [back])
    (.cons hs hact (.single hback hact')) (by simp [hop, hop'])
  obtain ⟨inner, hinner, hok⟩ := bind_eq_ok_iff.mp hok
  exact ⟨inner, r, hinner, hok, hr⟩

/-! ## Pairs that cancel -/

theorem restores_of_swaps {first second : Nat} {x y : Ty} (hop : h.supports .swapArgs = true)
    (hlt : first < second) (hx : t.signature.param? first = some x)
    (hy : t.signature.param? second = some y) (hsize : x.slotSize = y.slotSize) :
    ∃ inner r,
      h.swap ((t.signature.withParam first y).withParam second x) t first second = .ok inner ∧
      h.swap t.signature inner first second = .ok r ∧ r.Restores t := by
  have hin : second < (List.range t.signature.arity).length := by
    rw [List.length_range]
    exact (List.getElem?_eq_some_iff.mp hy).1
  have hsizes : (Ty.slotSize ∘ t.signature.paramAt) first =
      (Ty.slotSize ∘ t.signature.paramAt) second := by
    simpa [Signature.paramAt, hx, hy] using hsize
  obtain ⟨ks, hact, hperm, -, hfirst, hsecond⟩ := Shuffle.act?_swap_spec hlt hin
  have hs : (Shuffle.swap first second).Buildable (Ty.slotSize ∘ t.signature.paramAt)
      (List.range t.signature.arity) := by
    refine ⟨hlt, hin, ?_⟩
    rw [List.length_range] at hin
    rw [List.getElem?_range hin, List.getElem?_range (Nat.lt_trans hlt hin), Option.map_some,
      Option.map_some, hsizes]
  have hback : (Shuffle.swap first second).Buildable (Ty.slotSize ∘ t.signature.paramAt) ks := by
    refine ⟨hlt, hperm.length_eq ▸ hin, ?_⟩
    rw [hfirst, hsecond]
    exact hs.2.2.symm
  have hparams : t.signature.withParams ((Shuffle.swap first second).act t.signature.params) =
      (t.signature.withParam first y).withParam second x := by
    rw [Signature.param?] at hx hy
    simp only [Shuffle.act, Shuffle.act?, hx, hy]
    rfl
  rw [← hparams]
  exact restores_of_pair _ _ hs hact hback (Shuffle.act?_swap_swap hlt hact) hop hop

end Host

/-- The signature with the run of `count` parameters from `first` on rotated left by `amount`, or
    right if the amount is negative. -/
def Signature.turned (s : Signature) (first count : Nat) (amount : Int) : Signature :=
  s.withParams (s.params.take first ++
    (slice first count s.params).rotate (amount % count).toNat ++ s.params.drop (first + count))

namespace Host

variable {h : Host} {t : Handle}

theorem rotationAmount_eq_one {count : Nat} {amount : Int} (hcount : 3 ≤ count)
    (hamount : amount ≡ 1 [ZMOD count]) : rotationAmount count amount = 1 := by
  have hone : (1 : Int) % count = 1 := Int.emod_eq_of_lt (by omega) (by omega)
  have hright := natCast_rotationAmount (show count ≠ 0 by omega) amount
  rw [hamount, hone] at hright
  omega

theorem rotationAmount_eq_pred {count : Nat} {amount : Int} (hcount : 3 ≤ count)
    (hamount : amount ≡ -1 [ZMOD count]) : rotationAmount count amount = count - 1 := by
  have hpred : (-1 : Int) % count = count - 1 := by
    rw [← Int.add_emod_right, Int.emod_eq_of_lt (by omega) (by omega)]
    omega
  have hright := natCast_rotationAmount (show count ≠ 0 by omega) amount
  rw [hamount, hpred] at hright
  omega

/-- Of a rotation by one place and the opposite one, one is to the right by one place, and the other
    by all but one. -/
theorem rotationAmount_neg {count : Nat} {amount : Int} (hcount : 3 ≤ count)
    (hamount : amount ≡ 1 [ZMOD count] ∨ amount ≡ -1 [ZMOD count]) :
    rotationAmount count (-amount) = count - rotationAmount count amount ∧
      (rotationAmount count amount = 1 ∨ rotationAmount count amount = count - 1) := by
  rcases hamount with hamount | hamount
  · rw [rotationAmount_eq_one hcount hamount, rotationAmount_eq_pred hcount hamount.neg]
    exact ⟨rfl, .inl rfl⟩
  · have hneg : -amount ≡ 1 [ZMOD count] := hamount.neg
    rw [rotationAmount_eq_pred hcount hamount, rotationAmount_eq_one hcount hneg]
    exact ⟨by omega, .inr rfl⟩

/-- Turning a signature left is the same as rotating its run right through the rest. -/
theorem turned_eq {s : Signature} {first count : Nat} (hcount : count ≠ 0)
    (hin : first + count ≤ s.arity) (amount : Int) :
    s.turned first count amount = s.withParams
      ((Shuffle.rotate first count (count - rotationAmount count amount)).act s.params) := by
  have hlt := rotationAmount_lt (Nat.pos_of_ne_zero hcount) amount
  have hlength : (slice first count s.params).length = count := Shuffle.length_slice hin
  have hturn : (amount % count).toNat = rotationAmount count amount := by
    rw [← natCast_rotationAmount hcount amount, Int.toNat_natCast]
  rw [Signature.turned, hturn, List.rotate_eq_drop_append_take (by omega), Shuffle.act,
    Shuffle.act?, if_pos ⟨hin, Nat.sub_le _ _⟩, Shuffle.rotateRight, hlength,
    Nat.sub_sub_self (Nat.le_of_lt hlt)]
  rfl

theorem restores_of_rotations {first count : Nat} {amount : Int}
    (hop : h.supports .rotateArgs = true) (hcount : 3 ≤ count)
    (hin : first + count ≤ t.signature.arity)
    (hamount : amount ≡ 1 [ZMOD count] ∨ amount ≡ -1 [ZMOD count]) :
    ∃ inner r, h.rotate (t.signature.turned first count amount) t first count amount = .ok inner ∧
      h.rotate t.signature inner first count (-amount) = .ok r ∧ r.Restores t := by
  obtain ⟨hleft, hone⟩ := rotationAmount_neg hcount hamount
  rw [turned_eq (by omega) hin]
  generalize hright : rotationAmount count amount = right at *
  have hin' : first + count ≤ (List.range t.signature.arity).length := by
    rwa [List.length_range]
  obtain ⟨ks, hact, hlen, hact'⟩ := Shuffle.act?_rotate_rotate (show right ≤ count by omega) hin'
  obtain ⟨inner, r, hinner, hr, hrestores⟩ := restores_of_pair (h := h) (t := t)
    (.rotate first count (count - right)) (.rotate first count right)
    ⟨hcount, hin', by omega⟩ hact ⟨hcount, hlen ▸ hin', hone⟩ hact' hop hop
  -- The stack is built for amounts below the length of the run, which stand for the given ones.
  refine ⟨inner, r, ?_, ?_, hrestores⟩
  · rw [← hinner]
    exact rotate_congr (by rw [hright, rotationAmount_of_lt (by omega)])
  · rw [← hr]
    exact rotate_congr (by rw [hleft, rotationAmount_of_lt (by omega)])

theorem restores_of_copies {pos count : Nat} (hdup : h.supports .dupArgs = true)
    (hdrop : h.supports .dropArgs = true) (hcount : 1 ≤ count)
    (hin : pos + count ≤ t.signature.arity) :
    ∃ inner r, h.drop (t.signature.withParams
        (t.signature.params ++ slice pos count t.signature.params)) t t.signature.arity count =
          .ok inner ∧
      h.dup t.signature inner pos count = .ok r ∧ r.Restores t := by
  have hin' : pos + count ≤ (List.range t.signature.arity).length := by
    rwa [List.length_range]
  have hact := Shuffle.act?_dup_eq hin'
  have hact' := Shuffle.act?_dup_drop hin'
  rw [List.length_range] at hact'
  have hback : (Shuffle.drop t.signature.arity count).Buildable
      (Ty.slotSize ∘ t.signature.paramAt)
      (List.range t.signature.arity ++ slice pos count (List.range t.signature.arity)) := by
    refine ⟨hcount, ?_⟩
    rw [List.length_append, Shuffle.length_slice hin', List.length_range]
  have hparams : (Shuffle.dup pos count).act t.signature.params =
      t.signature.params ++ slice pos count t.signature.params :=
    Shuffle.act_eq_of_act? (Shuffle.act?_dup_eq hin)
  rw [← hparams]
  exact restores_of_pair (.dup pos count) _ ⟨hcount, hin'⟩ hact hback hact' hdup hdrop

/-- Two steps that undo one another can be put in front of every handle whose arguments they fit, and
    the outer one is called like the handle: a swap of two parameters of equal slot size and the
    same swap behind it; a rotation by one place either way, given by an amount of any size, and
    the opposite one in front; and copies with a step behind that drops them again. -/
theorem steps_cancel (h : Host) (t : Handle) :
    (∀ first second x y, h.supports .swapArgs = true → first < second →
      t.signature.param? first = some x → t.signature.param? second = some y →
      x.slotSize = y.slotSize →
      ∃ inner r,
        h.swap ((t.signature.withParam first y).withParam second x) t first second = .ok inner ∧
        h.swap t.signature inner first second = .ok r ∧ r.Restores t) ∧
    (∀ (first count : Nat) (amount : Int), h.supports .rotateArgs = true → 3 ≤ count →
      first + count ≤ t.signature.arity →
      amount ≡ 1 [ZMOD count] ∨ amount ≡ -1 [ZMOD count] →
      ∃ inner r,
        h.rotate (t.signature.turned first count amount) t first count amount = .ok inner ∧
        h.rotate t.signature inner first count (-amount) = .ok r ∧ r.Restores t) ∧
    (∀ pos count, h.supports .dupArgs = true → h.supports .dropArgs = true → 1 ≤ count →
      pos + count ≤ t.signature.arity →
      ∃ inner r,
        h.drop (t.signature.withParams (t.signature.params ++ slice pos count t.signature.params))
          t t.signature.arity count = .ok inner ∧
        h.dup t.signature inner pos count = .ok r ∧ r.Restores t) :=
  ⟨fun _ _ _ _ => restores_of_swaps, fun _ _ _ => restores_of_rotations,
    fun _ _ => restores_of_copies⟩

/-- A swap across a reference, a rotation by the largest signed word, and copies of two arguments,
    each with what undoes it, in front of a function whose result is widened. -/
theorem steps_cancel_widening :
    let s : Signature := ⟨[.prim .int, .object, .prim .short], .prim .long⟩
    let t : Handle := .direct "f" s (HostFunction.nth 0)
    let args : List Value := [.prim (.int 4), .null, .prim (.short (-1))]
    let exchanged : Signature := ⟨[.prim .short, .object, .prim .int], .prim .long⟩
    let copied : Signature :=
      ⟨[.prim .int, .object, .prim .short, .object, .prim .short], .prim .long⟩
    let most : Int := 9223372036854775807
    (∃ inner r, ({} : Host).swap exchanged t 0 2 = .ok inner ∧
      ({} : Host).swap s inner 0 2 = .ok r ∧ r.invoke args = .ok (.prim (.long 4))) ∧
    (∃ inner r, ({} : Host).rotate (s.turned 0 3 most) t 0 3 most = .ok inner ∧
      ({} : Host).rotate s inner 0 3 (-most) = .ok r ∧ r.invoke args = .ok (.prim (.long 4))) ∧
    (∃ inner r, ({} : Host).drop copied t 3 2 = .ok inner ∧
      ({} : Host).dup s inner 1 2 = .ok r ∧ r.invoke args = .ok (.prim (.long 4))) := by
  intro s t args exchanged copied most
  have hcalls : ∀ r : Handle, r.Restores t → r.invoke args = .ok (.prim (.long 4)) :=
    fun r hr => hr.invoke args rfl
  obtain ⟨hswaps, hrotations, hcopies⟩ := steps_cancel {} t
  obtain ⟨swapped, r, hswapped, hr, hswap⟩ := hswaps 0 2 (.prim .int) (.prim .short) rfl
    (by decide) rfl rfl rfl
  obtain ⟨rotated, r', hrotated, hr', hrotate⟩ := hrotations 0 3 most rfl (by decide) (by decide)
    (.inl (by decide))
  obtain ⟨dropped, r'', hdropped, hr'', hcopy⟩ := hcopies 1 2 rfl rfl (by decide) (by decide)
  exact ⟨⟨swapped, r, hswapped, hr, hcalls r hswap⟩, ⟨rotated, r', hrotated, hr', hcalls r' hrotate⟩,
    ⟨dropped, r'', hdropped, hr'', hcalls r'' hcopy⟩⟩

end Host

end CallBridge
