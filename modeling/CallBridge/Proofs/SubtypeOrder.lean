import CallBridge.Proofs.Interning
import CallBridge.Proofs.Typing

/-!
# The order of types

Declarations may name any types above the new one, so that classes can stand below
arrays or below null. What a type accepts is an order all the same, with one
exception: null passes for every reference, and a type that is declared below it is
accepted everywhere. The order is antisymmetric as long as there is no such type,
because every other step up leads to a type that was there before.
-/

namespace CallBridge

/-! ## One step up -/

namespace Ty

variable {dst src t u : Ty}

/-- The types that a declaration names directly above the declared one. -/
def supertypes (t : Ty) : List Ty :=
  t.superclass?.toList ++ t.interfaces

/-- The types that a type is made from. -/
def parts (t : Ty) : List Ty :=
  t.supertypes ++ t.elem?.toList

theorem mem_parts_of_mem_supertypes (hu : u ∈ t.supertypes) : u ∈ t.parts :=
  List.mem_append_left _ hu

theorem sizeOf_lt_of_mem_supertypes (hu : u ∈ t.supertypes) : sizeOf u < sizeOf t := by
  cases t with
  | void | null | prim | object | array => cases hu
  | cls n s is b =>
    rcases List.mem_cons.mp hu with rfl | hu
    · simp only [cls.sizeOf_spec]
      omega
    · have hlt : sizeOf u < sizeOf is := List.sizeOf_lt_of_mem hu
      simp only [cls.sizeOf_spec]
      omega
  | iface n is =>
    have hlt : sizeOf u < sizeOf is := List.sizeOf_lt_of_mem hu
    simp only [iface.sizeOf_spec]
    omega

/-- A class or interface is accepted as itself, by the root, or for one of its direct supertypes. -/
theorem of_accepts_declared (h : dst.accepts src = true) (hsrc : src.isDeclared = true) :
    dst = src ∨ dst = object ∨ ∃ t ∈ src.supertypes, dst.accepts t = true := by
  cases src with
  | void | null | prim | array => cases hsrc
  | object => exact .inl (by simpa [accepts] using h)
  | cls n s is b =>
    simp only [accepts, acceptsAny_eq_any, Bool.or_eq_true, Bool.and_eq_true, beq_iff_eq,
      List.any_eq_true] at h
    rcases h with (heq | hroot) | ⟨-, hs | ⟨t, ht, hacc⟩⟩
    · exact .inl heq
    · exact .inr (.inl hroot)
    · exact .inr (.inr ⟨s, List.mem_cons_self, hs⟩)
    · exact .inr (.inr ⟨t, List.mem_cons_of_mem _ ht, hacc⟩)
  | iface n is =>
    simp only [accepts, acceptsAny_eq_any, Bool.or_eq_true, Bool.and_eq_true, beq_iff_eq,
      List.any_eq_true] at h
    rcases h with (heq | hroot) | ⟨-, t, ht, hacc⟩
    · exact .inl heq
    · exact .inr (.inl hroot)
    · exact .inr (.inr ⟨t, ht, hacc⟩)

theorem eq_null_of_null_accepts (h : null.accepts src = true) : src = null := by
  cases src with
  | null => rfl
  | void | prim | object | cls | iface | array => simp [accepts, isDeclared] at h

end Ty

/-! ## Registries that hold all parts -/

namespace Registry

variable {r : Registry} {dst t u : Ty}

/-- Whether all that registered types are made from is registered. -/
def SelfContained (r : Registry) : Prop :=
  ∀ t ∈ r.types, ∀ u ∈ t.parts, u ∈ r.types

/-- The types that a query is about. A class without a superclass is below the root. -/
def Query.operands : Query → List Ty
  | .declare d => d.type.parts
  | .array elem => [elem]
  | .lookup _ | .find _ => []

/-- Whether all queries are about types that are registered by then. -/
def Sourced (r : Registry) : List Query → Prop
  | [] => True
  | q :: queries => (∀ t ∈ q.operands, t ∈ r.types) ∧ (r.answer q).2.Sourced queries

theorem selfContained_initial : initial.SelfContained := by
  unfold SelfContained
  decide

theorem SelfContained.findOrAppend (hr : r.SelfContained) (p : Ty → Bool)
    (hparts : ∀ u ∈ t.parts, u ∈ r.types) : (r.findOrAppend p t).2.SelfContained := by
  rcases findOrAppend_cases r p t with ⟨known, -, heq⟩ | ⟨-, heq⟩
  · rw [heq]
    exact hr
  · rw [heq]
    intro v hv u hu
    rcases List.mem_append.mp hv with hv | hv
    · exact List.mem_append_left _ (hr v hv u hu)
    · obtain rfl := List.mem_singleton.mp hv
      exact List.mem_append_left _ (hparts u hu)

theorem SelfContained.answer {q : Query} (hr : r.SelfContained)
    (hq : ∀ t ∈ q.operands, t ∈ r.types) : (r.answer q).2.SelfContained := by
  cases q with
  | declare d =>
    simp only [Registry.answer, declare_eq]
    exact hr.findOrAppend _ hq
  | array elem => exact hr.findOrAppend _ hq
  | lookup name => exact hr
  | find type => exact hr

theorem SelfContained.after {queries : List Query} (hr : r.SelfContained)
    (hqueries : r.Sourced queries) : (r.after queries).SelfContained := by
  induction queries generalizing r with
  | nil => exact hr
  | cons q queries ih => exact ih (hr.answer hqueries.1) hqueries.2

/-! ## Antisymmetry -/

/-- Whether no registered type is declared below null. -/
def NullFree (r : Registry) : Prop :=
  ∀ t ∈ r.types, .null ∉ t.supertypes

/-- Going up from a type other than null leads to itself, to the root, or to a smaller type. -/
theorem of_accepts_of_nullFree (hr : r.SelfContained) (hfree : r.NullFree)
    (hdst : dst.isDeclared = true) {src : Ty} (hsrc : src ∈ r.types) (hnull : src ≠ .null)
    (h : dst.accepts src = true) : dst = src ∨ dst = .object ∨ sizeOf dst < sizeOf src := by
  cases hkind : src.isDeclared with
  | true =>
    rcases Ty.of_accepts_declared h hkind with heq | hroot | ⟨t, ht, hacc⟩
    · exact .inl heq
    · exact .inr (.inl hroot)
    · have hlt := Ty.sizeOf_lt_of_mem_supertypes ht
      have htypes := hr src hsrc t (Ty.mem_parts_of_mem_supertypes ht)
      have htnull : t ≠ .null := fun heq => hfree src hsrc (heq ▸ ht)
      rcases of_accepts_of_nullFree hr hfree hdst htypes htnull hacc with rfl | hroot | hlt'
      · exact .inr (.inr hlt)
      · exact .inr (.inl hroot)
      · exact .inr (.inr (Nat.lt_trans hlt' hlt))
  | false =>
    cases src with
    | null => exact absurd rfl hnull
    | object | cls | iface => cases hkind
    | void | prim => exact .inl (by simpa [Ty.accepts] using h)
    | array e =>
      rcases Ty.of_accepts_array h with hroot | ⟨d, rfl⟩
      · exact .inr (.inl hroot)
      · cases hdst
termination_by sizeOf src

theorem eq_of_accepts_declared (hr : r.SelfContained) (hfree : r.NullFree) (ht : t ∈ r.types)
    (hu : u ∈ r.types) (htu : t.accepts u = true) (hut : u.accepts t = true)
    (hkind : u.isDeclared = true) : t = u := by
  have hkind' := Ty.isDeclared_of_accepts htu hkind
  have hnull : ∀ v : Ty, v.isDeclared = true → v ≠ .null := by
    rintro v hv rfl
    cases hv
  rcases of_accepts_of_nullFree hr hfree hkind' hu (hnull u hkind) htu with heq | rfl | hlt
  · exact heq
  · exact (by simpa [Ty.accepts] using hut : u = .object).symm
  · rcases of_accepts_of_nullFree hr hfree hkind ht (hnull t hkind') hut with heq | rfl | hlt'
    · exact heq.symm
    · exact by simpa [Ty.accepts] using htu
    · omega

/-- Types that accept one another are equal, if nothing is declared below null. -/
theorem eq_of_accepts (hr : r.SelfContained) (hfree : r.NullFree) {t u : Ty} (ht : t ∈ r.types)
    (hu : u ∈ r.types) (htu : t.accepts u = true) (hut : u.accepts t = true) : t = u := by
  cases u with
  | void | prim => simpa [Ty.accepts] using htu
  | null => exact Ty.eq_null_of_null_accepts hut
  | object | cls | iface => exact eq_of_accepts_declared hr hfree ht hu htu hut rfl
  | array e =>
    rcases Ty.of_accepts_array htu with rfl | ⟨d, rfl⟩
    · simp [Ty.accepts] at hut
    · rcases Ty.array_accepts_array.mp htu with ⟨-, -, hde⟩ | rfl
      · rcases Ty.array_accepts_array.mp hut with ⟨-, -, hed⟩ | rfl
        · have helem : ∀ {c : Ty}, .array c ∈ r.types → c ∈ r.types := by
            intro c hc
            exact hr _ hc c List.mem_cons_self
          rw [eq_of_accepts hr hfree (helem ht) (helem hu) hde hed]
        · rfl
      · rfl
termination_by sizeOf u

/-- Every type accepts itself, and what a type accepts it also accepts through others, whatever the
    declarations. Registered types that accept one another are the same object, unless some
    registered type is declared below null. -/
theorem accepts_isOrder :
    (∀ t : Ty, t.accepts t = true) ∧
    (∀ s t u : Ty, u.accepts t = true → t.accepts s = true → u.accepts s = true) ∧
    ∀ queries : List Query, initial.Sourced queries →
      let r := initial.after queries
      r.NullFree → ∀ a b : Registered, r.Holds a → r.Holds b → a.type.accepts b.type = true →
        b.type.accepts a.type = true → a = b := by
  refine ⟨Ty.accepts_self, fun s t u hut hts => Ty.accepts_trans s hut hts, ?_⟩
  intro queries hqueries r hfree a b ha hb hab hba
  have hr : r.SelfContained := selfContained_initial.after hqueries
  have htype : a.type = b.type :=
    eq_of_accepts hr hfree (List.mem_of_getElem? ha) (List.mem_of_getElem? hb) hab hba
  have hserial := ((canonical_initial.after queries).serial_eq_iff ha hb).mpr htype
  cases a
  cases b
  cases htype
  cases hserial
  rfl

/-- A class stands below an array, an interface below that class, and another class below both. The
    way up does not lead back. -/
theorem accepts_isOrder_odd_shapes :
    let row : Ty := .cls "Row" (.array .string) [] none
    let sink : Ty := .iface "Sink" [row]
    let leaf : Ty := .cls "Leaf" .string [sink] none
    let queries : List Query := [.array .string, .declare (.cls "Row" (some (.array .string)) []),
      .declare (.iface "Sink" [row]), .declare (.cls "Leaf" (some .string) [sink])]
    let r := initial.after queries
    initial.Sourced queries ∧ r.NullFree ∧ r.Holds ⟨22, row⟩ ∧ r.Holds ⟨24, leaf⟩ ∧
      row.accepts sink = true ∧ sink.accepts leaf = true ∧ row.accepts leaf = true ∧
      leaf.accepts row ≠ true := by
  intro row sink leaf queries r
  have hqueries : initial.Sourced queries :=
    ⟨by decide, by decide, by decide, by decide, trivial⟩
  have hfree : r.NullFree := by
    unfold NullFree
    decide
  have hrow : r.Holds ⟨22, row⟩ := rfl
  have hleaf : r.Holds ⟨24, leaf⟩ := rfl
  obtain ⟨-, htrans, hantisymm⟩ := accepts_isOrder
  have hup : row.accepts leaf = true := htrans leaf sink row (by decide) (by decide)
  refine ⟨hqueries, hfree, hrow, hleaf, by decide, by decide, hup, ?_⟩
  intro hdown
  have hsame := hantisymm queries hqueries hfree ⟨22, row⟩ ⟨24, leaf⟩ hrow hleaf hup hdown
  cases hsame

/-- Classes that are declared below null accept one another. -/
example :
    let a : Ty := .cls "A" .null [] none
    let b : Ty := .cls "B" .null [] none
    a.accepts b = true ∧ b.accepts a = true ∧ a ≠ b := by decide

end Registry

end CallBridge
