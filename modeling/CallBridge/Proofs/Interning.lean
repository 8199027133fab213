import CallBridge.Ty.Registry
import Mathlib.Data.List.Nodup
import Mathlib.Data.List.Pairwise

/-!
# One object for each type

A registry finds classes and interfaces by their names and arrays by their elements,
and adds only what it does not find. Over any sequence of queries this gives every
type one object: types that are handed out are the same object exactly if they are
equal. Nothing that was handed out or can be looked up changes later on.
-/

namespace CallBridge

namespace Declaration

def name : Declaration → String
  | cls name _ _ => name
  | iface name _ => name

/-- The type that a declaration of a new name makes. -/
def type : Declaration → Ty
  | cls name superclass interfaces => .cls name (superclass.getD .object) interfaces none
  | iface name supers => .iface name supers

@[simp] theorem declaredName?_type (d : Declaration) : d.type.declaredName? = some d.name := by
  cases d <;> rfl

end Declaration

namespace Registry

variable {r s : Registry} {p : Ty → Bool} {known : Registered} {t : Ty}

/-! ## Finding and adding -/

theorem find?_eq_none_iff : r.find? p = none ↔ ∀ t ∈ r.types, p t = false := by
  rw [← List.findIdx?_eq_none_iff, find?]
  cases hi : r.types.findIdx? p with
  | none => simp
  | some i =>
    obtain ⟨hlt, -⟩ := List.findIdx?_eq_some_iff_getElem.mp hi
    simp [List.getElem?_eq_getElem hlt]

/-- Whether `s` has all that `r` has, in the same places. -/
def Grows (r s : Registry) : Prop :=
  r.types <+: s.types

theorem Grows.getElem? (hrs : r.Grows s) {i : Nat} (ht : r.types[i]? = some t) :
    s.types[i]? = some t := by
  obtain ⟨more, hmore⟩ := hrs
  obtain ⟨hlt, -⟩ := List.getElem?_eq_some_iff.mp ht
  rw [← hmore, List.getElem?_append_left hlt, ht]

/-- What is found is still found when there is more to find. -/
theorem Grows.find? (hrs : r.Grows s) (hknown : r.find? p = some known) :
    s.find? p = some known := by
  obtain ⟨more, hmore⟩ := hrs
  unfold Registry.find? at hknown ⊢
  cases hi : r.types.findIdx? p with
  | none =>
    rw [hi] at hknown
    cases hknown
  | some i =>
    rw [hi] at hknown
    obtain ⟨u, hu, rfl⟩ := Option.map_eq_some_iff.mp hknown
    have hu' : s.types[i]? = some u := Grows.getElem? ⟨more, hmore⟩ hu
    rw [← hmore, List.findIdx?_append, hi, hmore]
    simp [hu']

theorem find?_append_self (hnone : r.find? p = none) (ht : p t = true) :
    (⟨r.types ++ [t]⟩ : Registry).find? p = some ⟨r.types.length, t⟩ := by
  have hidx := List.findIdx?_eq_none_iff.mpr (find?_eq_none_iff.mp hnone)
  simp [find?, List.findIdx?_append, hidx, List.findIdx?_cons, ht]

theorem findOrAppend_of_find? (hknown : r.find? p = some known) (t : Ty) :
    r.findOrAppend p t = (known, r) := by
  rw [findOrAppend, hknown]

theorem findOrAppend_of_none (hnone : r.find? p = none) (t : Ty) :
    r.findOrAppend p t = (⟨r.types.length, t⟩, ⟨r.types ++ [t]⟩) := by
  rw [findOrAppend, hnone]
  rfl

/-- Either the type is there, or it is added behind all others. -/
theorem findOrAppend_cases (r : Registry) (p : Ty → Bool) (t : Ty) :
    (∃ known, r.find? p = some known ∧ r.findOrAppend p t = (known, r)) ∨
      (r.find? p = none ∧ r.findOrAppend p t = (⟨r.types.length, t⟩, ⟨r.types ++ [t]⟩)) := by
  cases hfound : r.find? p with
  | some known => exact .inl ⟨known, rfl, findOrAppend_of_find? hfound t⟩
  | none => exact .inr ⟨rfl, findOrAppend_of_none hfound t⟩

theorem grows_findOrAppend (r : Registry) (p : Ty → Bool) (t : Ty) :
    r.Grows (r.findOrAppend p t).2 := by
  rcases findOrAppend_cases r p t with ⟨known, -, heq⟩ | ⟨-, heq⟩
  · rw [heq]
    exact List.prefix_refl _
  · rw [heq]
    exact List.prefix_append _ _

/-- What a registry hands out is what it finds from then on. -/
theorem find?_findOrAppend (ht : p t = true) :
    (r.findOrAppend p t).2.find? p = some (r.findOrAppend p t).1 := by
  rcases findOrAppend_cases r p t with ⟨known, hknown, heq⟩ | ⟨hnone, heq⟩
  · rw [heq]
    exact hknown
  · rw [heq]
    exact find?_append_self hnone ht

/-! ## Declarations and arrays -/

theorem declare_eq (r : Registry) (d : Declaration) :
    r.declare d = r.findOrAppend (fun t => t.declaredName? == some d.name) d.type := by
  cases d <;> rfl

theorem declare_of_lookup? {d : Declaration} (hknown : r.lookup? d.name = some known) :
    r.declare d = (known, r) := by
  rw [declare_eq]
  exact findOrAppend_of_find? hknown _

theorem lookup?_declare (r : Registry) (d : Declaration) :
    (r.declare d).2.lookup? d.name = some (r.declare d).1 := by
  rw [declare_eq]
  refine find?_findOrAppend ?_
  simp

theorem type_declare {d : Declaration} (hnone : r.lookup? d.name = none) :
    (r.declare d).1.type = d.type := by
  rw [declare_eq, findOrAppend_of_none hnone]

/-- The array type over `elem`, if there is one. -/
def arrayOver? (r : Registry) (elem : Ty) : Option Registered :=
  r.find? (· == .array elem)

theorem array_of_arrayOver? {elem : Ty} (hknown : r.arrayOver? elem = some known) :
    r.array elem = (known, r) :=
  findOrAppend_of_find? hknown _

theorem arrayOver?_array (r : Registry) (elem : Ty) :
    (r.array elem).2.arrayOver? elem = some (r.array elem).1 :=
  find?_findOrAppend (beq_self_eq_true _)

theorem type_of_arrayOver? {elem : Ty} (hknown : r.arrayOver? elem = some known) :
    known.type = .array elem :=
  beq_iff_eq.mp (of_find? hknown).2

/-! ## Canonical registries -/

/-- Whether no type and no name is there twice. -/
structure Canonical (r : Registry) : Prop where
  types : r.types.Nodup
  names : (r.types.filterMap Ty.declaredName?).Nodup

theorem canonical_initial : initial.Canonical where
  types := by decide
  names := by decide

namespace Canonical

theorem append (hr : r.Canonical) (ht : t ∉ r.types)
    (hname : ∀ name, t.declaredName? = some name → ∀ u ∈ r.types, u.declaredName? ≠ some name) :
    (⟨r.types ++ [t]⟩ : Registry).Canonical where
  types := List.nodup_append'.mpr ⟨hr.types, List.nodup_singleton t, by simpa using ht⟩
  names := by
    rw [List.filterMap_append, List.nodup_append']
    refine ⟨hr.names, ?_, ?_⟩
    · cases hn : t.declaredName? <;> simp [hn]
    · cases hn : t.declaredName? with
      | none => simp [hn]
      | some name => simpa [hn] using hname name hn

theorem declare (hr : r.Canonical) (d : Declaration) : (r.declare d).2.Canonical := by
  rw [declare_eq]
  rcases findOrAppend_cases r _ d.type with ⟨known, -, heq⟩ | ⟨hnone, heq⟩
  · rw [heq]
    exact hr
  · have hfresh : ∀ u ∈ r.types, u.declaredName? ≠ some d.name := by
      simpa using find?_eq_none_iff.mp hnone
    rw [heq]
    refine hr.append ?_ ?_
    · intro hmem
      exact hfresh _ hmem d.declaredName?_type
    · intro name hname
      rw [Declaration.declaredName?_type, Option.some.injEq] at hname
      exact hname ▸ hfresh

theorem array (hr : r.Canonical) (elem : Ty) : (r.array elem).2.Canonical := by
  unfold Registry.array
  rcases findOrAppend_cases r (· == .array elem) (.array elem) with ⟨known, -, heq⟩ | ⟨hnone, heq⟩
  · rw [heq]
    exact hr
  · rw [heq]
    refine hr.append ?_ ?_
    · intro hmem
      simpa using find?_eq_none_iff.mp hnone _ hmem
    · rintro name ⟨⟩

end Canonical

/-- Whether a type is registered at its serial number. -/
def Holds (r : Registry) (known : Registered) : Prop :=
  r.types[known.serial]? = some known.type

theorem holds_of_find? (hknown : r.find? p = some known) : r.Holds known :=
  (of_find? hknown).1

/-- Registered types are the same object if they are equal. -/
theorem Canonical.serial_eq_iff {a b : Registered} (hr : r.Canonical) (ha : r.Holds a)
    (hb : r.Holds b) : a.serial = b.serial ↔ a.type = b.type := by
  obtain ⟨hlta, htypea⟩ := List.getElem?_eq_some_iff.mp ha
  obtain ⟨hltb, htypeb⟩ := List.getElem?_eq_some_iff.mp hb
  rw [← htypea, ← htypeb]
  exact hr.types.getElem_inj_iff.symm

/-- Where at most one registered type is meant, finding one is a matter of its being registered. -/
theorem Canonical.find?_eq_some_iff (hr : r.Canonical)
    (hone : ∀ t ∈ r.types, ∀ u ∈ r.types, p t = true → p u = true → t = u) :
    r.find? p = some known ↔ r.Holds known ∧ p known.type = true := by
  constructor
  · exact of_find?
  · rintro ⟨hholds, hp⟩
    have hmem := List.mem_of_getElem? hholds
    cases hfound : r.find? p with
    | none =>
      rw [find?_eq_none_iff.mp hfound _ hmem] at hp
      cases hp
    | some found =>
      obtain ⟨hfholds, hfp⟩ := of_find? hfound
      have htype : found.type = known.type :=
        hone _ (List.mem_of_getElem? hfholds) _ hmem hfp hp
      have hserial := (hr.serial_eq_iff hfholds hholds).mpr htype
      cases found
      cases known
      cases htype
      cases hserial
      rfl

/-- The name of a registered type leads to that type. -/
theorem Canonical.lookup?_eq_some_iff {name : String} (hr : r.Canonical) :
    r.lookup? name = some known ↔ r.Holds known ∧ known.type.declaredName? = some name := by
  have hdistinct := List.pairwise_filterMap.mp hr.names
  have hsymm : Std.Symm fun t u : Ty => ∀ n, t.declaredName? = some n →
      ∀ m, u.declaredName? = some m → n ≠ m :=
    ⟨fun t u htu n hn m hm => (htu m hm n hn).symm⟩
  have hone : ∀ t ∈ r.types, ∀ u ∈ r.types, (t.declaredName? == some name) = true →
      (u.declaredName? == some name) = true → t = u := by
    intro t ht u hu htname huname
    rw [beq_iff_eq] at htname huname
    by_contra hne
    exact hdistinct.forall ht hu hne name htname name huname rfl
  rw [lookup?, hr.find?_eq_some_iff hone, beq_iff_eq]

/-! ## Registries in use -/

/-- What can be asked of a registry. -/
inductive Query where
  | declare (d : Declaration)
  | array (elem : Ty)
  | lookup (name : String)
  /-- Asks for a type that is there, such as one of those that always are. -/
  | find (type : Ty)

/-- Answers a query. -/
def answer (r : Registry) : Query → Option Registered × Registry
  | .declare d => (some (r.declare d).1, (r.declare d).2)
  | .array elem => (some (r.array elem).1, (r.array elem).2)
  | .lookup name => (r.lookup? name, r)
  | .find type => (r.find? (· == type), r)

/-- The registry after a sequence of queries. -/
def after (r : Registry) (queries : List Query) : Registry :=
  queries.foldl (fun r q => (r.answer q).2) r

/-- The types that are handed out in the course of a sequence of queries. -/
def returned (r : Registry) : List Query → List Registered
  | [] => []
  | q :: queries => (r.answer q).1.toList ++ (r.answer q).2.returned queries

theorem after_append (r : Registry) (before later : List Query) :
    r.after (before ++ later) = (r.after before).after later :=
  List.foldl_append

theorem Canonical.answer (hr : r.Canonical) (q : Query) : (r.answer q).2.Canonical := by
  cases q with
  | declare d => exact hr.declare d
  | array elem => exact hr.array elem
  | lookup name => exact hr
  | find type => exact hr

theorem Canonical.after (hr : r.Canonical) (queries : List Query) : (r.after queries).Canonical := by
  induction queries generalizing r with
  | nil => exact hr
  | cons q queries ih => exact ih (hr.answer q)

theorem grows_answer (r : Registry) (q : Query) : r.Grows (r.answer q).2 := by
  cases q with
  | declare d =>
    simp only [answer, declare_eq]
    exact grows_findOrAppend r _ _
  | array elem => exact grows_findOrAppend r _ _
  | lookup name => exact List.prefix_refl _
  | find type => exact List.prefix_refl _

theorem grows_after (r : Registry) (queries : List Query) : r.Grows (r.after queries) := by
  induction queries generalizing r with
  | nil => exact List.prefix_refl _
  | cons q queries ih => exact (grows_answer r q).trans (ih _)

theorem holds_of_answer {q : Query} (hknown : (r.answer q).1 = some known) :
    (r.answer q).2.Holds known := by
  cases q with
  | declare d =>
    cases hknown
    exact holds_of_find? (lookup?_declare r d)
  | array elem =>
    cases hknown
    exact holds_of_find? (arrayOver?_array r elem)
  | lookup name => exact holds_of_find? hknown
  | find type => exact holds_of_find? hknown

/-- Whatever is handed out stays registered where it is. -/
theorem holds_of_mem_returned {queries : List Query} (hmem : known ∈ r.returned queries) :
    (r.after queries).Holds known := by
  induction queries generalizing r with
  | nil => cases hmem
  | cons q queries ih =>
    rcases List.mem_append.mp hmem with hmem | hmem
    · have hanswer := holds_of_answer (Option.mem_toList.mp hmem)
      exact (grows_after _ queries).getElem? hanswer
    · exact ih hmem

/-- An array type that was asked for is found from then on, as it was handed out. -/
theorem exists_arrayOver?_after {queries : List Query} {elem : Ty} (hmem : .array elem ∈ queries) :
    ∃ known ∈ r.returned queries, (r.after queries).arrayOver? elem = some known := by
  induction queries generalizing r with
  | nil => cases hmem
  | cons q queries ih =>
    rcases List.mem_cons.mp hmem with rfl | hmem
    · refine ⟨(r.array elem).1, List.mem_append_left _ (by simp [answer]), ?_⟩
      exact (grows_after _ queries).find? (arrayOver?_array r elem)
    · obtain ⟨known, hknown, hfound⟩ := ih (r := (r.answer q).2) hmem
      exact ⟨known, List.mem_append_right _ hknown, hfound⟩

/-- Take a registry at any time of its use, and once more any time later. Types handed out by then are
    the same object exactly if they are equal, and each is still registered where it was. A name
    leads to the one registered type that carries it. A declaration of a new name makes the type that
    it says, which the name leads to from then on; a declaration of a name that is known, whatever
    else it says, gives the type that is known and changes nothing, and so does asking for an array
    that was asked for before. -/
theorem interns (before later : List Query) :
    let r := initial.after before
    let s := r.after later
    (∀ a ∈ initial.returned (before ++ later), ∀ b ∈ initial.returned (before ++ later),
      a.serial = b.serial ↔ a.type = b.type) ∧
    (∀ a ∈ initial.returned before, s.Holds a) ∧
    (∀ name known, s.lookup? name = some known ↔
      s.Holds known ∧ known.type.declaredName? = some name) ∧
    (∀ d : Declaration, r.lookup? d.name = none → (r.declare d).1.type = d.type ∧
      ((r.declare d).2.after later).lookup? d.name = some (r.declare d).1) ∧
    (∀ (d : Declaration) (known : Registered), r.lookup? d.name = some known →
      s.lookup? d.name = some known ∧ s.declare d = (known, s)) ∧
    (∀ elem, .array elem ∈ before → ∃ known ∈ initial.returned before,
      known.type = .array elem ∧ s.array elem = (known, s)) := by
  intro r s
  have hs : s.Canonical := (canonical_initial.after before).after later
  have hgrows : r.Grows s := grows_after r later
  refine ⟨?_, ?_, ?_, ?_, ?_, ?_⟩
  · intro a ha b hb
    have hholds : ∀ known ∈ initial.returned (before ++ later), s.Holds known := by
      intro known hmem
      rw [show s = initial.after (before ++ later) from (after_append initial before later).symm]
      exact holds_of_mem_returned hmem
    exact hs.serial_eq_iff (hholds a ha) (hholds b hb)
  · intro a ha
    exact hgrows.getElem? (holds_of_mem_returned ha)
  · intro name known
    exact hs.lookup?_eq_some_iff
  · intro d hnone
    exact ⟨type_declare hnone, (grows_after _ later).find? (lookup?_declare r d)⟩
  · intro d known hknown
    have hlater : s.lookup? d.name = some known := hgrows.find? hknown
    exact ⟨hlater, declare_of_lookup? hlater⟩
  · intro elem hmem
    obtain ⟨known, hknown, hfound⟩ := exists_arrayOver?_after (r := initial) hmem
    have hlater : s.arrayOver? elem = some known := hgrows.find? hfound
    exact ⟨known, hknown, type_of_arrayOver? hlater, array_of_arrayOver? hlater⟩

/-- A class is declared again with another superclass, and its arrays are asked for again. -/
theorem interns_redeclared :
    let list : Ty := .iface "List" []
    let vector : Ty := .cls "Vector" .object [list] none
    let before : List Query :=
      [.declare (.iface "List" []), .declare (.cls "Vector" none [list]), .array vector]
    let r := initial.after before
    initial.returned before = [⟨21, list⟩, ⟨22, vector⟩, ⟨23, .array vector⟩] ∧
      r.lookup? "Vector" = some ⟨22, vector⟩ ∧
      r.declare (.cls "Vector" (some .string) []) = (⟨22, vector⟩, r) ∧
      ∃ known ∈ initial.returned before, known.type = .array vector ∧ r.array vector = (known, r) := by
  intro list vector before r
  have hlookup : r.lookup? "Vector" = some ⟨22, vector⟩ := by decide
  obtain ⟨-, -, -, -, hagain, harray⟩ := interns before []
  exact ⟨by decide, hlookup, (hagain (.cls "Vector" (some .string) []) _ hlookup).2,
    harray vector (by simp [before])⟩

end Registry

end CallBridge
