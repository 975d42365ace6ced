import DesiredState.Json.Basic
import Mathlib.Data.List.Forall2
import Mathlib.Tactic.Common

/-!
# Documents by their members

An object is known by its look-ups: `induction_members` proves a statement of every document from
its items and members, and two objects are equal, or the same up to the two floating zeros, when
they agree at every name (`sameFields_iff`). The rest says what the operations that change members
do to a look-up.
-/

namespace DesiredState

theorem isSome_eq_of_rel {α β : Type} {r : α → β → Prop} {x : Option α} {y : Option β}
    (h : Option.Rel r x y) : x.isSome = y.isSome := by
  cases h <;> rfl

/-- Look-ups are related exactly if all that is found by the first is related to what the second
finds, and nothing else is found by the second. -/
theorem forall_rel_iff {κ α β : Type} {r : α → β → Prop} {f : κ → Option α} {g : κ → Option β} :
    (∀ k, Option.Rel r (f k) (g k)) ↔
      (∀ k v, f k = some v → ∃ w, g k = some w ∧ r v w) ∧
        ∀ k, (g k).isSome = true → (f k).isSome = true := by
  constructor
  · intro rel
    refine ⟨fun k v hf => ?_, fun k h => (isSome_eq_of_rel (rel k)).trans h⟩
    have at_k := rel k
    rw [hf] at at_k
    cases hg : g k with
    | none => rw [hg] at at_k; cases at_k
    | some w =>
      rw [hg] at at_k
      cases at_k with
      | some related => exact ⟨w, rfl, related⟩
  · rintro ⟨found, only⟩ k
    cases hf : f k with
    | none =>
      cases hg : g k with
      | none => exact .none
      | some w => simpa [hf, hg] using only k
    | some v =>
      obtain ⟨w, hg, related⟩ := found k v hf
      rw [hg]
      exact .some related

/-! ## Equal look-ups in chains of entries -/

namespace Entries

variable {κ : Type} [LT κ] [DecidableEq κ] [KeyOrder κ] {α β : Type} {b : Option κ}

/-- Two chains that hold the same keys start with the same key. -/
theorem first_eq {k k' : κ} {h : After b k} {h' : After b k'} {v : α} {v' : β}
    {rest : Entries κ α (some k)} {rest' : Entries κ β (some k')}
    (same : ∀ j, ((cons k h v rest).get? j).isSome = ((cons k' h' v' rest').get? j).isSome) :
    k = k' := by
  by_contra ne
  have at_k := same k
  have at_k' := same k'
  rw [get?_cons, get?_cons, if_pos rfl, if_neg ne] at at_k
  rw [get?_cons, get?_cons, if_pos rfl, if_neg (Ne.symm ne)] at at_k'
  have lt' : k' < k := by
    by_contra hn
    rw [rest'.get?_eq_none hn] at at_k
    cases at_k
  have lt : k < k' := by
    by_contra hn
    rw [rest.get?_eq_none hn] at at_k'
    cases at_k'
  exact KeyOrder.irrefl k (KeyOrder.trans lt lt')

/-- A relation between the look-ups of two chains with the same first key holds between those of
what follows. -/
theorem rel_rest {r : α → β → Prop} {k : κ} {h h' : After b k} {v : α} {v' : β}
    {rest : Entries κ α (some k)} {rest' : Entries κ β (some k)}
    (rel : ∀ j, Option.Rel r ((cons k h v rest).get? j) ((cons k h' v' rest').get? j)) (j : κ) :
    Option.Rel r (rest.get? j) (rest'.get? j) := by
  by_cases e : j = k
  · rw [e, rest.get?_eq_none (not_after_self k), rest'.get?_eq_none (not_after_self k)]
    exact .none
  · have := rel j
    rwa [get?_cons, get?_cons, if_neg e, if_neg e] at this

/-- What holds of all entries of a chain holds of the first and of those after it. -/
theorem forall_get?_cons {P : κ → α → Prop} {j : κ} {h : After b j} {v : α}
    {rest : Entries κ α (some j)} :
    (∀ k w, (cons j h v rest).get? k = some w → P k w) ↔
      P j v ∧ ∀ k w, rest.get? k = some w → P k w := by
  constructor
  · intro all
    refine ⟨all j v (by rw [get?_cons, if_pos rfl]), fun k w there => all k w ?_⟩
    have ne : k ≠ j := by
      rintro rfl
      rw [rest.get?_eq_none (not_after_self k)] at there
      cases there
    rw [get?_cons, if_neg ne, there]
  · rintro ⟨first, others⟩ k w there
    rw [get?_cons] at there
    by_cases e : k = j
    · rw [if_pos e] at there
      exact e ▸ Option.some.inj there ▸ first
    · rw [if_neg e] at there
      exact others k w there

omit [KeyOrder κ] in
theorem mem_toList_of_get? {m : Entries κ α b} {k : κ} {v : α} (h : m.get? k = some v) :
    (k, v) ∈ m.toList := by
  induction m with
  | nil => cases h
  | cons j hj w rest ih =>
    rw [get?_cons] at h
    by_cases e : k = j
    · rw [if_pos e] at h
      exact e ▸ Option.some.inj h ▸ List.mem_cons_self
    · rw [if_neg e] at h
      exact List.mem_cons_of_mem _ (ih h)

theorem get?_foldl_erase (names : List κ) (m : Entries κ α b) (k : κ) :
    (names.foldl erase m).get? k = if k ∈ names then none else m.get? k := by
  induction names generalizing m with
  | nil => rfl
  | cons name rest ih =>
    rw [List.foldl_cons, ih, get?_erase]
    by_cases e : k = name
    · simp [e]
    · by_cases h : k ∈ rest <;> simp [e, h]

end Entries

namespace Json

/-! ## Induction -/

/-- The steps of an induction over documents: leaves, lists whose items are done, and objects
whose members are done. -/
structure Steps (motive : Json → Prop) : Prop where
  leaf : ∀ j, j.asArray? = none → j.asObject? = none → motive j
  arr : ∀ items, (∀ j ∈ items, motive j) → motive (.arr items)
  obj : ∀ fields : Object, (∀ k j, fields.get? k = some j → motive j) → motive (.obj fields)

mutual

theorem Steps.document {motive : Json → Prop} (s : Steps motive) : (j : Json) → motive j
  | .null => s.leaf .null rfl rfl
  | .bool b => s.leaf (.bool b) rfl rfl
  | .num n => s.leaf (.num n) rfl rfl
  | .str t => s.leaf (.str t) rfl rfl
  | .arr items => s.arr items (s.items items)
  | .obj fields => s.obj fields (s.fields fields)

theorem Steps.items {motive : Json → Prop} (s : Steps motive) :
    (l : List Json) → ∀ j ∈ l, motive j
  | [] => fun _ h => nomatch h
  | x :: xs => fun j h => by
    rcases List.mem_cons.1 h with e | h
    · exact e ▸ s.document x
    · exact s.items xs j h

theorem Steps.fields {motive : Json → Prop} (s : Steps motive) :
    {b : Option String} → (m : Entries String Json b) → ∀ k j, m.get? k = some j → motive j
  | _, .nil => fun _ _ h => nomatch h
  | _, .cons name _ v rest => fun k j h => by
    rw [Entries.get?_cons] at h
    by_cases e : k = name
    · rw [if_pos e] at h
      exact Option.some.inj h ▸ s.document v
    · rw [if_neg e] at h
      exact s.fields rest k j h

end

/-- Induction over a document by its items and members. -/
@[elab_as_elim]
theorem induction_members {motive : Json → Prop} (j : Json)
    (leaf : ∀ j, j.asArray? = none → j.asObject? = none → motive j)
    (arr : ∀ items, (∀ j ∈ items, motive j) → motive (.arr items))
    (obj : ∀ fields : Object, (∀ k j, fields.get? k = some j → motive j) → motive (.obj fields)) :
    motive j :=
  Steps.document ⟨leaf, arr, obj⟩ j

/-! ## Equality of values -/

theorem sameItems_iff (xs ys : List Json) :
    sameItems xs ys = true ↔ List.Forall₂ (fun x y => x.same y = true) xs ys := by
  induction xs generalizing ys with
  | nil => cases ys <;> simp [sameItems, List.forall₂_nil_left_iff]
  | cons x xs ih => cases ys <;> simp [sameItems, ih, List.forall₂_nil_right_iff]

theorem sameFields_iff {b : Option String} (m n : Entries String Json b) :
    sameFields m n = true ↔
      ∀ k, Option.Rel (fun v w => v.same w = true) (m.get? k) (n.get? k) := by
  induction m with
  | nil =>
    cases n with
    | nil => simp [sameFields]
    | cons k _ w rest =>
      refine ⟨fun h => by simp [sameFields] at h, fun h => ?_⟩
      have at_k := h k
      rw [Entries.get?_nil, Entries.get?_cons, if_pos rfl] at at_k
      cases at_k
  | cons k h v rest ih =>
    cases n with
    | nil =>
      refine ⟨fun h => by simp [sameFields] at h, fun h => ?_⟩
      have at_k := h k
      rw [Entries.get?_nil, Entries.get?_cons, if_pos rfl] at at_k
      cases at_k
    | cons k' h' w rest' =>
      constructor
      · intro eq
        simp only [sameFields, Bool.and_eq_true, beq_iff_eq] at eq
        obtain ⟨⟨rfl, value⟩, others⟩ := eq
        intro j
        rw [Entries.get?_cons, Entries.get?_cons]
        by_cases e : j = k
        · rw [if_pos e, if_pos e]
          exact .some value
        · rw [if_neg e, if_neg e]
          exact (ih rest').1 others j
      · intro rel
        obtain rfl : k = k' := Entries.first_eq fun j => isSome_eq_of_rel (rel j)
        have value := rel k
        rw [Entries.get?_cons, Entries.get?_cons, if_pos rfl, if_pos rfl] at value
        have others := (ih rest').2 (Entries.rel_rest rel)
        cases value with
        | some value => simp [sameFields, value, others]

theorem same_arr_iff {xs ys : List Json} :
    (arr xs).same (arr ys) = true ↔ List.Forall₂ (fun x y => x.same y = true) xs ys := by
  rw [same]
  exact sameItems_iff xs ys

theorem same_obj_iff {m n : Object} :
    (obj m).same (obj n) = true ↔
      ∀ k, Option.Rel (fun v w => v.same w = true) (m.get? k) (n.get? k) := by
  rw [same]
  exact sameFields_iff m n

theorem number_same_symm {m n : Number} (h : m.same n = true) : n.same m = true := by
  cases m with
  | int a =>
    cases n with
    | int b => exact beq_iff_eq.2 (beq_iff_eq.1 h).symm
    | float y => cases h
  | float x =>
    cases n with
    | int b => cases h
    | float y =>
      simp only [Number.same, Binary64.same, Bool.and_eq_true, Bool.or_eq_true, beq_iff_eq] at h ⊢
      exact ⟨h.1.symm, h.2.imp Eq.symm h.1.symm.trans⟩

theorem same_symm {j k : Json} (h : j.same k = true) : k.same j = true := by
  induction j using induction_members generalizing k with
  | leaf j harr hobj =>
    cases j with
    | arr => cases harr
    | obj => cases hobj
    | num n =>
      cases k with
      | num m => rw [same] at h ⊢; exact number_same_symm h
      | _ => simp [same] at h
    | _ => cases k <;> simp_all [same]
  | arr items ih =>
    cases k with
    | arr others =>
      rw [same_arr_iff] at h ⊢
      induction h with
      | nil => exact .nil
      | cons first _ rest =>
        exact .cons (ih _ List.mem_cons_self first)
          (rest fun j hj => ih j (List.mem_cons_of_mem _ hj))
    | _ => simp [same] at h
  | obj fields ih =>
    cases k with
    | obj others =>
      rw [same_obj_iff] at h ⊢
      intro name
      have at_name := h name
      cases hf : fields.get? name <;> cases ho : others.get? name <;>
        simp_all only [Option.not_rel_none_some, Option.not_rel_some_none, Option.rel_some_some,
          Option.rel_none_none]
      exact ih name _ hf at_name
    | _ => simp [same] at h

theorem same_comm (j k : Json) : j.same k = k.same j :=
  Bool.eq_iff_iff.2 ⟨same_symm, same_symm⟩

theorem number_same_trans {m n o : Number} (h : m.same n = true) (h' : n.same o = true) :
    m.same o = true := by
  cases m <;> cases n <;> cases o <;>
    simp only [Number.same, Bool.false_eq_true, beq_iff_eq] at h h' ⊢
  · exact h.trans h'
  · simp only [Binary64.same, Bool.and_eq_true, Bool.or_eq_true, beq_iff_eq] at h h' ⊢
    refine ⟨h.1.trans h'.1, ?_⟩
    rcases h.2 with e | e
    · exact h'.2.imp e.trans h.1.trans
    · exact .inr e

theorem same_trans {i j k : Json} (h : i.same j = true) (h' : j.same k = true) :
    i.same k = true := by
  induction i using induction_members generalizing j k with
  | leaf i harr hobj =>
    cases i with
    | arr => cases harr
    | obj => cases hobj
    | num n =>
      cases j <;> cases k <;> simp only [same, Bool.false_eq_true] at h h' ⊢
      exact number_same_trans h h'
    | _ => cases j <;> cases k <;> simp_all [same]
  | arr items ih =>
    cases j <;> cases k <;> simp only [same, Bool.false_eq_true] at h h' ⊢
    rename_i ys zs
    rw [sameItems_iff] at h h' ⊢
    induction h generalizing zs with
    | nil => exact h'
    | cons first _ rest =>
      cases h' with
      | cons first' others =>
        exact .cons (ih _ List.mem_cons_self first first')
          (rest (fun j hj => ih j (List.mem_cons_of_mem _ hj)) _ others)
  | obj fields ih =>
    cases j <;> cases k <;> simp only [same, Bool.false_eq_true] at h h' ⊢
    rename_i ys zs
    rw [sameFields_iff] at h h' ⊢
    intro name
    have at_name := h name
    have at_name' := h' name
    cases hf : fields.get? name <;> cases hy : ys.get? name <;> cases hz : zs.get? name <;>
      simp_all only [Option.not_rel_none_some, Option.not_rel_some_none, Option.rel_some_some,
        Option.rel_none_none]
    exact ih name _ hf at_name at_name'

/-! ## Look-ups in equal values -/

theorem rel_member? {a b : Json} (h : a.same b = true) (k : String) :
    Option.Rel (fun v w => v.same w = true) (a.member? k) (b.member? k) := by
  cases a with
  | obj m =>
    cases b with
    | obj n => exact same_obj_iff.1 h k
    | _ => simp [same] at h
  | _ =>
    cases b with
    | obj n => simp [same] at h
    | _ => exact .none

theorem rel_path? {a b : Json} (h : a.same b = true) (path : List String) :
    Option.Rel (fun v w => v.same w = true) (a.path? path) (b.path? path) := by
  induction path generalizing a b with
  | nil => exact .some h
  | cons k rest ih =>
    have here := rel_member? h k
    show Option.Rel _ ((a.member? k).bind _) ((b.member? k).bind _)
    generalize a.member? k = v at here ⊢
    generalize b.member? k = w at here ⊢
    cases here with
    | none => exact .none
    | some same => exact ih same

theorem asString?_eq_of_same {a b : Json} (h : a.same b = true) : a.asString? = b.asString? := by
  cases a <;> cases b <;> simp_all [same, asString?]

theorem stringAt?_eq_of_same {a b : Json} (h : a.same b = true) (path : List String) :
    a.stringAt? path = b.stringAt? path := by
  have there := rel_path? h path
  rw [stringAt?, stringAt?]
  generalize a.path? path = v at there ⊢
  generalize b.path? path = w at there ⊢
  cases there with
  | none => rfl
  | some same => exact asString?_eq_of_same same

/-! ## Look-ups after a change -/

@[simp] theorem member?_obj (fields : Object) (name : String) :
    (obj fields).member? name = fields.get? name := rfl

theorem member?_object (members : List (String × Json)) (name : String) :
    (object members).member? name = (SortedMap.ofList members).get? name := rfl

theorem path?_cons (j : Json) (name : String) (rest : List String) :
    j.path? (name :: rest) = (j.member? name).bind (·.path? rest) := rfl

theorem path?_append (j : Json) (front rest : List String) :
    j.path? (front ++ rest) = (j.path? front).bind (·.path? rest) := by
  induction front generalizing j with
  | nil => rfl
  | cons name front ih =>
    simp only [List.cons_append, path?_cons, ih, Option.bind_assoc]

theorem path?_concat (j : Json) (front : List String) (name : String) :
    j.path? (front ++ [name]) = (j.path? front).bind (·.member? name) := by
  simp only [path?_append, path?, Option.bind_fun_some]

/-- Only an object has members. -/
theorem isObject_of_member {j : Json} {k : String} {v : Json} (h : j.member? k = some v) :
    j.isObject = true := by
  cases j with
  | obj => rfl
  | _ => cases h

theorem isNull_of_isObject {j : Json} (h : j.isObject = true) : j.isNull = false := by
  cases j with
  | null => cases h
  | _ => rfl

theorem asObject?_eq_none_iff {j : Json} : j.asObject? = none ↔ j.isObject = false := by
  cases j <;> simp [asObject?, isObject]

theorem eq_obj_of_isObject {j : Json} (h : j.isObject = true) : ∃ fields, j = obj fields := by
  cases j with
  | obj fields => exact ⟨fields, rfl⟩
  | _ => simp [isObject] at h

theorem member?_eraseMember (j : Json) (name k : String) :
    (j.eraseMember name).member? k = if k = name then none else j.member? k := by
  cases j with
  | obj fields => exact Entries.get?_erase fields name k
  | _ => exact (ite_self _).symm

theorem member?_mapMember (j : Json) (name : String) (f : Json → Json) (k : String) :
    (j.mapMember name f).member? k =
      if k = name then (j.member? name).map f else j.member? k := by
  cases j with
  | obj fields =>
    cases h : fields.get? name with
    | none =>
      simp only [mapMember, mapObject, h, member?_obj]
      by_cases e : k = name
      · rw [if_pos e, e, h]
        rfl
      · rw [if_neg e]
    | some v =>
      simp only [mapMember, mapObject, h, member?_obj]
      exact SortedMap.get?_insert fields name (f v) k
  | _ => exact (ite_self _).symm

theorem member?_setMember (fields : Object) (name : String) (v : Json) (k : String) :
    ((obj fields).setMember name v).member? k = if k = name then some v else fields.get? k :=
  SortedMap.get?_insert fields name v k

theorem member?_updateMember (fields : Object) (name : String) (f : Object → Object) (k : String) :
    ((obj fields).updateMember name f).member? k =
      if k = name then some (((fields.get? name).getD emptyObject).mapObject f)
      else fields.get? k :=
  SortedMap.get?_insert fields name _ k

/-- Changing one member leaves the others alone. -/
theorem member?_updateMember_of_ne (j : Json) {name : String} (f : Object → Object) {k : String}
    (ne : k ≠ name) : (j.updateMember name f).member? k = j.member? k := by
  cases j with
  | obj fields => rw [member?_updateMember, if_neg ne, member?_obj]
  | _ => rfl

@[simp] theorem isObject_mapObject (f : Object → Object) (j : Json) :
    (j.mapObject f).isObject = j.isObject := by
  cases j <;> rfl

/-- Objects with the same members are equal. -/
theorem eq_of_members {a b : Json} (ha : a.isObject = true) (hb : b.isObject = true)
    (h : ∀ k, a.member? k = b.member? k) : a = b := by
  obtain ⟨m, rfl⟩ := eq_obj_of_isObject ha
  obtain ⟨n, rfl⟩ := eq_obj_of_isObject hb
  exact congrArg obj (Entries.ext h)

end Json

end DesiredState
