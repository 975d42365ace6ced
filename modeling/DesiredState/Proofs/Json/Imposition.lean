import DesiredState.Proofs.Json.MergePatch

/-!
# Laying a document over another, lists as a whole

A merge patch comes close to laying its document over the target. It differs in lists, which it
replaces as a whole, so `imposed` lays a document over another in this way. Up to the spelling of
quantities that is what a patch without null members makes of its target
(`agrees_patched_imposed`), and what the patch does not mention stays as it was at any depth
(`path?_patched_of_omits`).
-/

namespace DesiredState

theorem Quantity.same_symm {s t : String} (h : Quantity.same s t = true) :
    Quantity.same t s = true := by
  rw [Quantity.same_iff] at h ⊢
  obtain rfl | ⟨n, first, second⟩ := h
  · exact .inl rfl
  · exact .inr ⟨n, second, first⟩

namespace Json

theorem sameAmount_symm {l w : Json} (h : sameAmount l w = true) : sameAmount w l = true := by
  obtain ⟨s, t, rfl, rfl, amount⟩ := sameAmount_iff.1 h
  exact Quantity.same_symm amount

/-! ## Agreement -/

/-- Each document holds all that the other asks for. They are equal values but for quantities,
which may be spelled in other ways. -/
def agrees (name : Option String) (a b : Json) : Bool := covers name a b && covers name b a

/-- Members that agree under their name. -/
def MemberAgrees (quantities : Bool) (k : String) (a b : Json) : Prop :=
  MemberCovers quantities k a b ∧ MemberCovers quantities k b a

theorem agrees_iff {name : Option String} {a b : Json} :
    agrees name a b = true ↔ covers name a b = true ∧ covers name b a = true :=
  Bool.and_eq_true_iff

theorem agrees_self (name : Option String) (j : Json) : agrees name j j = true :=
  agrees_iff.2 ⟨covers_self name j, covers_self name j⟩

theorem memberAgrees_of_agrees {quantities : Bool} {k : String} {a b : Json}
    (h : agrees (some k) a b = true) : MemberAgrees quantities k a b :=
  ⟨.inr (agrees_iff.1 h).1, .inr (agrees_iff.1 h).2⟩

/-- Where no quantities are named, members agree as documents. -/
theorem memberAgrees_false_iff {k : String} {a b : Json} :
    MemberAgrees false k a b ↔ agrees (some k) a b = true := by
  rw [agrees_iff, MemberAgrees, MemberCovers, MemberCovers]
  simp

/-- Objects agree if they do member by member. -/
theorem agrees_obj {name : Option String} {m n : Object}
    (h : ∀ k, Option.Rel (MemberAgrees (namesQuantities name) k) (m.get? k) (n.get? k)) :
    agrees name (obj m) (obj n) = true := by
  rw [agrees_iff, covers_obj_iff, covers_obj_iff]
  constructor
  · intro k w there
    have at_k := h k
    rw [there] at at_k
    generalize m.get? k = l at at_k ⊢
    cases at_k with
    | some both => exact ⟨_, rfl, both.1⟩
  · intro k w there
    have at_k := h k
    rw [there] at at_k
    generalize n.get? k = l at at_k ⊢
    cases at_k with
    | some both => exact ⟨_, rfl, both.2⟩

/-! ## Imposed documents -/

mutual

/-- The wanted document over the live one, both found under `name`. Its lists stand as they are. -/
def imposedUnder (name : Option String) (live : Json) : Json → Json
  | obj wanted =>
    match live with
    | obj fields => obj (imposedFields (namesQuantities name) fields wanted)
    | _ => obj wanted
  | wanted => wanted

def imposedFields (quantities : Bool) (live : Object) :
    {b : Option String} → Entries String Json b → Object
  | _, .nil => live
  | _, .cons k _ w rest =>
    let joined :=
      match live.get? k with
      | none => w
      | some l => if quantities && sameAmount l w then l else imposedUnder (some k) l w
    imposedFields quantities (SortedMap.insert live k joined) rest

end

def imposed (live wanted : Json) : Json := imposedUnder none live wanted

/-- A member after a wanted object is imposed on a live one. -/
def imposedMember (quantities : Bool) (k : String) (l : Option Json) : Option Json → Option Json
  | none => l
  | some w =>
    match l with
    | none => some w
    | some l => some (if quantities && sameAmount l w then l else imposedUnder (some k) l w)

theorem get?_imposedFields (quantities : Bool) (live : Object) {b : Option String}
    (wanted : Entries String Json b) (k : String) :
    (imposedFields quantities live wanted).get? k =
      imposedMember quantities k (live.get? k) (wanted.get? k) := by
  induction wanted generalizing live with
  | nil => rfl
  | cons j hj w rest ih =>
    rw [imposedFields, ih, SortedMap.get?_insert, Entries.get?_cons]
    by_cases e : k = j
    · rw [if_pos e, if_pos e, e, rest.get?_eq_none (not_after_self j)]
      show some _ = imposedMember quantities j (live.get? j) (some w)
      cases live.get? j <;> rfl
    · rw [if_neg e, if_neg e]

theorem imposedUnder_leaf {name : Option String} {l w : Json} (hobj : w.asObject? = none) :
    imposedUnder name l w = w := by
  cases w with
  | obj => cases hobj
  | _ => rfl

theorem imposedUnder_obj (name : Option String) (live : Json) (wanted : Object) :
    imposedUnder name live (obj wanted) = match live with
      | obj fields => obj (imposedFields (namesQuantities name) fields wanted)
      | _ => obj wanted := by
  cases live <;> simp only [imposedUnder]

theorem isObject_imposedUnder (name : Option String) (live : Json) {w : Json}
    (h : w.isObject = true) : (imposedUnder name live w).isObject = true := by
  obtain ⟨wanted, rfl⟩ := eq_obj_of_isObject h
  rw [imposedUnder_obj]
  cases live <;> rfl

theorem member?_imposedUnder (name : Option String) (live : Json) {w : Json}
    (h : w.isObject = true) (k : String) :
    (imposedUnder name live w).member? k =
      imposedMember (namesQuantities name) k (live.member? k) (w.member? k) := by
  obtain ⟨wanted, rfl⟩ := eq_obj_of_isObject h
  rw [imposedUnder_obj]
  cases live with
  | obj fields => exact get?_imposedFields _ fields wanted k
  | _ =>
    show wanted.get? k = imposedMember _ k none (wanted.get? k)
    cases wanted.get? k <;> rfl

/-! ## Patches -/

/-- A patch without null members stands where there was no object. -/
theorem patched_eq_self {target p : Json} (h : target.asObject? = none)
    (present : p.withoutNulls = true) : patched target p = p := by
  induction p using induction_members generalizing target with
  | leaf p _ hobj => exact patched_leaf hobj
  | arr items _ => exact patched_leaf rfl
  | obj fields ih =>
    rw [withoutNulls_obj_iff] at present
    rw [patched_obj, h]
    refine congrArg obj (Entries.ext fun k => ?_)
    rw [get?_patchedFields]
    cases there : fields.get? k with
    | none => rfl
    | some w =>
      obtain ⟨notNull, deeper⟩ := present k w there
      show (if w.isNull then none else some (patched null w)) = some w
      rw [notNull, ih k w there rfl deeper]
      rfl

/-- A member after a patch agrees with the one that is imposed, if the patch and what it holds are
not null. -/
theorem rel_patched_imposed {quantities : Bool} {k : String} (l w : Option Json)
    (present : ∀ v, w = some v → v.isNull = false ∧ v.withoutNulls = true)
    (ih : ∀ l v, w = some v → agrees (some k) (patched l v) (imposedUnder (some k) l v) = true) :
    Option.Rel (MemberAgrees quantities k) (patchedMember l w)
      (imposedMember quantities k l w) := by
  cases w with
  | none =>
    show Option.Rel _ l l
    cases l with
    | none => exact .none
    | some l => exact .some (memberAgrees_of_agrees (agrees_self _ l))
  | some v =>
    obtain ⟨notNull, deeper⟩ := present v rfl
    rw [patchedMember, notNull, if_neg Bool.false_ne_true]
    cases l with
    | none =>
      refine .some (memberAgrees_of_agrees ?_)
      rw [Option.getD_none, patched_eq_self rfl deeper]
      exact agrees_self _ v
    | some l =>
      refine .some ?_
      rw [Option.getD_some]
      by_cases amount : (quantities && sameAmount l v) = true
      · rw [if_pos amount]
        rw [Bool.and_eq_true] at amount
        obtain ⟨s, t, rfl, rfl, -⟩ := sameAmount_iff.1 amount.2
        rw [patched_leaf rfl]
        exact ⟨.inl ⟨amount.1, sameAmount_symm amount.2⟩, .inl amount⟩
      · rw [if_neg amount]
        exact memberAgrees_of_agrees (ih l v rfl)

/-- A patch without null members comes to what is imposed, up to the spelling of quantities. -/
theorem agrees_patched_imposed (name : Option String) (live : Json) {p : Json}
    (present : p.withoutNulls = true) :
    agrees name (live.patched p) (imposedUnder name live p) = true := by
  induction p using induction_members generalizing name live with
  | leaf p _ hobj =>
    rw [patched_leaf hobj, imposedUnder_leaf hobj]
    exact agrees_self name p
  | arr items _ =>
    rw [patched_leaf rfl, imposedUnder_leaf rfl]
    exact agrees_self name (arr items)
  | obj fields ih =>
    have whole := isObject_imposedUnder name live (w := obj fields) rfl
    obtain ⟨m, eq⟩ := eq_obj_of_isObject whole
    rw [patched_obj, eq]
    refine agrees_obj fun k => ?_
    have left := member?_patched live (p := obj fields) rfl k
    have right := member?_imposedUnder name live (w := obj fields) rfl k
    rw [patched_obj] at left
    rw [eq] at right
    rw [← member?_obj, ← member?_obj, left, right]
    rw [withoutNulls_obj_iff] at present
    exact rel_patched_imposed _ _ (present k) fun l v there =>
      ih k v there (some k) l (present k v there).2

/-! ## What a patch does not mention -/

/-- The document does not mention the path: it leads out of the objects of the document. -/
def omits : Json → List String → Bool
  | _, [] => false
  | j, k :: rest =>
    j.isObject && match j.member? k with
      | none => true
      | some v => v.omits rest

theorem omits_cons {j : Json} {k : String} {rest : List String}
    (h : j.omits (k :: rest) = true) :
    j.isObject = true ∧ ∀ v, j.member? k = some v → v.omits rest = true := by
  rw [omits, Bool.and_eq_true] at h
  refine ⟨h.1, fun v there => ?_⟩
  rw [there] at h
  exact h.2

/-- A member that does not mention what is deeper leaves it alone. -/
theorem bind_patchedMember {rest : List String} (l w : Option Json)
    (omitted : ∀ v, w = some v → v.omits rest = true)
    (ih : ∀ l v, w = some v → (patched l v).path? rest = l.path? rest) :
    (patchedMember l w).bind (·.path? rest) = l.bind (·.path? rest) := by
  cases w with
  | none => rfl
  | some v =>
    have omits := omitted v rfl
    cases rest with
    | nil => cases v <;> cases omits
    | cons k rest =>
      have object := (omits_cons omits).1
      rw [patchedMember, if_neg (Bool.eq_false_iff.1 (isNull_of_isObject object)),
        Option.bind_some, ih _ v rfl]
      cases l <;> rfl

theorem path?_patched_of_omits {p : Json} {path : List String} (h : p.omits path = true)
    (target : Json) : (target.patched p).path? path = target.path? path := by
  induction path generalizing p target with
  | nil => cases p <;> cases h
  | cons k rest ih =>
    obtain ⟨object, omitted⟩ := omits_cons h
    rw [path?_cons, path?_cons, member?_patched target object]
    exact bind_patchedMember _ _ omitted fun l v there => ih (omitted v there) l

end Json

end DesiredState
