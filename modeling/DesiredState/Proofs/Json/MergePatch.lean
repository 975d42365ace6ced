import DesiredState.Json.MergePatch
import DesiredState.Proofs.Json.Overlay

/-!
# What a merge patch leaves behind

A patch without null members is in its result as it stands: every member that it names has the
value that it gives, and lists are replaced as a whole. So the result covers the patch
(`covers_patched`), whatever the target was.
-/

namespace DesiredState.Json

/-! ## Look-ups in a patched object -/

/-- A member after a patch, which may name it or not. -/
def patchedMember (target : Option Json) : Option Json → Option Json
  | none => target
  | some p => if p.isNull then none else some (patched (target.getD null) p)

theorem get?_patchedFields (target : Object) {b : Option String} (patch : Entries String Json b)
    (k : String) :
    (patchedFields target patch).get? k = patchedMember (target.get? k) (patch.get? k) := by
  induction patch generalizing target with
  | nil => rfl
  | cons j hj p rest ih =>
    rw [patchedFields, ih, Entries.get?_cons]
    by_cases e : k = j
    · rw [if_pos e, e, rest.get?_eq_none (not_after_self j)]
      show Entries.get? _ j = if p.isNull then none else some _
      by_cases isNull : p.isNull = true
      · rw [if_pos isNull, if_pos isNull, Entries.get?_erase, if_pos rfl]
      · rw [if_neg isNull, if_neg isNull, SortedMap.get?_insert, if_pos rfl]
    · rw [if_neg e]
      have kept : ∀ m : Object, m = (if p.isNull then target.erase j else
          SortedMap.insert target j (patched ((target.get? j).getD null) p)) →
          m.get? k = target.get? k := by
        rintro m rfl
        split
        · rw [Entries.get?_erase, if_neg e]
        · rw [SortedMap.get?_insert, if_neg e]
      rw [kept _ rfl]

theorem patched_obj (target : Json) (patch : Object) :
    patched target (obj patch) =
      obj (patchedFields (target.asObject?.getD SortedMap.empty) patch) := by
  rw [patched]

theorem isObject_patched (target : Json) {p : Json} (h : p.isObject = true) :
    (target.patched p).isObject = true := by
  obtain ⟨patch, rfl⟩ := eq_obj_of_isObject h
  rw [patched_obj]
  rfl

theorem member?_patched (target : Json) {p : Json} (h : p.isObject = true) (k : String) :
    (target.patched p).member? k = patchedMember (target.member? k) (p.member? k) := by
  obtain ⟨patch, rfl⟩ := eq_obj_of_isObject h
  rw [patched_obj, member?_obj, get?_patchedFields]
  cases target <;> rfl

theorem patched_leaf {target p : Json} (h : p.asObject? = none) : patched target p = p := by
  cases p with
  | obj => cases h
  | _ => rfl

/-! ## Documents without null members -/

mutual

/-- No member is null, at any depth that no list leads to. -/
def withoutNulls : Json → Bool
  | obj fields => fieldsWithoutNulls fields
  | _ => true

def fieldsWithoutNulls : {b : Option String} → Entries String Json b → Bool
  | _, .nil => true
  | _, .cons _ _ v rest => !v.isNull && withoutNulls v && fieldsWithoutNulls rest

end

theorem fieldsWithoutNulls_iff {b : Option String} (m : Entries String Json b) :
    fieldsWithoutNulls m = true ↔
      ∀ k v, m.get? k = some v → v.isNull = false ∧ v.withoutNulls = true := by
  induction m with
  | nil => simp [fieldsWithoutNulls]
  | cons j hj v rest ih =>
    rw [fieldsWithoutNulls, Bool.and_eq_true, Bool.and_eq_true, ih, Bool.not_eq_true',
      Entries.forall_get?_cons]

theorem withoutNulls_obj_iff {fields : Object} :
    (obj fields).withoutNulls = true ↔
      ∀ k v, fields.get? k = some v → v.isNull = false ∧ v.withoutNulls = true := by
  rw [withoutNulls]
  exact fieldsWithoutNulls_iff fields

theorem withoutNulls_object {members : List (String × Json)}
    (present : ∀ e ∈ members, e.2.isNull = false ∧ e.2.withoutNulls = true) :
    (object members).withoutNulls = true :=
  withoutNulls_obj_iff.2 fun _ _ found => present _ (SortedMap.mem_of_get?_ofList found)

/-- What a patch without null members asks for is there afterwards. -/
theorem covers_patched (name : Option String) (target : Json) {p : Json}
    (h : p.withoutNulls = true) : covers name (patched target p) p = true := by
  induction p using induction_members generalizing name target with
  | leaf p _ hobj => rw [patched_leaf hobj]; exact covers_self name p
  | arr items _ => rw [patched_leaf rfl]; exact covers_self name (arr items)
  | obj fields ih =>
    rw [withoutNulls_obj_iff] at h
    rw [patched_obj, covers_obj_iff]
    intro k w hw
    obtain ⟨present, deeper⟩ := h k w hw
    have there : (patchedFields (target.asObject?.getD SortedMap.empty) fields).get? k =
        some (patched (((target.asObject?.getD SortedMap.empty).get? k).getD null) w) := by
      rw [get?_patchedFields, hw]
      exact if_neg (Bool.eq_false_iff.1 present)
    exact ⟨_, there, .inr (ih k w hw (some k) _ deeper)⟩

end DesiredState.Json
