import DesiredState.Json.Difference
import DesiredState.Proofs.Json.Members

/-!
# When nothing differs

Counting the differences of two documents ends in nothing exactly if they are equal as values
(`isEmpty_difference`).
-/

namespace DesiredState

namespace Difference

theorem isEmpty_iff {d : Difference} :
    d.isEmpty = true ↔ d.added = 0 ∧ d.updated = 0 ∧ d.removed = 0 := by
  rw [isEmpty, beq_iff_eq]
  omega

theorem isEmpty_add (a b : Difference) : (a + b).isEmpty = (a.isEmpty && b.isEmpty) := by
  rw [Bool.eq_iff_iff, Bool.and_eq_true, isEmpty_iff, isEmpty_iff, isEmpty_iff]
  show a.added + b.added = 0 ∧ a.updated + b.updated = 0 ∧ a.removed + b.removed = 0 ↔ _
  omega

theorem missingFrom_eq_zero_iff (others : Object) {b : Option String}
    (fields : Entries String Json b) :
    missingFrom others fields = 0 ↔
      ∀ k, (fields.get? k).isSome = true → (others.get? k).isSome = true := by
  induction fields with
  | nil => simp [missingFrom]
  | cons j hj v rest ih =>
    rw [missingFrom, Nat.add_eq_zero_iff, ih]
    have first : (if others.contains j then 0 else 1) = 0 ↔ (others.get? j).isSome = true := by
      unfold Entries.contains
      split <;> simp_all
    rw [first]
    constructor
    · rintro ⟨here, others⟩ k h
      by_cases e : k = j
      · exact e ▸ here
      · rw [Entries.get?_cons, if_neg e] at h
        exact others k h
    · intro all
      refine ⟨all j (by rw [Entries.get?_cons, if_pos rfl]; rfl), fun k h => all k ?_⟩
      rw [Entries.get?_cons]
      split
      · rfl
      · exact h

theorem differingItems_eq_zero_iff {xs ys : List Json} (length : xs.length = ys.length) :
    differingItems xs ys = 0 ↔ List.Forall₂ (fun x y => x.same y = true) xs ys := by
  induction xs generalizing ys with
  | nil =>
    cases ys with
    | nil => simp [differingItems]
    | cons => cases length
  | cons x xs ih =>
    cases ys with
    | nil => cases length
    | cons y ys =>
      have step : differingItems (x :: xs) (y :: ys) =
          (if x.same y then 0 else 1) + differingItems xs ys := by
        unfold differingItems
        rw [List.zip_cons_cons, List.filter_cons]
        by_cases e : x.same y = true <;> simp [e, Nat.add_comm]
      rw [step, Nat.add_eq_zero_iff, ih (Nat.succ.inj length), List.forall₂_cons]
      by_cases e : x.same y = true <;> simp [e]

end Difference

namespace Json

/-- What has to change in a member of the other document, if it is there. -/
def memberDifference (v : Json) : Option Json → Difference
  | none => ⟨1, 0, 0⟩
  | some w => if v.same w then .zero else difference v w

theorem isEmpty_memberDifference {v : Json} {other : Option Json}
    (ih : ∀ w, (difference v w).isEmpty = v.same w) :
    (memberDifference v other).isEmpty = true ↔ ∃ w, other = some w ∧ v.same w = true := by
  cases other with
  | none => simp [memberDifference, Difference.isEmpty]
  | some w =>
    rw [memberDifference]
    by_cases e : v.same w = true
    · simp [e, Difference.isEmpty, Difference.zero]
    · simp [e, ih w]

theorem differenceFields_cons (others : Object) {b : Option String} (j : String) (hj : After b j)
    (v : Json) (rest : Entries String Json (some j)) :
    differenceFields others (.cons j hj v rest) =
      memberDifference v (others.get? j) + differenceFields others rest := by
  rw [differenceFields]
  cases others.get? j <;> rfl

theorem isEmpty_differenceFields {others : Object} {b : Option String}
    {fields : Entries String Json b}
    (ih : ∀ k v, fields.get? k = some v → ∀ w, (difference v w).isEmpty = v.same w) :
    (differenceFields others fields).isEmpty = true ↔
      ∀ k v, fields.get? k = some v → ∃ w, others.get? k = some w ∧ v.same w = true := by
  induction fields with
  | nil => simp [differenceFields, Difference.isEmpty, Difference.zero]
  | cons j hj v rest step =>
    obtain ⟨here, later⟩ := Entries.forall_get?_cons.1 ih
    rw [differenceFields_cons, Difference.isEmpty_add, Bool.and_eq_true,
      isEmpty_memberDifference here, step later, Entries.forall_get?_cons]

/-- Two documents differ in nothing exactly if they are equal as values. -/
theorem isEmpty_difference (target base : Json) :
    (difference target base).isEmpty = target.same base := by
  induction target using induction_members generalizing base with
  | leaf target harr hobj =>
    have : difference target base = if target.same base then .zero else ⟨0, 1, 0⟩ := by
      cases target with
      | arr => cases harr
      | obj => cases hobj
      | _ => cases base <;> rfl
    rw [this]
    by_cases e : target.same base = true <;> simp [e, Difference.isEmpty, Difference.zero]
  | arr items _ =>
    cases base with
    | arr others =>
      rw [Bool.eq_iff_iff, same_arr_iff, difference, Difference.isEmpty_iff]
      constructor
      · rintro ⟨added, updated, removed⟩
        dsimp only at added updated removed
        exact (Difference.differingItems_eq_zero_iff (by omega)).1 updated
      · intro all
        have length := all.length_eq
        exact ⟨by simp [length], (Difference.differingItems_eq_zero_iff length).2 all,
          by simp [length]⟩
    | _ => rfl
  | obj fields ih =>
    cases base with
    | obj others =>
      have gone : (⟨0, 0, Difference.missingFrom fields others⟩ : Difference).isEmpty = true ↔
          ∀ k, (others.get? k).isSome = true → (fields.get? k).isSome = true := by
        rw [← Difference.missingFrom_eq_zero_iff, Difference.isEmpty_iff]
        simp
      rw [Bool.eq_iff_iff, same_obj_iff, difference, Difference.isEmpty_add, Bool.and_eq_true,
        isEmpty_differenceFields ih, gone, forall_rel_iff]
    | _ => rfl

end Json

end DesiredState
