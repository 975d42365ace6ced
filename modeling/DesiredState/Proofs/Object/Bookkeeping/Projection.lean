import DesiredState.Plan
import DesiredState.Proofs.Object.Bookkeeping

/-!
# Stripping as a projection

An object that was stripped has nothing left to strip (`strip_strip`). Stripping changes the members
of an object one by one (`member?_strip`), so this comes down to the edits of the members: names
that were taken out are not there any more, in lists and in members of members as well. Together
with `strip_overlay`, drift is the same whether both objects are stripped before one is laid over
the other or after (`strip_projection`).
-/

namespace DesiredState

open Json

namespace Bookkeeping

/-! ## Edits that absorb -/

theorem member?_eraseAll (names : List String) (j : Json) (k : String) :
    (eraseAll names j).member? k = if k ∈ names then none else j.member? k := by
  induction names generalizing j with
  | nil => rfl
  | cons name rest ih =>
    show (eraseAll rest (j.eraseMember name)).member? k = _
    rw [ih, member?_eraseMember]
    by_cases here : k = name <;> by_cases later : k ∈ rest <;> simp [here, later]

/-- Doing the edit again changes nothing. -/
def Absorbs (f : Json → Json) : Prop := ∀ j, f (f j) = f j

namespace Absorbs

theorem id : Absorbs id := fun _ => rfl

/-- An edit of objects settles if what it does to every look-up does. -/
theorem ofMembers {f : Json → Json} {g : String → Option Json → Option Json}
    (others : ∀ j, j.isObject = false → f j = j) (objects : ∀ m, (f (obj m)).isObject = true)
    (look : ∀ j k, (f j).member? k = g k (j.member? k)) (again : ∀ k v, g k (g k v) = g k v) :
    Absorbs f := by
  intro j
  by_cases object : j.isObject = true
  · obtain ⟨m, rfl⟩ := eq_obj_of_isObject object
    obtain ⟨n, eq⟩ := eq_obj_of_isObject (objects m)
    refine eq_of_members (eq ▸ objects n) (objects m) fun k => ?_
    rw [look, look, again]
  · have same := others j (Bool.eq_false_iff.2 object)
    rw [same, same]

theorem map {f : Json → Json} (hf : Absorbs f) (v : Option Json) :
    (v.map f).map f = v.map f := by
  cases v with
  | none => rfl
  | some j => exact congrArg some (hf j)

theorem eraseAll (names : List String) : Absorbs (eraseAll names) := by
  refine ofMembers (g := fun k v => if k ∈ names then none else v) ?_ ?_ ?_ ?_
  · intro j other
    unfold Bookkeeping.eraseAll
    induction names with
    | nil => rfl
    | cons name rest ih => cases j <;> first | exact ih | cases other
  · intro m
    rw [eraseAll_obj]
    rfl
  · intro j k
    exact member?_eraseAll names j k
  · intro k v
    split <;> rfl

theorem mapMember {f : Json → Json} (hf : Absorbs f) (name : String) :
    Absorbs (mapMember name f) := by
  refine ofMembers (g := fun k v => if k = name then v.map f else v) ?_ ?_ ?_ ?_
  · intro j other
    cases j <;> first | rfl | cases other
  · intro m
    rfl
  · intro j k
    rw [member?_mapMember]
    split
    · rename_i e
      rw [e]
    · rfl
  · intro k v
    split
    · exact hf.map v
    · rfl

theorem mapItems {f : Json → Json} (hf : Absorbs f) : Absorbs (mapItems f) := by
  intro j
  cases j with
  | arr items =>
    show arr ((items.map f).map f) = arr (items.map f)
    rw [List.map_map]
    exact congrArg arr (List.map_congr_left fun j _ => hf j)
  | _ => rfl

end Absorbs

/-! ## Stripping, member by member -/

/-- What stripping does to the `spec` of an object of a kind. -/
def stripSpec (kind : String) : Json → Json :=
  if kind = "StatefulSet" then
    mapMember "volumeClaimTemplates" (mapItems (eraseAll claimTemplateNames))
  else if kind = "PodDisruptionBudget" then eraseAll ["selector"]
  else id

theorem settles_stripSpec (kind : String) : Absorbs (stripSpec kind) := by
  unfold stripSpec
  split
  · exact ((Absorbs.eraseAll claimTemplateNames).mapItems).mapMember "volumeClaimTemplates"
  · split
    · exact Absorbs.eraseAll ["selector"]
    · exact Absorbs.id

/-- What stripping does to the member under a name. -/
def stripMember (kind name : String) (v : Option Json) : Option Json :=
  if name = "status" then none
  else if name = "metadata" then v.map (eraseAll metadataNames)
  else if name = "spec" then v.map (stripSpec kind)
  else v

theorem member?_stripKind_spec (kind : String) (j : Json) :
    (stripKind kind j).member? "spec" = (j.member? "spec").map (stripSpec kind) := by
  unfold stripKind stripSpec
  split
  · rw [member?_mapMember, if_pos rfl]
  · split
    · rw [member?_mapMember, if_pos rfl]
      rfl
    · rw [Option.map_id, id]

theorem member?_strip (kind : String) (j : Json) (k : String) :
    (strip kind j).member? k = stripMember kind k (j.member? k) := by
  show (stripKind kind (bare j)).member? k = _
  unfold stripMember
  by_cases status : k = "status"
  · rw [if_pos status, member?_stripKind kind _ (by rw [status]; decide), status,
      member?_bare_status]
  · rw [if_neg status]
    by_cases metadata : k = "metadata"
    · rw [if_pos metadata, metadata, member?_stripKind kind _ (by decide), bare,
        member?_eraseMember, if_neg (by decide), member?_mapMember, if_pos rfl]
    · rw [if_neg metadata]
      by_cases spec : k = "spec"
      · rw [if_pos spec, spec, member?_stripKind_spec, member?_bare j (by decide) (by decide)]
      · rw [if_neg spec, member?_stripKind kind _ spec, member?_bare j metadata status]

/-- An object that was stripped has nothing left to strip. -/
theorem strip_strip (kind : String) : Absorbs (strip kind) := by
  refine Absorbs.ofMembers ?_ ?_ (member?_strip kind) ?_
  · intro j other
    unfold strip stripKind
    cases j with
    | obj => cases other
    | _ => split <;> [rfl; split <;> rfl]
  · intro m
    unfold strip stripKind
    split <;> [rfl; split <;> rfl]
  · intro k v
    unfold stripMember
    split
    · rfl
    · split
      · exact (Absorbs.eraseAll metadataNames).map v
      · split
        · exact (settles_stripSpec kind).map v
        · rfl

/-- Stripping is a projection that laying over respects, so drift is that of the stripped objects:
whether the bookkeeping is left out before or after, no drift is hidden and none is made up. -/
theorem strip_projection (kind : String) (live wanted : Json) :
    strip kind (live.overlay wanted) = (strip kind live).overlay (strip kind wanted) ∧
      strip kind (strip kind live) = strip kind live ∧
      Plan.drift kind wanted live = Plan.drift kind (strip kind wanted) (strip kind live) ∧
      Plan.drift kind wanted live =
        ((strip kind live).overlay (strip kind wanted)).difference (strip kind live) := by
  have again := strip_strip kind
  refine ⟨strip_overlay kind live wanted, again live, ?_, ?_⟩
  · rw [Plan.drift, Plan.drift, strip_overlay, strip_overlay, again wanted, again live]
  · rw [Plan.drift, strip_overlay]

end Bookkeeping

end DesiredState
