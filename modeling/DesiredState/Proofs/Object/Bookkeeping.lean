import DesiredState.Object.Bookkeeping
import DesiredState.Proofs.Json.MergePatch
import DesiredState.Proofs.Object.Metadata
import Mathlib.Tactic.Common

/-!
# Stripping and laying over

What the server keeps for itself can be left out before or after a wanted document is laid over a
live one (`strip_overlay`). A live object that has every wanted member apart from the bookkeeping
covers the wanted one once both are stripped (`Upholds.covers_strip`).

An edit *respects* laying over if it commutes with it and keeps equal values equal. Taking a
member out, changing a member and changing the items of a list are such edits, and stripping is
composed of these.
-/

namespace DesiredState.Json

/-! ## Edits that respect laying over -/

/-- An edit of the documents found under a name that can be made before one is laid over another,
and that keeps equal values equal. -/
structure Respects (name : Option String) (f : Json → Json) : Prop where
  overlay : ∀ l w, f (overlayUnder name l w) = overlayUnder name (f l) (f w)
  same : ∀ a b, a.same b = true → (f a).same (f b) = true

namespace Respects

variable {name : Option String} {f : Json → Json}

theorem id : Respects name id := ⟨fun _ _ => rfl, fun _ _ h => h⟩

theorem comp {g : Json → Json} (hg : Respects name g) (hf : Respects name f) :
    Respects name (g ∘ f) where
  overlay l w := by
    show g (f _) = overlayUnder name (g (f l)) (g (f w))
    rw [hf.overlay, hg.overlay]
  same a b h := hg.same _ _ (hf.same a b h)

/-- What is covered still is after such an edit of both documents. -/
theorem covers (hf : Respects name f) {l w : Json} (h : covers name l w = true) :
    Json.covers name (f l) (f w) = true := by
  rw [← overlay_same_iff] at h ⊢
  rw [← hf.overlay]
  exact hf.same _ _ h

/-- An edit of objects that changes one look-up alone. -/
theorem ofMember {k : String} {f : Object → Object} {g : Option Json → Option Json}
    (look : ∀ (fields : Object) (j : String),
      (f fields).get? j = if j = k then g (fields.get? k) else fields.get? j)
    (overlay : ∀ l w, g (laid (namesQuantities name) k l w) =
      laid (namesQuantities name) k (g l) (g w))
    (same : ∀ a b, Option.Rel (fun v w => v.same w = true) a b →
      Option.Rel (fun v w => v.same w = true) (g a) (g b)) :
    Respects name (mapObject f) where
  overlay l w := by
    cases w with
    | obj wanted =>
      cases l with
      | obj live =>
        rw [mapObject, mapObject, overlayUnder_obj, overlayUnder_obj, mapObject]
        refine congrArg obj (Entries.ext fun j => ?_)
        rw [look, get?_overlayFields, get?_overlayFields, get?_overlayFields, look, look]
        by_cases e : j = k
        · rw [if_pos e, if_pos e, if_pos e, e]
          exact overlay _ _
        · rw [if_neg e, if_neg e, if_neg e]
      | _ => rfl
    | _ => cases l <;> rfl
  same a b h := by
    cases a with
    | obj m =>
      cases b with
      | obj n =>
        rw [same_obj_iff] at h
        rw [mapObject, mapObject, same_obj_iff]
        intro j
        rw [look, look]
        by_cases e : j = k
        · rw [if_pos e, if_pos e]
          exact same _ _ (h k)
        · rw [if_neg e, if_neg e]
          exact h j
      | _ => simp [Json.same] at h
    | _ =>
      cases b with
      | obj => simp [Json.same] at h
      | _ => exact h

theorem eraseMember (k : String) : Respects name (Json.eraseMember k) :=
  ofMember (g := fun _ => none) (fun fields j => Entries.get?_erase fields k j)
    (fun _ _ => rfl) (fun _ _ _ => .none)

theorem mapMember {k : String} (plain : namesQuantities name = false)
    (hf : Respects (some k) f) : Respects name (Json.mapMember k f) := by
  refine ofMember (k := k) (g := Option.map f) (fun fields j => ?_) (fun l w => ?_)
    (fun a b h => ?_)
  · exact member?_mapMember (obj fields) k f j
  · rw [plain]
    cases w with
    | none => rfl
    | some w =>
      cases l with
      | none => rfl
      | some l => exact congrArg some (hf.overlay l w)
  · cases h with
    | none => exact .none
    | some h => exact .some (hf.same _ _ h)

open Bookkeeping

theorem eraseAll (names : List String) : Respects name (eraseAll names) := by
  induction names with
  | nil => exact id
  | cons k rest ih => exact ih.comp (eraseMember k)

theorem mapItems (hf : Respects name f) : Respects name (mapItems f) where
  overlay l w := by
    cases w with
    | arr ws =>
      cases l with
      | arr ls =>
        show arr ((overlayItems name ls ws).map f) = arr (overlayItems name (ls.map f) (ws.map f))
        congr 1
        induction ws generalizing ls with
        | nil => cases ls <;> rfl
        | cons w ws ih =>
          cases ls with
          | nil => exact congrArg (f w :: ·) (ih [])
          | cons l ls =>
            rw [overlayItems_cons, List.map_cons, hf.overlay, ih]
            rfl
      | _ => rfl
    | _ => cases l <;> rfl
  same a b h := by
    cases a with
    | arr xs =>
      cases b with
      | arr ys =>
        rw [same_arr_iff] at h
        show (arr (xs.map f)).same (arr (ys.map f)) = true
        rw [same_arr_iff, List.forall₂_map_left_iff, List.forall₂_map_right_iff]
        exact h.imp fun x y => hf.same x y
      | _ => simp [Json.same] at h
    | _ =>
      cases b with
      | arr => simp [Json.same] at h
      | _ => exact h

theorem stripKind (kind : String) : Respects none (stripKind kind) := by
  unfold Bookkeeping.stripKind
  split
  · exact mapMember rfl (mapMember rfl (mapItems (eraseAll _)))
  · split
    · exact mapMember rfl (eraseMember _)
    · exact id

theorem strip (kind : String) : Respects none (strip kind) :=
  (stripKind kind).comp ((eraseMember "status").comp (mapMember rfl (eraseAll metadataNames)))

end Respects

end DesiredState.Json

namespace DesiredState

open Json

namespace Bookkeeping

/-- What the server keeps can be left out before one object is laid over another. -/
theorem strip_overlay (kind : String) (live wanted : Json) :
    strip kind (live.overlay wanted) = (strip kind live).overlay (strip kind wanted) :=
  (Respects.strip kind).overlay live wanted

/-- A name in metadata that is not stripped. -/
theorem not_mem_metadataNames {k : String} :
    k ∉ metadataNames ↔ k ≠ "managedFields" ∧ k ≠ "resourceVersion" ∧ k ≠ "generation" ∧
      k ≠ "creationTimestamp" := by
  simp only [metadataNames, List.mem_cons, List.not_mem_nil, or_false, not_or]

/-! ## Coverage member by member -/

/-- The object without what the server keeps in objects of every kind. -/
def bare (j : Json) : Json := (j.mapMember "metadata" (eraseAll metadataNames)).eraseMember "status"

theorem eraseAll_obj (names : List String) (m : Object) :
    eraseAll names (obj m) = obj (names.foldl Entries.erase m) := by
  induction names generalizing m with
  | nil => rfl
  | cons name rest ih => exact ih (m.erase name)

theorem member?_bare (j : Json) {k : String} (metadata : k ≠ "metadata") (status : k ≠ "status") :
    (bare j).member? k = j.member? k := by
  rw [bare, member?_eraseMember, if_neg status, member?_mapMetadata _ metadata]

theorem member?_bare_status (j : Json) : (bare j).member? "status" = none := by
  rw [bare, member?_eraseMember, if_pos rfl]

theorem metadata_bare {j : Json} (h : j.hasMetadata = true) :
    (bare j).hasMetadata = true ∧
      (bare j).metadataFields = metadataNames.foldl Entries.erase j.metadataFields := by
  obtain ⟨there, fields⟩ := metadata_mapMember (eraseAll_obj metadataNames) h
  obtain ⟨there', fields'⟩ := metadata_eraseMember (by decide : "status" ≠ "metadata") there
  exact ⟨there', fields'.trans fields⟩

theorem member?_stripKind (kind : String) (j : Json) {k : String} (ne : k ≠ "spec") :
    (stripKind kind j).member? k = j.member? k := by
  unfold stripKind
  split
  · rw [member?_mapMember, if_neg ne]
  · split
    · rw [member?_mapMember, if_neg ne]
    · rfl

/-- The metadata that are no bookkeeping are not stripped, whatever the metadata are. -/
theorem path?_metadata_strip (kind : String) (j : Json) {k : String} (free : k ∉ metadataNames) :
    (strip kind j).path? ["metadata", k] = j.path? ["metadata", k] := by
  have kept (m : Json) : (eraseAll metadataNames m).member? k = m.member? k := by
    cases m with
    | obj fields =>
      rw [eraseAll_obj, member?_obj, Entries.get?_foldl_erase, if_neg free, member?_obj]
    | _ => rfl
  have metadata : (strip kind j).member? "metadata" =
      (j.member? "metadata").map (eraseAll metadataNames) := by
    rw [strip, member?_stripKind kind _ (by decide), member?_eraseMember, if_neg (by decide),
      member?_mapMember, if_pos rfl]
  rw [path?_cons, path?_cons, metadata, Option.bind_map]
  refine congrArg ((j.member? "metadata").bind ·) (funext fun m => ?_)
  show ((eraseAll metadataNames m).member? k).bind _ = _
  rw [kept, path?_cons]

/-- No uid is stated, and nothing but bookkeeping is null, at any depth that no list leads to. -/
def isPlain (body : Json) : Bool :=
  (bare body).withoutNulls && (body.path? ["metadata", "uid"]).isNone

/-- A plain object with metadata, member by member. -/
structure Plain (body : Json) : Prop where
  hasMetadata : body.hasMetadata = true
  members : ∀ k w, k ≠ "metadata" → k ≠ "status" → body.member? k = some w →
    w.isNull = false ∧ w.withoutNulls = true
  metadata : ∀ k w, k ∉ metadataNames → body.metadataFields.get? k = some w →
    w.isNull = false ∧ w.withoutNulls = true
  uid : body.metadataFields.get? "uid" = none

theorem Plain.ofIsPlain {body : Json} (h : body.hasMetadata = true) (plain : isPlain body = true) :
    Plain body := by
  rw [isPlain, Bool.and_eq_true, Option.isNone_iff_eq_none, path?_metadata] at plain
  obtain ⟨present, uid⟩ := plain
  obtain ⟨there, fields⟩ := metadata_bare h
  have deep : ∀ k w, (bare body).member? k = some w → w.isNull = false ∧ w.withoutNulls = true := by
    obtain ⟨m, eq⟩ := eq_obj_of_isObject (isObject_of_hasMetadata there)
    rw [eq] at present ⊢
    exact withoutNulls_obj_iff.1 present
  refine ⟨h, fun k w metadata status hk => deep k w ?_, fun k w noisy hk => ?_, uid⟩
  · rw [member?_bare _ metadata status, hk]
  · have inner := (deep _ _ (member?_metadata there)).2
    refine withoutNulls_obj_iff.1 inner k w ?_
    rw [fields, Entries.get?_foldl_erase, if_neg noisy, hk]

/-- Every wanted member that is not bookkeeping is live, one by one. -/
structure Upholds (live wanted : Json) : Prop where
  members : ∀ k w, k ≠ "metadata" → k ≠ "status" → wanted.member? k = some w →
    ∃ l, live.member? k = some l ∧ covers (some k) l w = true
  metadata : ∀ k w, k ∉ metadataNames → wanted.metadataFields.get? k = some w →
    ∃ l, live.metadataFields.get? k = some l ∧ covers (some k) l w = true

/-- Only what is not bookkeeping matters in the live object. -/
theorem Upholds.congr {live live' wanted : Json} (h : Upholds live wanted)
    (members : ∀ k, k ≠ "metadata" → k ≠ "status" → live'.member? k = live.member? k)
    (metadata : ∀ k, k ∉ metadataNames →
      live'.metadataFields.get? k = live.metadataFields.get? k) : Upholds live' wanted where
  members k w ne ne' hk := by
    rw [members k ne ne']
    exact h.members k w ne ne' hk
  metadata k w noisy hk := by
    rw [metadata k noisy]
    exact h.metadata k w noisy hk

/-- An object that upholds a wanted one covers it, bookkeeping aside. -/
theorem Upholds.covers_strip {live wanted : Json} (h : Upholds live wanted)
    (hl : live.hasMetadata = true) (hw : wanted.hasMetadata = true) (kind : String) :
    covers none (strip kind live) (strip kind wanted) = true := by
  refine (Respects.stripKind kind).covers (?_ : covers none (bare live) (bare wanted) = true)
  obtain ⟨thereL, fieldsL⟩ := metadata_bare hl
  obtain ⟨thereW, fieldsW⟩ := metadata_bare hw
  rw [covers_iff (isObject_of_hasMetadata thereL) (isObject_of_hasMetadata thereW)]
  intro k w hk
  by_cases status : k = "status"
  · rw [status, member?_bare_status] at hk
    cases hk
  · by_cases metadata : k = "metadata"
    · subst metadata
      rw [member?_metadata thereW] at hk
      obtain rfl := Option.some.inj hk
      refine ⟨_, member?_metadata thereL, .inr ?_⟩
      rw [covers_obj_iff, fieldsL, fieldsW]
      intro name v hv
      rw [Entries.get?_foldl_erase] at hv ⊢
      split at hv
      · cases hv
      · rename_i noisy
        rw [if_neg noisy]
        obtain ⟨l, hl, covered⟩ := h.metadata name v noisy hv
        exact ⟨l, hl, .inr covered⟩
    · rw [member?_bare _ metadata status] at hk ⊢
      obtain ⟨l, hl, covered⟩ := h.members k w metadata status hk
      exact ⟨l, hl, .inr covered⟩

end Bookkeeping

end DesiredState
