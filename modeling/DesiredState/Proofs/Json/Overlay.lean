import DesiredState.Json.Overlay
import DesiredState.Proofs.Json.Members

/-!
# What a laid-over document holds

`covers` says that a live document holds all that a wanted one asks for: every wanted member is
there, lists have the wanted length, and a quantity may be spelled in another way. Coverage is
passed on (`covers_trans`). The main statement is `overlay_same_iff`: laying a document over one
that covers it changes nothing, and over any other it does.
-/

namespace DesiredState

namespace Quantity

theorem same_iff {a b : String} :
    same a b = true ↔ a = b ∨ ∃ n, nanos? a = some n ∧ nanos? b = some n := by
  by_cases alike : a = b
  · exact iff_of_true (alike ▸ same_self a) (.inl alike)
  rw [same, comparison, if_neg alike, or_iff_right alike, nanos?, nanos?]
  obtain ⟨first, -⟩ := (reading a).run
  obtain ⟨second, -⟩ := (reading b).run
  cases first with
  | none => simp
  | some x =>
    cases second with
    | none => simp
    | some y => simpa using eq_comm

theorem same_trans {a b c : String} (h : same a b = true) (h' : same b c = true) :
    same a c = true := by
  rw [same_iff] at h h' ⊢
  obtain rfl | ⟨n, first, second⟩ := h
  · exact h'
  · obtain rfl | ⟨n', second', third⟩ := h'
    · exact .inr ⟨n, first, second⟩
    · rw [second] at second'
      exact .inr ⟨n, first, Option.some.inj second' ▸ third⟩

end Quantity

namespace Json

/-! ## Coverage -/

/-- The objects under this name map resource names to quantities. -/
def namesQuantities (name : Option String) : Bool := name.any Quantity.mapNames.contains

mutual

/-- The live document, found under `name`, holds all that the wanted one asks for. -/
def covers (name : Option String) (live : Json) : Json → Bool
  | obj wanted =>
    match live with
    | obj fields => coversFields (namesQuantities name) fields wanted
    | _ => false
  | arr wanted =>
    match live with
    | arr items => coversItems name items wanted
    | _ => false
  | wanted => live.same wanted

def coversItems (name : Option String) : List Json → List Json → Bool
  | [], [] => true
  | l :: ls, w :: ws => covers name l w && coversItems name ls ws
  | _, _ => false

/-- Every wanted member is among the live ones, a quantity with its amount at least. -/
def coversFields (quantities : Bool) (live : Object) :
    {b : Option String} → Entries String Json b → Bool
  | _, .nil => true
  | _, .cons k _ w rest =>
    (match live.get? k with
      | none => false
      | some l => quantities && sameAmount l w || covers (some k) l w) &&
    coversFields quantities live rest

end

/-- A live member is as wanted under its name. -/
def MemberCovers (quantities : Bool) (k : String) (l w : Json) : Prop :=
  quantities = true ∧ sameAmount l w = true ∨ covers (some k) l w = true

theorem coversItems_iff (name : Option String) (ls ws : List Json) :
    coversItems name ls ws = true ↔ List.Forall₂ (fun l w => covers name l w = true) ls ws := by
  induction ls generalizing ws with
  | nil => cases ws <;> simp [coversItems, List.forall₂_nil_left_iff]
  | cons l ls ih => cases ws <;> simp [coversItems, ih, List.forall₂_nil_right_iff]

theorem coversFields_iff (quantities : Bool) (live : Object) {b : Option String}
    (wanted : Entries String Json b) :
    coversFields quantities live wanted = true ↔
      ∀ k w, wanted.get? k = some w →
        ∃ l, live.get? k = some l ∧ MemberCovers quantities k l w := by
  induction wanted with
  | nil => simp [coversFields]
  | cons j hj v rest ih =>
    rw [coversFields, Bool.and_eq_true, ih, Entries.forall_get?_cons]
    refine and_congr_left' ?_
    cases live.get? j <;> simp [MemberCovers]

theorem covers_obj_iff {name : Option String} {live wanted : Object} :
    covers name (obj live) (obj wanted) = true ↔
      ∀ k w, wanted.get? k = some w →
        ∃ l, live.get? k = some l ∧ MemberCovers (namesQuantities name) k l w := by
  rw [covers]
  exact coversFields_iff _ live wanted

theorem covers_iff {name : Option String} {live wanted : Json} (hl : live.isObject = true)
    (hw : wanted.isObject = true) :
    covers name live wanted = true ↔
      ∀ k w, wanted.member? k = some w →
        ∃ l, live.member? k = some l ∧ MemberCovers (namesQuantities name) k l w := by
  obtain ⟨fields, rfl⟩ := eq_obj_of_isObject hl
  obtain ⟨others, rfl⟩ := eq_obj_of_isObject hw
  exact covers_obj_iff

theorem covers_arr_iff {name : Option String} {ls ws : List Json} :
    covers name (arr ls) (arr ws) = true ↔
      List.Forall₂ (fun l w => covers name l w = true) ls ws := by
  rw [covers]
  exact coversItems_iff name ls ws

theorem covers_leaf {name : Option String} {l w : Json} (harr : w.asArray? = none)
    (hobj : w.asObject? = none) : covers name l w = l.same w := by
  cases w with
  | arr => cases harr
  | obj => cases hobj
  | _ => rfl

/-- Where no quantities are named, a live member covers the wanted one of the same name. -/
theorem covers_member {name : Option String} (plain : namesQuantities name = false) {l w v : Json}
    (h : covers name l w = true) {k : String} (there : w.member? k = some v) :
    ∃ u, l.member? k = some u ∧ covers (some k) u v = true := by
  cases w with
  | obj wanted =>
    cases l with
    | obj live =>
      obtain ⟨u, there', covered⟩ := covers_obj_iff.1 h k v there
      refine ⟨u, there', covered.resolve_left fun amount => ?_⟩
      rw [plain] at amount
      cases amount.1
    | _ => simp [covers] at h
  | _ => cases there

theorem sameAmount_iff {l w : Json} :
    sameAmount l w = true ↔ ∃ s t, l = str s ∧ w = str t ∧ Quantity.same s t = true := by
  constructor
  · intro h
    cases l <;> cases w <;> first | exact ⟨_, _, rfl, rfl, h⟩ | cases h
  · rintro ⟨s, t, rfl, rfl, h⟩
    exact h

theorem eq_str_of_same {j : Json} {s : String} (h : j.same (str s) = true) : j = str s := by
  cases j with
  | str t => rw [beq_iff_eq.1 h]
  | _ => cases h

/-- Every document covers itself. -/
theorem covers_self (name : Option String) (j : Json) : covers name j j = true := by
  induction j using induction_members generalizing name with
  | leaf j harr hobj => rw [covers_leaf harr hobj]; exact same_self j
  | arr items ih =>
    rw [covers_arr_iff, List.forall₂_same]
    exact fun j hj => ih j hj name
  | obj fields ih =>
    rw [covers_obj_iff]
    exact fun k w h => ⟨w, h, .inr (ih k w h (some k))⟩

/-- What covers a document still does when it is replaced by an equal value. -/
theorem covers_congr {name : Option String} {l l' w : Json} (eq : l'.same l = true)
    (h : covers name l w = true) : covers name l' w = true := by
  induction w using induction_members generalizing name l l' with
  | leaf w harr hobj =>
    rw [covers_leaf harr hobj] at h ⊢
    exact same_trans eq h
  | arr ws ih =>
    cases l <;> simp only [covers, Bool.false_eq_true] at h
    cases l' <;> simp only [same, Bool.false_eq_true] at eq
    rename_i ls ls'
    rw [coversItems_iff] at h
    rw [sameItems_iff] at eq
    rw [covers_arr_iff]
    induction h generalizing ls' with
    | nil =>
      cases eq
      exact .nil
    | cons first _ rest =>
      cases eq with
      | cons eq others =>
        exact .cons (ih _ List.mem_cons_self eq first)
          (rest (fun j hj => ih j (List.mem_cons_of_mem _ hj)) _ others)
  | obj wanted ih =>
    cases l <;> simp only [covers, Bool.false_eq_true] at h
    cases l' <;> simp only [same, Bool.false_eq_true] at eq
    rename_i live live'
    rw [coversFields_iff] at h
    rw [sameFields_iff] at eq
    rw [covers_obj_iff]
    intro k w hw
    obtain ⟨u, hu, covered⟩ := h k w hw
    have at_k := eq k
    rw [hu] at at_k
    cases hu' : live'.get? k with
    | none => rw [hu'] at at_k; cases at_k
    | some u' =>
      rw [hu', Option.rel_some_some] at at_k
      refine ⟨u', rfl, covered.imp (fun ⟨quantities, amount⟩ => ⟨quantities, ?_⟩)
        (ih k w hw at_k)⟩
      obtain ⟨s, t, rfl, rfl, amount⟩ := sameAmount_iff.1 amount
      rw [eq_str_of_same at_k]
      exact amount

theorem sameAmount_trans {j l w : Json} (h : sameAmount j l = true) (h' : sameAmount l w = true) :
    sameAmount j w = true := by
  obtain ⟨r, s, rfl, rfl, first⟩ := sameAmount_iff.1 h
  obtain ⟨s, t, eq, rfl, second⟩ := sameAmount_iff.1 h'
  cases eq
  exact Quantity.same_trans first second

/-- A string covers itself and nothing else. -/
theorem covers_str_left {name : Option String} {s : String} {w : Json}
    (h : covers name (str s) w = true) : w = str s := by
  cases w with
  | str t => exact eq_str_of_same (same_symm h)
  | _ => cases h

theorem covers_str_right {name : Option String} {l : Json} {t : String}
    (h : covers name l (str t) = true) : l = str t :=
  eq_str_of_same h

theorem leaf_of_same {l w : Json} (eq : l.same w = true) (harr : w.asArray? = none)
    (hobj : w.asObject? = none) : l.asArray? = none ∧ l.asObject? = none := by
  cases l with
  | arr => cases w <;> first | cases eq | cases harr
  | obj => cases w <;> first | cases eq | cases hobj
  | _ => exact ⟨rfl, rfl⟩

/-- What covers a document covers all that the document covers. -/
theorem covers_trans {name : Option String} {j l w : Json} (h : covers name j l = true)
    (h' : covers name l w = true) : covers name j w = true := by
  induction w using induction_members generalizing name j l with
  | leaf w harr hobj =>
    rw [covers_leaf harr hobj] at h' ⊢
    obtain ⟨harr, hobj⟩ := leaf_of_same h' harr hobj
    rw [covers_leaf harr hobj] at h
    exact same_trans h h'
  | arr ws ih =>
    cases l <;> simp only [covers, Bool.false_eq_true] at h'
    cases j <;> simp only [covers, Bool.false_eq_true] at h
    rename_i ls js
    rw [coversItems_iff] at h h'
    rw [covers_arr_iff]
    induction h' generalizing js with
    | nil => exact h
    | cons first _ rest =>
      cases h with
      | cons before others =>
        exact .cons (ih _ List.mem_cons_self before first)
          (rest (fun w mem => ih w (List.mem_cons_of_mem _ mem)) _ others)
  | obj wanted ih =>
    cases l <;> simp only [covers, Bool.false_eq_true] at h'
    cases j <;> simp only [covers, Bool.false_eq_true] at h
    rename_i middle live
    rw [coversFields_iff] at h h'
    rw [covers_obj_iff]
    intro k w there
    obtain ⟨v, there', covered'⟩ := h' k w there
    obtain ⟨u, there'', covered⟩ := h k v there'
    refine ⟨u, there'', ?_⟩
    rcases covered with ⟨quantities, amount⟩ | covered <;>
      rcases covered' with ⟨quantities', amount'⟩ | covered'
    · exact .inl ⟨quantities, sameAmount_trans amount amount'⟩
    · obtain ⟨r, s, rfl, rfl, -⟩ := sameAmount_iff.1 amount
      rw [covers_str_left covered']
      exact .inl ⟨quantities, amount⟩
    · obtain ⟨s, t, rfl, rfl, -⟩ := sameAmount_iff.1 amount'
      rw [covers_str_right covered]
      exact .inl ⟨quantities', amount'⟩
    · exact .inr (ih k w there covered covered')

/-! ## Look-ups in a laid-over object -/

/-- What becomes of a wanted member beside the live one. -/
def joined (quantities : Bool) (k : String) (w : Json) : Option Json → Json
  | none => w
  | some l => if quantities && sameAmount l w then l else overlayUnder (some k) l w

/-- A member after a wanted object is laid over a live one. -/
def laid (quantities : Bool) (k : String) (l : Option Json) : Option Json → Option Json
  | none => l
  | some w => some (joined quantities k w l)

theorem overlayFields_cons (quantities : Bool) (live : Object) {b : Option String} (j : String)
    (hj : After b j) (w : Json) (rest : Entries String Json (some j)) :
    overlayFields quantities live (.cons j hj w rest) =
      overlayFields quantities
        (SortedMap.insert live j (joined quantities j w (live.get? j))) rest := by
  rw [overlayFields, layFields]
  cases live.get? j with
  | none => rfl
  | some l =>
    rw [Tracked.value_bind, value_keepQuantity]
    rfl

theorem get?_overlayFields (quantities : Bool) (live : Object) {b : Option String}
    (wanted : Entries String Json b) (k : String) :
    (overlayFields quantities live wanted).get? k =
      laid quantities k (live.get? k) (wanted.get? k) := by
  induction wanted generalizing live with
  | nil => rfl
  | cons j hj v rest ih =>
    rw [overlayFields_cons, ih, SortedMap.get?_insert, Entries.get?_cons]
    by_cases e : k = j
    · rw [if_pos e, if_pos e, e, rest.get?_eq_none (not_after_self j)]
      rfl
    · rw [if_neg e, if_neg e]

theorem overlayUnder_obj (name : Option String) (live wanted : Object) :
    overlayUnder name (obj live) (obj wanted) =
      obj (overlayFields (namesQuantities name) live wanted) := rfl

theorem overlayUnder_leaf {name : Option String} {l w : Json} (harr : w.asArray? = none)
    (hobj : w.asObject? = none) : overlayUnder name l w = w := by
  cases w with
  | arr => cases harr
  | obj => cases hobj
  | _ => rfl

/-! ## Drift -/

theorem joined_same_iff {quantities : Bool} {k : String} {l w : Json}
    (ih : (overlayUnder (some k) l w).same l = true ↔ covers (some k) l w = true) :
    (joined quantities k w (some l)).same l = true ↔ MemberCovers quantities k l w := by
  rw [joined, MemberCovers, ← Bool.and_eq_true, ← ih]
  by_cases amount : (quantities && sameAmount l w) = true
  · rw [if_pos amount]
    exact ⟨fun _ => .inl amount, fun _ => same_self l⟩
  · rw [if_neg amount]
    exact ⟨.inr, fun h => h.resolve_left amount⟩

theorem overlayItems_same_iff {name : Option String} {ls ws : List Json}
    (ih : ∀ w ∈ ws, ∀ l, (overlayUnder name l w).same l = true ↔ covers name l w = true) :
    sameItems (overlayItems name ls ws) ls = true ↔ coversItems name ls ws = true := by
  induction ws generalizing ls with
  | nil => cases ls <;> simp [sameItems, coversItems]
  | cons w ws rest =>
    cases ls with
    | nil => simp [sameItems, coversItems]
    | cons l ls =>
      rw [overlayItems_cons, sameItems, coversItems, Bool.and_eq_true, Bool.and_eq_true,
        ih w List.mem_cons_self, rest fun v hv => ih v (List.mem_cons_of_mem _ hv)]

/-- Laying a document over another changes nothing exactly if the other covers it. -/
theorem overlay_same_iff (name : Option String) (l w : Json) :
    (overlayUnder name l w).same l = true ↔ covers name l w = true := by
  induction w using induction_members generalizing name l with
  | leaf w harr hobj =>
    rw [overlayUnder_leaf harr hobj, covers_leaf harr hobj]
    exact ⟨same_symm, same_symm⟩
  | arr ws ih =>
    cases l with
    | arr ls =>
      rw [overlayUnder_arr, same, covers]
      exact overlayItems_same_iff fun w hw l => ih w hw name l
    | _ => exact iff_of_false nofun nofun
  | obj wanted ih =>
    cases l with
    | obj live =>
      rw [overlayUnder_obj, same_obj_iff, covers_obj_iff]
      constructor
      · intro same k w hw
        have at_k := same k
        rw [get?_overlayFields, hw] at at_k
        cases hl : live.get? k with
        | none => rw [hl] at at_k; cases at_k
        | some l =>
          rw [hl] at at_k
          cases at_k with
          | some at_k => exact ⟨l, rfl, (joined_same_iff (ih k w hw (some k) l)).1 at_k⟩
      · intro covered k
        rw [get?_overlayFields]
        cases hw : wanted.get? k with
        | none =>
          cases live.get? k with
          | none => exact .none
          | some l => exact .some (same_self l)
        | some w =>
          obtain ⟨l, hl, member⟩ := covered k w hw
          rw [hl]
          exact .some ((joined_same_iff (ih k w hw (some k) l)).2 member)
    | _ => exact iff_of_false nofun nofun

end Json

end DesiredState
