import DesiredState.Proofs.Json.Overlay

/-!
# Laying a document over another, place by place

A place is reached through members and items, and no place of a document without nulls holds one
(`at?_ne_null`). Where two documents both hold objects, laying one over the other joins these
(`at?_overlayUnder`), and what others have set in the live one stays (`joins_overlayFields`). Doing
it again changes nothing more (`overlayUnder_overlayUnder`).
-/

namespace DesiredState.Json

/-! ## Places -/

/-- One step into a document. -/
inductive Branch where
  | member (name : String)
  | item (index : Nat)

/-- What the step leads to. -/
def child? : Json → Branch → Option Json
  | obj fields, .member name => fields.get? name
  | arr items, .item index => items[index]?
  | _, _ => none

theorem child?_object (members : List (String × Json)) (name : String) :
    (object members).child? (.member name) = (SortedMap.ofList members).get? name := rfl

theorem child?_arr (items : List Json) (i : Nat) : (arr items).child? (.item i) = items[i]? := rfl

/-- What the document holds at a place. -/
def at? (j : Json) : List Branch → Option Json
  | [] => some j
  | branch :: rest => (j.child? branch).bind (·.at? rest)

/-- The name that a place is found under, in a document found under `name`. Items have the name of
their list. -/
def nameAt (name : Option String) : List Branch → Option String
  | [] => name
  | .member k :: rest => nameAt (some k) rest
  | .item _ :: rest => nameAt name rest

theorem at?_cons (j : Json) (branch : Branch) (rest : List Branch) :
    j.at? (branch :: rest) = (j.child? branch).bind (·.at? rest) := rfl

/-- There is nothing below a string. -/
theorem ne_str_of_at?_obj {j : Json} {place : List Branch} {fields : Object}
    (there : j.at? place = some (obj fields)) (s : String) : j ≠ str s := by
  rintro rfl
  cases place <;> cases there

/-! ## Documents without nulls -/

mutual

/-- Null is nowhere in the document, lists included. -/
def nullFree : Json → Bool
  | null => false
  | arr items => itemsNullFree items
  | obj fields => fieldsNullFree fields
  | _ => true

def itemsNullFree : List Json → Bool
  | [] => true
  | j :: rest => nullFree j && itemsNullFree rest

def fieldsNullFree : {b : Option String} → Entries String Json b → Bool
  | _, .nil => true
  | _, .cons _ _ v rest => nullFree v && fieldsNullFree rest

end

theorem nullFree_of_item {items : List Json} (h : itemsNullFree items = true) {i : Nat} {j : Json}
    (there : items[i]? = some j) : j.nullFree = true := by
  induction items generalizing i with
  | nil => cases there
  | cons first rest ih =>
    rw [itemsNullFree, Bool.and_eq_true] at h
    cases i with
    | zero =>
      obtain rfl := Option.some.inj there
      exact h.1
    | succ i => exact ih h.2 there

theorem nullFree_of_field {b : Option String} {m : Entries String Json b}
    (h : fieldsNullFree m = true) : ∀ k j, m.get? k = some j → j.nullFree = true := by
  induction m with
  | nil =>
    intro k j there
    cases there
  | cons name after v rest ih =>
    rw [fieldsNullFree, Bool.and_eq_true] at h
    exact Entries.forall_get?_cons.2 ⟨h.1, ih h.2⟩

theorem nullFree_object {members : List (String × Json)}
    (present : ∀ e ∈ members, e.2.nullFree = true) : (object members).nullFree = true := by
  have fields : ∀ {b : Option String} (m : Entries String Json b),
      (∀ k v, m.get? k = some v → v.nullFree = true) → fieldsNullFree m = true := by
    intro b m
    induction m with
    | nil => exact fun _ => rfl
    | cons k after v rest ih =>
      intro all
      obtain ⟨first, others⟩ := Entries.forall_get?_cons.1 all
      rw [fieldsNullFree, first, ih others]
      rfl
  exact fields _ fun _ _ found => present _ (SortedMap.mem_of_get?_ofList found)

theorem nullFree_of_child? {j c : Json} (h : j.nullFree = true) {branch : Branch}
    (step : j.child? branch = some c) : c.nullFree = true := by
  cases j with
  | arr items =>
    rw [nullFree] at h
    cases branch with
    | member name => cases step
    | item i => exact nullFree_of_item h step
  | obj fields =>
    rw [nullFree] at h
    cases branch with
    | member name => exact nullFree_of_field h name c step
    | item i => cases step
  | _ => cases step

/-- In a document without nulls, there is none at any place. -/
theorem at?_ne_null {j : Json} (h : j.nullFree = true) (place : List Branch) :
    j.at? place ≠ some null := by
  induction place generalizing j with
  | nil =>
    rintro eq
    obtain rfl := Option.some.inj eq
    cases h
  | cons branch rest ih =>
    intro found
    obtain ⟨c, step, below⟩ := Option.bind_eq_some_iff.1 found
    exact ih (nullFree_of_child? h step) below

/-! ## Idempotence -/

theorem overlayItems_nil (name : Option String) (ws : List Json) :
    overlayItems name [] ws = ws := by
  induction ws with
  | nil => rfl
  | cons w ws ih => rw [overlayItems_nil_cons, ih]

/-- Over what is no document of its kind, a document comes out as it is. -/
theorem overlayUnder_null (name : Option String) (w : Json) : overlayUnder name null w = w := by
  cases w <;> rfl

theorem overlayItems_overlayItems {name : Option String} (ls : List Json) {ws : List Json}
    (ih : ∀ w ∈ ws, ∀ l, overlayUnder name (overlayUnder name l w) w = overlayUnder name l w) :
    overlayItems name (overlayItems name ls ws) ws = overlayItems name ls ws := by
  induction ws generalizing ls with
  | nil => cases ls <;> rfl
  | cons w ws rest =>
    have later := fun v mem => ih v (List.mem_cons_of_mem w mem)
    cases ls with
    | nil =>
      have here := ih w List.mem_cons_self null
      rw [overlayUnder_null] at here
      rw [overlayItems_nil_cons, overlayItems_cons, here, rest [] later]
    | cons l ls =>
      rw [overlayItems_cons, overlayItems_cons, ih w List.mem_cons_self l, rest ls later]

/-- A member that was joined once stays as it is when it is joined again. -/
theorem joined_joined {quantities : Bool} {k : String} {w : Json} (l? : Option Json)
    (ih : ∀ l, overlayUnder (some k) (overlayUnder (some k) l w) w = overlayUnder (some k) l w) :
    joined quantities k w (some (joined quantities k w l?)) = joined quantities k w l? := by
  cases l? with
  | none =>
    have here := ih null
    rw [overlayUnder_null] at here
    simp only [joined, here, ite_self]
  | some l =>
    by_cases amount : (quantities && sameAmount l w) = true
    · simp only [joined, if_pos amount]
    · simp only [joined, if_neg amount, ih l, ite_self]

theorem overlayFields_overlayFields (quantities : Bool) (live : Object) {wanted : Object}
    (ih : ∀ k w, wanted.get? k = some w → ∀ l,
      overlayUnder (some k) (overlayUnder (some k) l w) w = overlayUnder (some k) l w) :
    overlayFields quantities (overlayFields quantities live wanted) wanted =
      overlayFields quantities live wanted := by
  refine Entries.ext fun k => ?_
  rw [get?_overlayFields, get?_overlayFields]
  cases there : wanted.get? k with
  | none => rfl
  | some w => exact congrArg some (joined_joined (live.get? k) (ih k w there))

theorem overlayFields_empty (quantities : Bool) (wanted : Object) :
    overlayFields quantities SortedMap.empty wanted = wanted := by
  refine Entries.ext fun k => ?_
  rw [get?_overlayFields]
  cases wanted.get? k <;> rfl

/-- Laying a document over another a second time changes nothing. -/
theorem overlayUnder_overlayUnder (name : Option String) (l w : Json) :
    overlayUnder name (overlayUnder name l w) w = overlayUnder name l w := by
  induction w using induction_members generalizing name l with
  | leaf w harr hobj => rw [overlayUnder_leaf harr hobj, overlayUnder_leaf harr hobj]
  | arr ws ih =>
    have again := fun ls => overlayItems_overlayItems ls fun w mem => ih w mem name
    cases l with
    | arr ls => rw [overlayUnder_arr, overlayUnder_arr, again]
    | _ =>
      have self := again []
      rw [overlayItems_nil] at self
      exact congrArg arr self
  | obj wanted ih =>
    have again := fun live => overlayFields_overlayFields (namesQuantities name) live
      fun k w there => ih k w there (some k)
    cases l with
    | obj live => rw [overlayUnder_obj, overlayUnder_obj, again]
    | _ =>
      have self := again SortedMap.empty
      rw [overlayFields_empty] at self
      exact congrArg obj self

/-! ## What stays -/

theorem getElem?_overlayItems (name : Option String) (ls ws : List Json) (i : Nat) :
    (overlayItems name ls ws)[i]? =
      ws[i]?.map fun w => (ls[i]?.map fun l => overlayUnder name l w).getD w := by
  induction ws generalizing ls i with
  | nil => simp
  | cons w ws ih =>
    cases ls with
    | nil => simp [overlayItems_nil]
    | cons l ls =>
      cases i with
      | zero => rfl
      | succ i => exact ih ls i

/-- Where both documents hold objects, one is laid over the other, under the name of the place. -/
theorem at?_overlayUnder {name : Option String} {live wanted : Json} {place : List Branch}
    {l w : Object} (hl : live.at? place = some (obj l)) (hw : wanted.at? place = some (obj w)) :
    (overlayUnder name live wanted).at? place =
      some (obj (overlayFields (namesQuantities (nameAt name place)) l w)) := by
  induction place generalizing name live wanted with
  | nil =>
    obtain rfl := Option.some.inj hl
    obtain rfl := Option.some.inj hw
    exact congrArg some (overlayUnder_obj name l w)
  | cons branch rest ih =>
    obtain ⟨live', stepl, belowl⟩ := Option.bind_eq_some_iff.1 hl
    obtain ⟨wanted', stepw, beloww⟩ := Option.bind_eq_some_iff.1 hw
    rw [at?_cons, Option.bind_eq_some_iff]
    cases branch with
    | member k =>
      cases live with
      | obj fields =>
        cases wanted with
        | obj others =>
          -- A quantity is a string, and there is nothing below it.
          have plain : sameAmount live' wanted' = false := by
            cases wanted' with
            | str s => exact absurd rfl (ne_str_of_at?_obj beloww s)
            | _ => cases live' <;> rfl
          refine ⟨overlayUnder (some k) live' wanted', ?_, ih belowl beloww⟩
          rw [overlayUnder_obj]
          refine (get?_overlayFields _ fields others k).trans ?_
          rw [show fields.get? k = some live' from stepl,
            show others.get? k = some wanted' from stepw]
          simp [laid, joined, plain]
        | _ => cases stepw
      | _ => cases stepl
    | item i =>
      cases live with
      | arr items =>
        cases wanted with
        | arr others =>
          refine ⟨overlayUnder name live' wanted', ?_, ih belowl beloww⟩
          rw [overlayUnder]
          refine (getElem?_overlayItems name items others i).trans ?_
          rw [show items[i]? = some live' from stepl, show others[i]? = some wanted' from stepw]
          rfl
        | _ => cases stepw
      | _ => cases stepl

/-- What becomes of a live object over which a wanted one is laid. -/
structure Joins (quantities : Bool) (live wanted merged : Object) : Prop where
  /-- Members that are not asked for stay. -/
  unmentioned : ∀ k l, live.get? k = some l → wanted.get? k = none → merged.get? k = some l
  /-- A quantity of the wanted amount stays as it was written. -/
  spelling : quantities = true → ∀ k s t, live.get? k = some (str s) →
    wanted.get? k = some (str t) → Quantity.same s t = true → merged.get? k = some (str s)
  /-- No member comes from elsewhere. -/
  source : ∀ k, (merged.get? k).isSome = true →
    (live.get? k).isSome = true ∨ (wanted.get? k).isSome = true

theorem joins_overlayFields (quantities : Bool) (live wanted : Object) :
    Joins quantities live wanted (overlayFields quantities live wanted) where
  unmentioned k l there absent := by
    rw [get?_overlayFields, absent, there]
    rfl
  spelling named k s t there asked amount := by
    have same : sameAmount (str s) (str t) = true := amount
    rw [get?_overlayFields, there, asked]
    simp [laid, joined, named, same]
  source k found := by
    rw [get?_overlayFields] at found
    cases asked : wanted.get? k with
    | none =>
      rw [asked] at found
      exact .inl found
    | some w => exact .inr rfl

/-- Laying a document over a live one is a projection: the outcome has all that is wanted, and
doing it again changes nothing. At every place where both hold objects, what others have set in the
live one stays, and nothing comes in that neither of them has. -/
theorem overlay_projection (live wanted : Json) :
    (live.overlay wanted).overlay wanted = live.overlay wanted ∧
      covers none (live.overlay wanted) wanted = true ∧
      ∀ place l w, live.at? place = some (obj l) → wanted.at? place = some (obj w) →
        ∃ m, (live.overlay wanted).at? place = some (obj m) ∧
          Joins (namesQuantities (nameAt none place)) l w m := by
  have again : (live.overlay wanted).overlay wanted = live.overlay wanted :=
    overlayUnder_overlayUnder none live wanted
  refine ⟨again, (overlay_same_iff none _ wanted).1 ?_, fun place l w hl hw => ?_⟩
  · show ((live.overlay wanted).overlay wanted).same (live.overlay wanted) = true
    rw [again]
    exact same_self _
  · exact ⟨_, at?_overlayUnder hl hw, joins_overlayFields _ l w⟩

/-! ### An instance -/

section Instance

/-- A pod with one container that has these members and limits. -/
def podOf (members limits : List (String × Json)) : Json :=
  .object [("spec", .object [("containers", .arr [.object
    (members ++ [("resources", .object [("limits", .object limits)])])])])]

def livePod : Json :=
  podOf [("name", .str "app"), ("terminationMessagePath", .str "/dev/termination-log")]
    [("cpu", .str "2"), ("memory", .str "1Gi")]

def wantedPod : Json :=
  podOf [("name", .str "app"), ("image", .str "app:1")] [("cpu", .str "2000m")]

def container : List Branch := [.member "spec", .member "containers", .item 0]

/-- Inside a list as well, what the server has filled in stays and so does its spelling. -/
theorem overlay_pod :
    ∃ members limits, (livePod.overlay wantedPod).at? container = some (obj members) ∧
      members.get? "terminationMessagePath" = some (.str "/dev/termination-log") ∧
      (livePod.overlay wantedPod).at? (container ++ [.member "resources", .member "limits"]) =
        some (obj limits) ∧
      limits.get? "cpu" = some (.str "2") ∧ limits.get? "memory" = some (.str "1Gi") := by
  obtain ⟨-, -, keeps⟩ := overlay_projection livePod wantedPod
  obtain ⟨members, there, joins⟩ := keeps container _ _ rfl rfl
  obtain ⟨limits, there', joins'⟩ :=
    keeps (container ++ [.member "resources", .member "limits"]) _ _ rfl rfl
  refine ⟨members, limits, there, joins.unmentioned _ _ rfl rfl, there', ?_,
    joins'.unmentioned _ _ rfl rfl⟩
  exact joins'.spelling (by decide) "cpu" "2" "2000m" rfl rfl (by decide +kernel)

end Instance

end DesiredState.Json
