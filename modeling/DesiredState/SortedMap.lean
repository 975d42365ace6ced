/-!
# Maps sorted by construction

`Entries κ α b` is a chain of entries whose keys increase strictly and all come after the bound
`b`, so a key occurs at most once and a content has one form only. The main statement is `ext`:
two maps with the same look-ups are equal.
-/

namespace DesiredState

/-- A strict linear order on keys. -/
class KeyOrder (κ : Type) [LT κ] : Prop where
  irrefl : ∀ a : κ, ¬ a < a
  trans : ∀ {a b c : κ}, a < b → b < c → a < c
  antisymm : ∀ {a b : κ}, ¬ a < b → ¬ b < a → a = b

instance : KeyOrder String where
  irrefl := String.lt_irrefl
  trans := String.lt_trans
  antisymm h h' := String.le_antisymm (String.not_lt.1 h') (String.not_lt.1 h)

/-- The key comes after the bound; without a bound every key does. -/
def After {κ : Type} [LT κ] : Option κ → κ → Prop
  | none, _ => True
  | some a, k => a < k

/-- Entries in strictly increasing order of key, all of them after the bound. -/
inductive Entries (κ : Type) [LT κ] (α : Type) : Option κ → Type where
  | nil {b : Option κ} : Entries κ α b
  | cons {b : Option κ} (key : κ) (after : After b key) (value : α)
      (rest : Entries κ α (some key)) : Entries κ α b

/-- A finite map in key order. -/
abbrev SortedMap (κ : Type) [LT κ] (α : Type) : Type := Entries κ α none

section Bounds

variable {κ : Type} [LT κ] [KeyOrder κ]

theorem After.trans {b : Option κ} {j k : κ} (h : After b j) (h' : j < k) : After b k := by
  cases b with
  | none => trivial
  | some a => exact KeyOrder.trans h h'

theorem not_after_self (k : κ) : ¬ After (some k) k := KeyOrder.irrefl k

end Bounds

namespace Entries

variable {κ : Type} [LT κ] {α β : Type}

/-! ## Operations -/

/-- The keys and values in order. -/
def toList : {b : Option κ} → Entries κ α b → List (κ × α)
  | _, nil => []
  | _, cons k _ v rest => (k, v) :: rest.toList

/-- The keys in order. -/
def keys {b : Option κ} (m : Entries κ α b) : List κ := m.toList.map Prod.fst

/-- The values in order of their keys. -/
def values {b : Option κ} (m : Entries κ α b) : List α := m.toList.map Prod.snd

def size {b : Option κ} (m : Entries κ α b) : Nat := m.toList.length

def isEmpty : {b : Option κ} → Entries κ α b → Bool
  | _, nil => true
  | _, cons .. => false

/-- Apply a function to every value. -/
def map (f : α → β) : {b : Option κ} → Entries κ α b → Entries κ β b
  | _, nil => nil
  | _, cons k h v rest => cons k h (f v) (rest.map f)

section Search

variable [DecidableEq κ]

/-- The value under a key. -/
def get? : {b : Option κ} → Entries κ α b → κ → Option α
  | _, nil, _ => none
  | _, cons k _ v rest, j => if j = k then some v else rest.get? j

def contains {b : Option κ} (m : Entries κ α b) (k : κ) : Bool := (m.get? k).isSome

end Search

section Change

variable [KeyOrder κ]

/-- The same entries under an earlier bound. -/
def loosen {b : Option κ} {k : κ} (h : After b k) : Entries κ α (some k) → Entries κ α b
  | nil => nil
  | cons j hj v rest => cons j (h.trans hj) v rest

/-- The entries that pass a test. -/
def filter (p : κ → α → Bool) : {b : Option κ} → Entries κ α b → Entries κ α b
  | _, nil => nil
  | _, cons k h v rest => if p k v then cons k h v (rest.filter p) else (rest.filter p).loosen h

variable [DecidableEq κ]

/-- Take a key out. -/
def erase : {b : Option κ} → Entries κ α b → κ → Entries κ α b
  | _, nil, _ => nil
  | _, cons j hj w rest, k => if k = j then rest.loosen hj else cons j hj w (rest.erase k)

variable [DecidableLT κ]

/-- Put a value under a key that the bound admits, in place of an earlier one. -/
def put : {b : Option κ} → Entries κ α b → (k : κ) → After b k → α → Entries κ α b
  | _, nil, k, h, v => cons k h v nil
  | _, cons j hj w rest, k, h, v =>
    if lt : k < j then cons k h v (cons j lt w rest)
    else if gt : j < k then cons j hj w (rest.put k gt v)
    else cons j hj v rest

end Change

/-! ## Look-ups -/

section Lookup

variable [DecidableEq κ]

@[simp] theorem get?_nil {b : Option κ} (k : κ) : (nil : Entries κ α b).get? k = none := rfl

theorem get?_cons {b : Option κ} {k : κ} {h : After b k} {v : α} {rest : Entries κ α (some k)}
    (j : κ) : (cons k h v rest).get? j = if j = k then some v else rest.get? j := rfl

variable [KeyOrder κ]

theorem get?_eq_none {b : Option κ} (m : Entries κ α b) {k : κ} (h : ¬ After b k) :
    m.get? k = none := by
  induction m with
  | nil => rfl
  | cons j hj v rest ih =>
    rw [get?_cons, if_neg (fun e : k = j => h (e.symm ▸ hj))]
    exact ih (fun hlt => h (hj.trans hlt))

@[simp] theorem get?_loosen {b : Option κ} {k : κ} (h : After b k) (m : Entries κ α (some k))
    (j : κ) : (m.loosen h).get? j = m.get? j := by
  cases m <;> rfl

/-- Two maps with the same look-ups are equal. -/
theorem ext {b : Option κ} {m n : Entries κ α b} (h : ∀ k, m.get? k = n.get? k) : m = n := by
  induction m with
  | nil =>
    cases n with
    | nil => rfl
    | cons k _ v rest => simpa [get?_cons] using h k
  | cons k hk v rest ih =>
    cases n with
    | nil => simpa [get?_cons] using h k
    | cons k' hk' v' rest' =>
      have first : k = k' := by
        apply Decidable.byContradiction
        intro ne
        have at_k := h k
        have at_k' := h k'
        rw [get?_cons, get?_cons, if_pos rfl, if_neg ne] at at_k
        rw [get?_cons, get?_cons, if_pos rfl, if_neg (Ne.symm ne)] at at_k'
        have lt' : k' < k := Classical.byContradiction fun hn => by
          rw [rest'.get?_eq_none hn] at at_k
          cases at_k
        have lt : k < k' := Classical.byContradiction fun hn => by
          rw [rest.get?_eq_none hn] at at_k'
          cases at_k'
        exact KeyOrder.irrefl k (KeyOrder.trans lt lt')
      subst first
      have value : v = v' := by simpa [get?_cons] using h k
      subst value
      congr 1
      apply ih
      intro j
      by_cases e : j = k
      · rw [e, rest.get?_eq_none (not_after_self k), rest'.get?_eq_none (not_after_self k)]
      · simpa [get?_cons, e] using h j

theorem get?_erase {b : Option κ} (m : Entries κ α b) (k j : κ) :
    (m.erase k).get? j = if j = k then none else m.get? j := by
  induction m with
  | nil => simp [erase]
  | cons i hi w rest ih =>
    rw [erase]
    split
    · rename_i e
      subst e
      rw [get?_loosen, get?_cons]
      by_cases e : j = k
      · rw [if_pos e, e, rest.get?_eq_none (not_after_self k)]
      · simp [e]
    · rename_i ne
      rw [get?_cons, ih, get?_cons]
      by_cases e : j = i <;> simp [e, Ne.symm ne]

variable [DecidableLT κ]

theorem get?_put {b : Option κ} (m : Entries κ α b) (k : κ) (h : After b k) (v : α) (j : κ) :
    (m.put k h v).get? j = if j = k then some v else m.get? j := by
  induction m with
  | nil => rfl
  | cons i hi w rest ih =>
    rw [put]
    split
    · rfl
    · split
      · rename_i _ gt
        have ne : k ≠ i := fun e => KeyOrder.irrefl i (e ▸ gt)
        rw [get?_cons, get?_cons, ih gt]
        by_cases e : j = i <;> simp [e, Ne.symm ne]
      · rename_i nlt ngt
        have e : k = i := KeyOrder.antisymm nlt ngt
        subst e
        rw [get?_cons, get?_cons]
        by_cases e : j = k <;> simp [e]

end Lookup

end Entries

/-! ## Maps without a bound -/

namespace SortedMap

variable {κ : Type} [LT κ] {α : Type}

def empty : SortedMap κ α := .nil

section

variable [DecidableEq κ]

@[simp] theorem get?_empty (k : κ) : (empty : SortedMap κ α).get? k = none := rfl

variable [KeyOrder κ] [DecidableLT κ]

def insert (m : SortedMap κ α) (k : κ) (v : α) : SortedMap κ α := m.put k trivial v

/-- Put a value under a key that has none. -/
def insertNew (m : SortedMap κ α) (k : κ) (v : α) : SortedMap κ α :=
  if m.contains k then m else m.insert k v

/-- Later pairs take the place of earlier ones of the same key. -/
def ofList (l : List (κ × α)) : SortedMap κ α := l.foldl (fun m e => m.insert e.1 e.2) empty

@[simp] theorem get?_insert (m : SortedMap κ α) (k : κ) (v : α) (j : κ) :
    (m.insert k v).get? j = if j = k then some v else m.get? j := m.get?_put k trivial v j

/-- What is put in last is found first. -/
theorem get?_foldl_insert (l : List (κ × α)) (m : SortedMap κ α) (j : κ) :
    (l.foldl (fun m e => m.insert e.1 e.2) m).get? j = ((ofList l).get? j).or (m.get? j) := by
  induction l generalizing m with
  | nil => rfl
  | cons e rest ih =>
    rw [ofList, List.foldl_cons, List.foldl_cons, ih, ih, get?_insert, get?_insert, get?_empty]
    cases (ofList rest).get? j with
    | some v => rfl
    | none => by_cases same : j = e.1 <;> simp [same]

omit [KeyOrder κ] in
theorem get?_ofList_nil (j : κ) : (ofList ([] : List (κ × α))).get? j = none := rfl

theorem get?_ofList_cons (e : κ × α) (l : List (κ × α)) (j : κ) :
    (ofList (e :: l)).get? j = ((ofList l).get? j).or (if j = e.1 then some e.2 else none) := by
  rw [ofList, List.foldl_cons, get?_foldl_insert, get?_insert, get?_empty]

theorem get?_ofList_append (l more : List (κ × α)) (j : κ) :
    (ofList (l ++ more)).get? j = ((ofList more).get? j).or ((ofList l).get? j) := by
  rw [ofList, List.foldl_append, get?_foldl_insert]
  rfl

/-- Whatever is found is one of the pairs. -/
theorem mem_of_get?_ofList {l : List (κ × α)} {j : κ} {v : α} (found : (ofList l).get? j = some v) :
    (j, v) ∈ l := by
  induction l with
  | nil => cases found
  | cons e rest ih =>
    rw [get?_ofList_cons, Option.or_eq_some_iff] at found
    rcases found with later | ⟨-, here⟩
    · exact List.mem_cons_of_mem e (ih later)
    · split at here
      · rename_i same
        obtain rfl := Option.some.inj here
        exact same ▸ List.mem_cons_self
      · cases here

end

end SortedMap

end DesiredState
