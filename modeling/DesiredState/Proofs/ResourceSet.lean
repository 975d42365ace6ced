import DesiredState.Proofs.Arrivals
import DesiredState.ResourceSet

/-!
# What a set of resources holds

A set that was made from a list has each key once, where it first arrived, with the manifest that
arrived last for it (`manifests_ofList_eq`). Such a set can be kept in two parts, a table of the
manifests by key and the keys in the order of arrival, of which every addition may change both.
Whatever is added, the two parts stay in step and are those of the set (`kept_built`).
-/

namespace DesiredState

namespace Entries

variable {κ : Type} [LT κ] [KeyOrder κ] {α : Type} {b : Option κ}

theorem after_of_mem_keys {m : Entries κ α b} {k : κ} (mem : k ∈ m.keys) : After b k := by
  induction m with
  | nil => cases mem
  | cons j after value rest ih =>
    rcases List.mem_cons.1 mem with rfl | later
    · exact after
    · exact after.trans (ih later)

theorem nodup_keys (m : Entries κ α b) : m.keys.Nodup := by
  induction m with
  | nil => exact List.nodup_nil
  | cons k after value rest ih =>
    exact List.nodup_cons.2 ⟨fun mem => not_after_self k (after_of_mem_keys mem), ih⟩

omit [KeyOrder κ] in
theorem mem_keys_iff [DecidableEq κ] (m : Entries κ α b) (k : κ) :
    k ∈ m.keys ↔ (m.get? k).isSome := by
  induction m with
  | nil => simp [keys, toList]
  | cons j after value rest ih =>
    show k ∈ j :: rest.keys ↔ _
    by_cases here : k = j <;> simp [get?_cons, here, ih]

end Entries

namespace ResourceSet

/-! ## Sets from lists -/

@[ext] theorem ext {s t : ResourceSet} (h : s.manifests = t.manifests) : s = t := by
  cases s
  cases t
  cases h
  rfl

/-- The manifests of a list with distinct keys are found by their keys, in order. -/
theorem filterMap_find {l : List Manifest} (distinct : (l.map Manifest.key).Nodup) :
    (l.map Manifest.key).filterMap (find · l) = l := by
  induction l with
  | nil => rfl
  | cons m rest ih =>
    rw [List.map_cons, List.nodup_cons] at distinct
    have here : find m.key (m :: rest) = some m := by simp [find]
    have later : ∀ k ∈ rest.map Manifest.key, find k (m :: rest) = find k rest := by
      intro k mem
      have other : m.key ≠ k := fun same => distinct.1 (same ▸ mem)
      simp [find, other]
    rw [List.map_cons, List.filterMap_cons, here, List.filterMap_congr later, ih distinct.2]

theorem isSome_find (k : ObjectKey) (l : List Manifest) :
    (find k l).isSome ↔ k ∈ l.map Manifest.key := by
  simp [find]

theorem key_of_find {k : ObjectKey} {l : List Manifest} {m : Manifest} (h : find k l = some m) :
    m.key = k := by
  simpa using List.find?_some h

/-- Each key once, where it first arrived, with the manifest that arrived last for it. -/
def latest (given : List Manifest) : List Manifest :=
  (given.map Manifest.key).eraseDups.filterMap fun k => find k given.reverse

theorem ofList_concat (given : List Manifest) (m : Manifest) :
    ofList (given ++ [m]) = (ofList given).insert m := by
  simp [ofList, extend]

theorem keys_ofList (given : List Manifest) :
    (ofList given).keys = (given.map Manifest.key).eraseDups := by
  induction given using List.reverseRecOn with
  | nil => simp [ofList, extend, empty, keys]
  | append_singleton given m ih =>
    simp only [ofList_concat, keys_insert, ih, List.mem_eraseDups, List.map_append, List.map_cons,
      List.map_nil, eraseDups_concat]

theorem get?_ofList (given : List Manifest) (k : ObjectKey) :
    (ofList given).get? k = find k given.reverse := by
  induction given using List.reverseRecOn with
  | nil => rfl
  | append_singleton given m ih =>
    rw [ofList_concat, get?_insert, ih, List.reverse_concat]
    by_cases here : m.key = k <;> simp [find, here]

theorem manifests_ofList_eq (given : List Manifest) : (ofList given).manifests = latest given := by
  rw [latest, ← keys_ofList, ← filterMap_find (ofList given).distinct]
  exact List.filterMap_congr fun k _ => get?_ofList given k

/-- The settings come first as they did at first, and are what they are at last. -/
example :
    let map (name level : String) : Manifest :=
      ⟨.of ⟨"", "v1", "ConfigMap"⟩ (some "team") name, .str level⟩
    (ofList [map "settings" "info", map "limits" "low", map "settings" "debug"]).manifests =
      [map "settings" "debug", map "limits" "low"] := rfl

/-! ## Sets from additions -/

/-- What is put into a set at once. -/
inductive Addition where
  | insert (m : Manifest)
  | extend (l : List Manifest)

namespace Addition

/-- The manifests that are put in, in order. -/
def given : Addition → List Manifest
  | insert m => [m]
  | extend l => l

end Addition

def add (s : ResourceSet) : Addition → ResourceSet
  | .insert m => s.insert m
  | .extend l => s.extend l

/-- The set after additions to the empty one. -/
def built (additions : List Addition) : ResourceSet := additions.foldl add empty

theorem add_eq_extend (s : ResourceSet) (a : Addition) : s.add a = s.extend a.given := by
  cases a <;> rfl

theorem built_eq_ofList (additions : List Addition) :
    built additions = ofList (additions.flatMap Addition.given) := by
  induction additions using List.reverseRecOn with
  | nil => rfl
  | append_singleton additions a ih =>
    have last : built (additions ++ [a]) = (built additions).add a := by simp [built]
    rw [last, ih, add_eq_extend, List.flatMap_append, ofList, ofList, extend, extend, extend,
      List.foldl_append]
    simp

/-! ## Indexed sets -/

/-- A set in two parts: its manifests by key, and its keys in the order in which they arrived. -/
structure Index where
  table : SortedMap ObjectKey Manifest
  order : List ObjectKey

namespace Index

def empty : Index := ⟨SortedMap.empty, []⟩

def size (i : Index) : Nat := i.table.size

/-- The manifests in order. -/
def manifests (i : Index) : List Manifest := i.order.filterMap i.table.get?

/-- Put a manifest in, and hand back the one that it replaces. Only a new key joins the order. -/
def insert (i : Index) (m : Manifest) : Option Manifest × Index :=
  (i.table.get? m.key,
    ⟨i.table.insert m.key m, if i.table.contains m.key then i.order else i.order ++ [m.key]⟩)

def extend (i : Index) (l : List Manifest) : Index := l.foldl (fun i m => (i.insert m).2) i

def add (i : Index) : Addition → Index
  | .insert m => (i.insert m).2
  | .extend l => i.extend l

/-- The index after additions to the empty one. -/
def built (additions : List Addition) : Index := additions.foldl add empty

/-- The two parts are those of the set. -/
structure Represents (i : Index) (s : ResourceSet) : Prop where
  order : i.order = s.keys
  table : ∀ k, i.table.get? k = s.get? k

variable {i : Index} {s : ResourceSet}

theorem represents_empty : Represents empty ResourceSet.empty := ⟨rfl, fun _ => rfl⟩

/-- The order and the table stay in step, be the key new or not. -/
theorem Represents.insert (h : i.Represents s) (m : Manifest) :
    (i.insert m).2.Represents (s.insert m) where
  order := by
    have there : i.table.contains m.key = true ↔ m.key ∈ s.keys := by
      rw [Entries.contains, h.table]
      exact isSome_find m.key s.manifests
    simp only [Index.insert, keys_insert, there, h.order]
  table k := by
    have look : (i.insert m).2.table.get? k = if k = m.key then some m else i.table.get? k :=
      SortedMap.get?_insert i.table m.key m k
    rw [look, get?_insert, h.table]
    simp only [eq_comm]

theorem Represents.extend (h : i.Represents s) (l : List Manifest) :
    (i.extend l).Represents (s.extend l) := by
  induction l generalizing i s with
  | nil => exact h
  | cons m rest ih => exact ih (h.insert m)

theorem Represents.add (h : i.Represents s) (a : Addition) : (i.add a).Represents (s.add a) := by
  cases a with
  | insert m => exact h.insert m
  | extend l => exact h.extend l

theorem represents_built (additions : List Addition) :
    (built additions).Represents (ResourceSet.built additions) := by
  induction additions using List.reverseRecOn with
  | nil => exact represents_empty
  | append_singleton additions a ih =>
    have step := ih.add a
    simpa [built, ResourceSet.built] using step

theorem Represents.manifests (h : i.Represents s) : i.manifests = s.manifests := by
  rw [Index.manifests, h.order, ← filterMap_find s.distinct]
  exact List.filterMap_congr fun k _ => h.table k

/-- The table has as many entries as the order has keys. -/
theorem Represents.size (h : i.Represents s) : i.size = s.size := by
  have same : i.table.keys.Perm s.keys := by
    refine (List.perm_ext_iff_of_nodup i.table.nodup_keys s.distinct).2 fun k => ?_
    rw [Entries.mem_keys_iff, h.table]
    exact isSome_find k s.manifests
  have count := same.length_eq
  rw [Entries.keys, List.length_map, keys, List.length_map] at count
  exact count

end Index

/-! ## Sets over any additions -/

/-- What is kept after additions. -/
structure Kept (additions : List Addition) (i : Index) (s : ResourceSet) : Prop where
  /-- No key is twice in the order. -/
  distinct : i.order.Nodup
  /-- The order has the keys of the table, and no others. -/
  listed : ∀ k, k ∈ i.order ↔ k ∈ i.table.keys
  /-- Every manifest is under its own key. -/
  own : ∀ k m, i.table.get? k = some m → m.key = k
  /-- There are as many entries as manifests to go through. -/
  size : i.size = i.manifests.length
  /-- A further manifest replaces the one that arrived last for its key, if one did. -/
  replaced : ∀ m, (i.insert m).1 = i.table.get? m.key ∧
    (i.insert m).1 = find m.key (additions.flatMap Addition.given).reverse
  /-- Each key once, where it first arrived, with the manifest that arrived last. -/
  manifests : i.manifests = latest (additions.flatMap Addition.given)
  /-- The set itself is the same. -/
  set : s.manifests = i.manifests ∧ s.keys = i.order ∧ s.size = i.size ∧
    ∀ k, s.get? k = i.table.get? k

theorem kept_built (additions : List Addition) :
    Kept additions (.built additions) (built additions) := by
  have same := Index.represents_built additions
  have flat := built_eq_ofList additions
  exact {
    distinct := by
      rw [same.order]
      exact (built additions).distinct
    listed := fun k => by
      rw [same.order, Entries.mem_keys_iff, same.table]
      exact (isSome_find k _).symm
    own := fun k m found => key_of_find ((same.table k).symm.trans found)
    size := by
      rw [same.size, same.manifests]
      rfl
    replaced := fun m => ⟨rfl, by
      rw [← get?_ofList, ← flat]
      exact same.table m.key⟩
    manifests := by rw [same.manifests, flat, manifests_ofList_eq]
    set := ⟨same.manifests.symm, same.order.symm, same.size.symm, fun k => (same.table k).symm⟩ }

end ResourceSet

end DesiredState
