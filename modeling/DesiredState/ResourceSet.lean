import DesiredState.Object.Manifest

/-!
# Sets of wanted objects

A set holds at most one manifest for each key, in the order in which the keys came in first. A
later manifest of a key takes the place of the earlier one. The main statements are `keys_insert`
and `get?_insert`.
-/

namespace DesiredState

/-- Manifests with distinct keys, in order. -/
structure ResourceSet where
  manifests : List Manifest
  distinct : (manifests.map Manifest.key).Nodup

namespace ResourceSet

/-! ## Lists of manifests -/

/-- Put a manifest in the place of the one with its key, or at the end. -/
def place (m : Manifest) : List Manifest → List Manifest
  | [] => [m]
  | x :: xs => if x.key = m.key then m :: xs else x :: place m xs

/-- A key that is new comes last; one that is there stays where it is. -/
theorem keys_place (m : Manifest) (l : List Manifest) :
    (place m l).map Manifest.key =
      if m.key ∈ l.map Manifest.key then l.map Manifest.key
      else l.map Manifest.key ++ [m.key] := by
  induction l with
  | nil => rfl
  | cons x xs ih =>
    rw [place]
    by_cases e : x.key = m.key
    · simp [e]
    · rw [if_neg e, List.map_cons, ih]
      have ne : ¬ m.key = x.key := Ne.symm e
      by_cases h : m.key ∈ xs.map Manifest.key
      · simp only [List.map_cons, List.mem_cons, h, or_true, if_true]
      · simp only [List.map_cons, List.mem_cons, h, ne, or_false, if_false, List.cons_append]

theorem nodup_place (m : Manifest) {l : List Manifest} (h : (l.map Manifest.key).Nodup) :
    ((place m l).map Manifest.key).Nodup := by
  rw [keys_place]
  split
  · exact h
  · rename_i new
    exact List.nodup_append.2 ⟨h, by simp, fun a ha b hb e => by
      rw [List.mem_singleton] at hb
      exact new (hb ▸ e ▸ ha)⟩

theorem mem_place {m x : Manifest} {l : List Manifest} (h : x ∈ place m l) : x = m ∨ x ∈ l := by
  induction l with
  | nil => exact .inl (List.mem_singleton.1 h)
  | cons y rest ih =>
    rw [place] at h
    split at h
    · exact (List.mem_cons.1 h).imp_right (List.mem_cons_of_mem y)
    · rcases List.mem_cons.1 h with rfl | later
      · exact .inr List.mem_cons_self
      · exact (ih later).imp_right (List.mem_cons_of_mem y)

/-- The manifest of a key. -/
def find (k : ObjectKey) (l : List Manifest) : Option Manifest := l.find? (·.key = k)

theorem find_place (m : Manifest) (l : List Manifest) (k : ObjectKey) :
    find k (place m l) = if m.key = k then some m else find k l := by
  induction l with
  | nil => by_cases e : m.key = k <;> simp [place, find, e]
  | cons x xs ih =>
    rw [place]
    by_cases e : x.key = m.key
    · by_cases e' : m.key = k <;> simp [find, e, e']
    · rw [if_neg e]
      unfold find at ih ⊢
      rw [List.find?_cons, List.find?_cons, ih]
      by_cases e' : x.key = k
      · have ne : ¬ m.key = k := fun h => e (e'.trans h.symm)
        simp [e', ne]
      · simp [e']

/-! ## Operations -/

def empty : ResourceSet := ⟨[], List.nodup_nil⟩

def size (s : ResourceSet) : Nat := s.manifests.length

def isEmpty (s : ResourceSet) : Bool := s.manifests.isEmpty

/-- The keys in order. -/
def keys (s : ResourceSet) : List ObjectKey := s.manifests.map Manifest.key

def get? (s : ResourceSet) (k : ObjectKey) : Option Manifest := find k s.manifests

def contains (s : ResourceSet) (k : ObjectKey) : Bool := (s.get? k).isSome

/-- Put a manifest in. What it replaces is `s.get? m.key`. -/
def insert (s : ResourceSet) (m : Manifest) : ResourceSet :=
  ⟨place m s.manifests, nodup_place m s.distinct⟩

/-- Put several manifests in, one after the other. -/
def extend (s : ResourceSet) (l : List Manifest) : ResourceSet := l.foldl insert s

def ofList (l : List Manifest) : ResourceSet := empty.extend l

theorem keys_insert (s : ResourceSet) (m : Manifest) :
    (s.insert m).keys = if m.key ∈ s.keys then s.keys else s.keys ++ [m.key] :=
  keys_place m s.manifests

theorem get?_insert (s : ResourceSet) (m : Manifest) (k : ObjectKey) :
    (s.insert m).get? k = if m.key = k then some m else s.get? k := find_place m s.manifests k

end ResourceSet

end DesiredState
