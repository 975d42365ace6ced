import DesiredState.SortedMap

/-!
# Kinds of objects

A kind belongs to a version of a group; the core group has the empty name and does not show in
an `apiVersion`.
-/

namespace DesiredState

structure GroupVersionKind where
  group : String
  version : String
  kind : String
  deriving DecidableEq, Inhabited

namespace GroupVersionKind

/-- The text before the first slash, if there is one, and the text after it. -/
def splitAtSlash (s : String) : Option (String × String) :=
  let chars := s.toList
  match chars.dropWhile (· ≠ '/') with
  | [] => none
  | _ :: rest => some (String.ofList (chars.takeWhile (· ≠ '/')), String.ofList rest)

/-- A kind of `v1` or of `group/v1`. -/
def ofApiVersion (apiVersion kind : String) : GroupVersionKind :=
  match splitAtSlash apiVersion with
  | some (group, version) => ⟨group, version, kind⟩
  | none => ⟨"", apiVersion, kind⟩

/-- `v1`, or `group/v1` outside the core group. -/
def apiVersion (g : GroupVersionKind) : String :=
  if g.group.isEmpty then g.version else g.group ++ "/" ++ g.version

/-- `v1/Kind` or `group/v1/Kind`. -/
def text (g : GroupVersionKind) : String := g.apiVersion ++ "/" ++ g.kind

end GroupVersionKind

/-- A kind regardless of its version. -/
structure GroupKind where
  group : String
  kind : String
  deriving DecidableEq

namespace GroupKind

/-- Groups come first in the order. -/
def Less (a b : GroupKind) : Prop := a.group < b.group ∨ a.group = b.group ∧ a.kind < b.kind

instance : LT GroupKind := ⟨Less⟩

instance (a b : GroupKind) : Decidable (a < b) :=
  inferInstanceAs (Decidable (a.group < b.group ∨ a.group = b.group ∧ a.kind < b.kind))

end GroupKind

/-! ## Lexicographic order -/

/-- One step of a lexicographic comparison is irreflexive if the next one is. -/
theorem lex_irrefl {κ : Type} [LT κ] [KeyOrder κ] {a : κ} {p : Prop} (h : ¬ p) :
    ¬ (a < a ∨ a = a ∧ p) := by
  rintro (h' | ⟨_, h'⟩)
  · exact KeyOrder.irrefl a h'
  · exact h h'

theorem lex_trans {κ : Type} [LT κ] [KeyOrder κ] {a b c : κ} {p q r : Prop} (h : p → q → r)
    (ab : a < b ∨ a = b ∧ p) (bc : b < c ∨ b = c ∧ q) : a < c ∨ a = c ∧ r := by
  rcases ab with ab | ⟨rfl, hp⟩
  · rcases bc with bc | ⟨rfl, _⟩
    · exact .inl (KeyOrder.trans ab bc)
    · exact .inl ab
  · rcases bc with bc | ⟨rfl, hq⟩
    · exact .inl bc
    · exact .inr ⟨rfl, h hp hq⟩

theorem lex_antisymm {κ : Type} [LT κ] [KeyOrder κ] {a b : κ} {p q : Prop}
    (ab : ¬ (a < b ∨ a = b ∧ p)) (ba : ¬ (b < a ∨ b = a ∧ q)) : a = b ∧ ¬ p ∧ ¬ q := by
  have e : a = b := KeyOrder.antisymm (fun h => ab (.inl h)) (fun h => ba (.inl h))
  subst e
  exact ⟨rfl, fun h => ab (.inr ⟨rfl, h⟩), fun h => ba (.inr ⟨rfl, h⟩)⟩

instance : KeyOrder GroupKind where
  irrefl a := lex_irrefl (KeyOrder.irrefl a.kind)
  trans := lex_trans KeyOrder.trans
  antisymm {a b} ab ba := by
    obtain ⟨group, h, h'⟩ := lex_antisymm ab ba
    have kind := KeyOrder.antisymm h h'
    cases a; cases b; simp_all

end DesiredState
