import DesiredState.Object.Kind

/-!
# Identity of objects

A key names one object: its kind, its namespace unless its kind is of the whole cluster, and its
name. Keys are ordered by group, version, kind, namespace with none first, and name.
-/

namespace DesiredState

structure ObjectKey where
  group : String
  version : String
  kind : String
  ns? : Option String
  name : String
  deriving DecidableEq, Inhabited

namespace ObjectKey

/-- The key of a name; an empty namespace is none. -/
def of (kind : GroupVersionKind) (ns? : Option String) (name : String) : ObjectKey :=
  ⟨kind.group, kind.version, kind.kind, ns?.filter (!·.isEmpty), name⟩

def gvk (k : ObjectKey) : GroupVersionKind := ⟨k.group, k.version, k.kind⟩

def groupKind (k : ObjectKey) : GroupKind := ⟨k.group, k.kind⟩

def apiVersion (k : ObjectKey) : String := k.gvk.apiVersion

/-- `apiVersion/Kind/name`, with the namespace before the name if there is one. -/
def text (k : ObjectKey) : String :=
  match k.ns? with
  | some ns => k.gvk.text ++ "/" ++ ns ++ "/" ++ k.name
  | none => k.gvk.text ++ "/" ++ k.name

/-! ## Order -/

/-- No namespace comes before every namespace. -/
def NamespaceLess : Option String → Option String → Prop
  | none, none => False
  | none, some _ => True
  | some _, none => False
  | some a, some b => a < b

instance : (a b : Option String) → Decidable (NamespaceLess a b)
  | none, none => isFalse id
  | none, some _ => isTrue trivial
  | some _, none => isFalse id
  | some a, some b => inferInstanceAs (Decidable (a < b))

theorem namespaceLess_irrefl : (a : Option String) → ¬ NamespaceLess a a
  | none => id
  | some a => KeyOrder.irrefl a

theorem namespaceLess_trans : {a b c : Option String} → NamespaceLess a b → NamespaceLess b c →
    NamespaceLess a c
  | none, none, _, h, _ => h.elim
  | none, some _, none, _, h => h.elim
  | none, some _, some _, _, _ => trivial
  | some _, none, _, h, _ => h.elim
  | some _, some _, none, _, h => h.elim
  | some _, some _, some _, h, h' => KeyOrder.trans (κ := String) h h'

theorem namespaceLess_antisymm : {a b : Option String} → ¬ NamespaceLess a b →
    ¬ NamespaceLess b a → a = b
  | none, none, _, _ => rfl
  | none, some _, h, _ => (h trivial).elim
  | some _, none, _, h => (h trivial).elim
  | some _, some _, h, h' => congrArg some (KeyOrder.antisymm (κ := String) h h')

/-- The namespace and the name decide last. -/
def PlaceLess (a b : ObjectKey) : Prop :=
  NamespaceLess a.ns? b.ns? ∨ a.ns? = b.ns? ∧ a.name < b.name

def Less (a b : ObjectKey) : Prop :=
  a.group < b.group ∨ a.group = b.group ∧
    (a.version < b.version ∨ a.version = b.version ∧
      (a.kind < b.kind ∨ a.kind = b.kind ∧ PlaceLess a b))

instance : LT ObjectKey := ⟨Less⟩

instance (a b : ObjectKey) : Decidable (PlaceLess a b) :=
  inferInstanceAs (Decidable (_ ∨ _ ∧ _))

instance (a b : ObjectKey) : Decidable (a < b) :=
  inferInstanceAs (Decidable (_ ∨ _ ∧ (_ ∨ _ ∧ (_ ∨ _ ∧ PlaceLess a b))))

theorem placeLess_irrefl (a : ObjectKey) : ¬ PlaceLess a a := by
  rintro (h | ⟨_, h⟩)
  · exact namespaceLess_irrefl _ h
  · exact KeyOrder.irrefl _ h

theorem placeLess_trans {a b c : ObjectKey} (ab : PlaceLess a b) (bc : PlaceLess b c) :
    PlaceLess a c := by
  rcases ab with ab | ⟨e, ab⟩
  · rcases bc with bc | ⟨e', _⟩
    · exact .inl (namespaceLess_trans ab bc)
    · exact .inl (e' ▸ ab)
  · rcases bc with bc | ⟨e', bc⟩
    · exact .inl (e ▸ bc)
    · exact .inr ⟨e.trans e', KeyOrder.trans ab bc⟩

theorem place_eq {a b : ObjectKey} (ab : ¬ PlaceLess a b) (ba : ¬ PlaceLess b a) :
    a.ns? = b.ns? ∧ a.name = b.name := by
  have e := namespaceLess_antisymm (fun h => ab (.inl h)) (fun h => ba (.inl h))
  exact ⟨e, KeyOrder.antisymm (fun h => ab (.inr ⟨e, h⟩)) (fun h => ba (.inr ⟨e.symm, h⟩))⟩

instance : KeyOrder ObjectKey where
  irrefl a := lex_irrefl (lex_irrefl (lex_irrefl (placeLess_irrefl a)))
  trans := lex_trans (lex_trans (lex_trans placeLess_trans))
  antisymm {a b} ab ba := by
    obtain ⟨group, h, h'⟩ := lex_antisymm ab ba
    obtain ⟨version, h, h'⟩ := lex_antisymm h h'
    obtain ⟨kind, h, h'⟩ := lex_antisymm h h'
    obtain ⟨ns, name⟩ := place_eq h h'
    cases a; cases b; simp_all

/-- The distinct keys of a list, in order. -/
def sorted (keys : List ObjectKey) : List ObjectKey :=
  (SortedMap.ofList (keys.map fun k => (k, ()))).keys

end ObjectKey

end DesiredState
