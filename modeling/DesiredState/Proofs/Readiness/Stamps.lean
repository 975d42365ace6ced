import DesiredState.Proofs.Object.Stamps
import DesiredState.Proofs.Readiness.Verdicts

/-!
# Rules do not look at stamps

The rules for the built-in kinds say the same of alike objects (`blind_of_standard`): the shape of
a kind asks no more of a stamp than to be a text, and no rule reads one.
-/

namespace DesiredState

open Json MemoryStore

/-! ## Shapes -/

namespace Shape

theorem admitsMembers_congr {f g : Object} {members : List (String × Shape)}
    (h : ∀ m ∈ members, admitsMember m f = admitsMember m g) :
    admitsMembers members f = admitsMembers members g := by
  induction members with
  | nil => rfl
  | cons m rest ih =>
    rw [admitsMembers, admitsMembers, h m List.mem_cons_self,
      ih fun m' mem => h m' (List.mem_cons_of_mem m mem)]

theorem admitsMember_of_eq {f g : Object} {name : String} (h : f.get? name = g.get? name)
    (shape : Shape) : admitsMember (name, shape) f = admitsMember (name, shape) g := by
  rw [admitsMember, admitsMember, h]

/-- Whether a member is a text does not depend on the text. -/
theorem admitsMember_string {f g : Object} {name : String}
    (h : (f.get? name).map blank = (g.get? name).map blank) :
    admitsMember (name, string) f = admitsMember (name, string) g := by
  rw [admitsMember, admitsMember]
  cases hf : f.get? name with
  | none =>
    rw [hf] at h
    cases hg : g.get? name with
    | none => rfl
    | some w => rw [hg] at h; cases h
  | some v =>
    rw [hf] at h
    cases hg : g.get? name with
    | none => rw [hg] at h; cases h
    | some w =>
      rw [hg, Option.map_some, Option.map_some, Option.some.injEq] at h
      cases v <;> cases w <;> first | rfl | cases h

/-- The shape of a stamp in object metadata is that of a text. -/
theorem string_of_stamp {name : String} {shape : Shape} {members : List (String × Shape)}
    (eq : metadata = object members) (mem : (name, shape) ∈ members) (stamp : name ∈ stampNames) :
    shape = string := by
  injection eq with _ eq
  subst eq
  simp only [stampNames, List.mem_cons, List.not_mem_nil, or_false] at stamp
  rcases stamp with rfl | rfl <;> simpa [each] using mem

theorem admits_metadata {f g : Object}
    (fields : ∀ k, k ∉ stampNames → f.get? k = g.get? k)
    (stamps : ∀ k, k ∈ stampNames → (f.get? k).map blank = (g.get? k).map blank) :
    metadata.admits (obj f) = metadata.admits (obj g) := by
  obtain ⟨members, eq⟩ : ∃ members, metadata = object members := ⟨_, rfl⟩
  rw [eq, object, admits, admits]
  refine congrArg (true && ·) (admitsMembers_congr fun ⟨name, shape⟩ mem => ?_)
  by_cases stamp : name ∈ stampNames
  · rw [string_of_stamp eq mem stamp]
    exact admitsMember_string (stamps name stamp)
  · exact admitsMember_of_eq (fields name stamp) shape

/-- A shape of a kind admits alike objects alike. -/
theorem admits_ofKind {a b : Json} (alike : Alike a b) (ha : a.hasMetadata = true)
    (gvk : GroupVersionKind) {members : List (String × Shape)}
    (names : ∀ m ∈ members, m.1 ≠ "metadata") :
    (ofKind gvk members).admits a = (ofKind gvk members).admits b := by
  have hb := alike.hasMetadata ha
  have ma := member?_metadata ha
  have mb := member?_metadata hb
  obtain ⟨f, rfl⟩ := eq_obj_of_isObject (isObject_of_hasMetadata ha)
  obtain ⟨g, rfl⟩ := eq_obj_of_isObject (isObject_of_hasMetadata hb)
  have look : ∀ k, k ≠ "metadata" → f.get? k = g.get? k := fun k ne => alike.member? ne
  rw [ofKind, admits, admits]
  congr 1
  · unfold states
    simp only [List.all_cons, List.all_nil]
    rw [look "apiVersion" (by decide), look "kind" (by decide)]
  · rw [admitsMembers, admitsMembers]
    congr 1
    · rw [member?_obj] at ma mb
      rw [admitsMember, admitsMember, ma, mb]
      exact admits_metadata (fun k ne => alike.metadata ha ne) fun k mem => alike.stamp ha mem
    · exact admitsMembers_congr fun m mem => admitsMember_of_eq (look m.1 (names m mem)) m.2

end Shape

/-! ## Rules -/

namespace Rule

/-- The rule says the same of alike objects. -/
def Blind (rule : Rule) : Prop :=
  ∀ a b expected, Alike a b → a.hasMetadata = true → rule a expected = rule b expected

theorem blind_shaped {gvk : GroupVersionKind} {members : List (String × Shape)} {rule : Rule}
    (names : ∀ m ∈ members, m.1 ≠ "metadata") (h : Blind rule) :
    Blind (shaped (.ofKind gvk members) rule) := by
  intro a b expected alike ha
  unfold shaped
  rw [Shape.admits_ofKind alike ha gvk names, h a b expected alike ha]

section Looks

variable {a b : Json} (alike : Alike a b) (ha : a.hasMetadata = true)

include alike in
theorem counter_alike (name : String) : counter a name = counter b name := by
  rw [counter, counter, intAt?, intAt?, alike.path?_of_ne (by decide)]

include alike ha in
theorem observed_alike : observed a = observed b := by
  unfold observed hasObjectAt intAt?
  rw [alike.path?_of_ne (by decide), alike.path?_metadata ha (by decide),
    alike.path?_of_ne (by decide)]

include alike in
theorem intAt?_alike {k : String} (ne : k ≠ "metadata") (bits : Nat) (rest : List String) :
    a.intAt? bits (k :: rest) = b.intAt? bits (k :: rest) := by
  rw [intAt?, intAt?, alike.path?_of_ne ne]

include alike in
theorem stringAt?_alike {k : String} (ne : k ≠ "metadata") (rest : List String) :
    a.stringAt? (k :: rest) = b.stringAt? (k :: rest) := by
  rw [stringAt?, stringAt?, alike.path?_of_ne ne]

include alike in
theorem itemsAt_alike {k : String} (ne : k ≠ "metadata") (rest : List String) :
    a.itemsAt (k :: rest) = b.itemsAt (k :: rest) := by
  rw [itemsAt, itemsAt, alike.path?_of_ne ne]

include alike in
theorem holds_alike (expected : List String) : holds a expected = holds b expected := by
  unfold holds
  refine congrArg expected.all (funext fun name => ?_)
  rw [stringAt?_alike alike (by decide)]

end Looks

theorem blind_namespace : Blind «namespace» := by
  refine blind_shaped (by decide) fun a b expected alike ha => ?_
  rw [stringAt?_alike alike (by decide)]

theorem blind_deployment : Blind deployment := by
  refine blind_shaped (by decide) fun a b expected alike ha => ?_
  rw [observed_alike alike ha, counter_alike alike, intAt?_alike alike (by decide)]

theorem blind_statefulSet : Blind statefulSet := by
  refine blind_shaped (by decide) fun a b expected alike ha => ?_
  simp only [observed_alike alike ha, counter_alike alike,
    intAt?_alike alike (by decide : "spec" ≠ _)]

theorem blind_daemonSet : Blind daemonSet := by
  refine blind_shaped (by decide) fun a b expected alike ha => ?_
  unfold hasObjectAt
  simp only [counter_alike alike, alike.path?_of_ne (by decide : "status" ≠ _)]

theorem blind_job : Blind job := by
  refine blind_shaped (by decide) fun a b expected alike ha => ?_
  have name : a.stringAt? ["metadata", "name"] = b.stringAt? ["metadata", "name"] := by
    rw [stringAt?, stringAt?, alike.path?_metadata ha (by decide)]
  simp only [counter_alike alike, itemsAt_alike alike (by decide : "status" ≠ _),
    stringAt?_alike alike (by decide : "status" ≠ _), name]

theorem blind_service : Blind service := by
  refine blind_shaped (by decide) fun a b expected alike ha => ?_
  simp only [itemsAt_alike alike (by decide : "status" ≠ _),
    stringAt?_alike alike (by decide : "spec" ≠ _)]

theorem blind_secret : Blind secret := by
  refine blind_shaped (by decide) fun a b expected alike ha => ?_
  rw [holds_alike alike]

theorem blind_configMap : Blind configMap := by
  refine blind_shaped (by decide) fun a b expected alike ha => ?_
  rw [holds_alike alike]

theorem blind_existence : Blind existence := fun _ _ _ _ _ => rfl

end Rule

/-! ## Rulebooks -/

namespace Rulebook

theorem blind_of_register {b : Rulebook} {l : List (GroupKind × Rule)}
    (hl : ∀ e ∈ l, Rule.Blind e.2) (hb : ∀ kind rule, b.rules.get? kind = some rule → rule.Blind)
    {kind : GroupKind} {rule : Rule}
    (h : (l.foldl (fun b e => b.register e.1 e.2) b).rules.get? kind = some rule) : rule.Blind := by
  induction l generalizing b with
  | nil => exact hb kind rule h
  | cons e rest ih =>
    refine ih (fun e' mem => hl e' (List.mem_cons_of_mem e mem)) (fun kind rule found => ?_) h
    have found : (SortedMap.insert b.rules e.1 e.2).get? kind = some rule := found
    rw [SortedMap.get?_insert] at found
    split at found
    · exact Option.some.inj found ▸ hl e List.mem_cons_self
    · exact hb kind rule found

/-- No rule of the standard rulebook looks at stamps. -/
theorem blind_of_standard {kind : GroupKind} {rule : Rule}
    (h : standard.rules.get? kind = some rule) : rule.Blind := by
  have none : ∀ kind rule, empty.rules.get? kind = some rule → Rule.Blind rule := by
    intro kind rule found
    have found : (SortedMap.empty : SortedMap GroupKind Rule).get? kind = some rule := found
    cases found
  refine blind_of_register (fun e mem => ?_) none h
  simp only [List.mem_cons, List.not_mem_nil, or_false] at mem
  rcases mem with rfl | rfl | rfl | rfl | rfl | rfl | rfl | rfl | rfl
  · exact Rule.blind_namespace
  · exact Rule.blind_deployment
  · exact Rule.blind_statefulSet
  · exact Rule.blind_daemonSet
  · exact Rule.blind_job
  · exact Rule.blind_service
  · exact Rule.blind_secret
  · exact Rule.blind_configMap
  · exact Rule.blind_existence

/-- Stores with alike objects under a key get the same verdict on it. -/
theorem verdict_alike {b : Rulebook}
    (blind : ∀ kind rule, b.rules.get? kind = some rule → rule.Blind) {s t : MemoryStore}
    {key : ObjectKey}
    (alike : Option.Rel (fun x y => Alike x y ∧ x.hasMetadata = true) (s.object? key)
      (t.object? key)) : b.verdict s key = b.verdict t key := by
  unfold verdict
  cases assigned : b.rules.get? key.groupKind with
  | none => rfl
  | some rule =>
    dsimp only
    cases hs : s.object? key with
    | none =>
      rw [hs] at alike
      cases ht : t.object? key with
      | none => rfl
      | some y => rw [ht] at alike; cases alike
    | some x =>
      rw [hs] at alike
      cases ht : t.object? key with
      | none => rw [ht] at alike; cases alike
      | some y =>
        rw [ht, Option.rel_some_some] at alike
        exact congrArg Tracked.value (blind _ _ assigned x y _ alike.1 alike.2)

end Rulebook

end DesiredState
