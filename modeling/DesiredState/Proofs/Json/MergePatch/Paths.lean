import DesiredState.Proofs.Json.MergePatch

/-!
# A merge patch, path by path

What a patch holds at a path through its objects is a patch of what the target holds there
(`path?_patched`). So every path of the patch tells what comes of it: a null takes its member out,
any other leaf stands as it is, and what an object of the patch does not mention is as it was
(`outcome_patched`). Patching again changes nothing (`patched_patched`), and no null member comes
in (`present_patched`).
-/

namespace DesiredState.Json

variable {p : Json}

/-! ## Patching again -/

/-- A member that was patched once stays as it is when it is patched again. -/
theorem patchedMember_patchedMember (l : Option Json) {w : Option Json}
    (ih : ∀ v, w = some v → ∀ target, patched (patched target v) v = patched target v) :
    patchedMember (patchedMember l w) w = patchedMember l w := by
  cases w with
  | none => rfl
  | some v =>
    by_cases null : v.isNull = true
    · simp [patchedMember, null]
    · simp [patchedMember, null, ih v rfl]

theorem patched_patched (target p : Json) : (target.patched p).patched p = target.patched p := by
  induction p using induction_members generalizing target with
  | leaf p _ hobj => rw [patched_leaf hobj, patched_leaf hobj]
  | arr items _ => rw [patched_leaf rfl, patched_leaf rfl]
  | obj fields ih =>
    refine eq_of_members (isObject_patched _ rfl) (isObject_patched _ rfl) fun k => ?_
    rw [member?_patched _ rfl, member?_patched _ rfl, member?_obj]
    exact patchedMember_patchedMember _ fun v there => ih k v there

/-! ## Paths -/

/-- What is below a member that is absent is absent too. -/
theorem getD_path?_getD (l : Option Json) (rest : List String) :
    ((l.getD null).path? rest).getD null = (l.bind (·.path? rest)).getD null := by
  cases l with
  | none => cases rest <;> rfl
  | some v => rfl

theorem isNull_of_path? {path : List String} {v w : Json} (there : w.path? path = some v)
    (present : v.isNull = false) : w.isNull = false := by
  cases path with
  | nil =>
    obtain rfl := Option.some.inj there
    exact present
  | cons k rest =>
    obtain ⟨_, here, _⟩ := Option.bind_eq_some_iff.1 there
    exact isNull_of_isObject (isObject_of_member here)

/-- At a path of its own, a patch is a patch of what the target holds there. -/
theorem path?_patched (target : Json) {path : List String} {v : Json}
    (there : p.path? path = some v) (present : v.isNull = false) :
    (target.patched p).path? path = some (((target.path? path).getD null).patched v) := by
  induction path generalizing target p with
  | nil =>
    obtain rfl := Option.some.inj there
    rfl
  | cons k rest ih =>
    obtain ⟨w, here, below⟩ := Option.bind_eq_some_iff.1 there
    have notNull := isNull_of_path? below present
    have member : (target.patched p).member? k =
        some (((target.member? k).getD null).patched w) := by
      rw [member?_patched _ (isObject_of_member here), here]
      simp [patchedMember, notNull]
    rw [path?_cons, member, Option.bind_some, ih _ below, getD_path?_getD, path?_cons]

/-- What comes of a patch, along the paths through its objects. -/
structure PatchOutcome (target patch result : Json) : Prop where
  /-- A null takes its member out. -/
  erased : ∀ path k, patch.path? (path ++ [k]) = some null → result.path? (path ++ [k]) = none
  /-- Any other value that is no object stands as it is. -/
  replaced : ∀ path v, patch.path? path = some v → v.isNull = false → v.isObject = false →
    result.path? path = some v
  /-- Where the patch holds an object, so does the result. -/
  joined : ∀ path fields, patch.path? path = some (obj fields) →
    ∃ others, result.path? path = some (obj others)
  /-- A member that such an object does not mention is there exactly if the target has it, through
  objects alone, and with the value that it has there. -/
  kept : ∀ path fields k, patch.path? path = some (obj fields) → fields.get? k = none →
    result.path? (path ++ [k]) = target.path? (path ++ [k])

theorem outcome_patched (target p : Json) : PatchOutcome target p (target.patched p) where
  erased path k there := by
    rw [path?_concat, Option.bind_eq_some_iff] at there
    obtain ⟨v, there, named⟩ := there
    have object := isObject_of_member named
    rw [path?_concat, path?_patched target there (isNull_of_isObject object),
      Option.bind_some, member?_patched _ object, named]
    rfl
  replaced path v there present leaf := by
    rw [path?_patched target there present, patched_leaf (asObject?_eq_none_iff.2 leaf)]
  joined path fields there := by
    rw [path?_patched target there rfl, patched_obj]
    exact ⟨_, rfl⟩
  kept path fields k there unmentioned := by
    rw [path?_concat, path?_patched target there rfl, Option.bind_some, member?_patched _ rfl,
      member?_obj, unmentioned, path?_concat]
    cases target.path? path <;> rfl

/-! ## Null members -/

theorem present_of_member? {j v : Json} {k : String} (h : j.withoutNulls = true)
    (there : j.member? k = some v) : v.isNull = false ∧ v.withoutNulls = true := by
  obtain ⟨fields, rfl⟩ := eq_obj_of_isObject (isObject_of_member there)
  exact withoutNulls_obj_iff.1 h k v there

/-- A member after a patch is one of the target, or comes from a member of the patch. -/
theorem patchedMember_eq_some {l w : Option Json} {v : Json} (h : patchedMember l w = some v) :
    (w = none ∧ l = some v) ∨
      ∃ u, w = some u ∧ u.isNull = false ∧ v = patched (l.getD null) u := by
  cases w with
  | none => exact .inl ⟨rfl, h⟩
  | some u =>
    rw [patchedMember] at h
    split at h
    · cases h
    · rename_i notNull
      exact .inr ⟨u, rfl, Bool.eq_false_iff.2 notNull, (Option.some.inj h).symm⟩

/-- A patch that is not null brings no null members in. -/
theorem present_patched {target : Json} (notNull : p.isNull = false)
    (present : target.withoutNulls = true) :
    (target.patched p).isNull = false ∧ (target.patched p).withoutNulls = true := by
  induction p using induction_members generalizing target with
  | leaf p _ hobj =>
    rw [patched_leaf hobj]
    exact ⟨notNull, by cases p <;> first | rfl | cases hobj⟩
  | arr items _ => exact ⟨rfl, rfl⟩
  | obj fields ih =>
    refine ⟨isNull_of_isObject (isObject_patched target rfl), ?_⟩
    rw [patched_obj, withoutNulls_obj_iff]
    intro k v there
    rw [← member?_obj, ← patched_obj, member?_patched _ rfl, member?_obj] at there
    rcases patchedMember_eq_some there with ⟨-, there⟩ | ⟨w, named, notNull, rfl⟩
    · exact present_of_member? present there
    · refine ih k w named notNull ?_
      cases found : target.member? k with
      | none => rfl
      | some l => exact (present_of_member? present found).2

/-- The laws of merge patches. Patching again changes nothing, and a patch that is no object takes
the place of its target. Any other patch leaves an object, which is what the patch asks for along
its own paths and as it was elsewhere, and which has a null member only if the target had one. -/
theorem patched_lawful (target patch : Json) :
    (target.patched patch).patched patch = target.patched patch ∧
      (patch.isObject = false → target.patched patch = patch) ∧
      (patch.isObject = true → (target.patched patch).isObject = true ∧
        PatchOutcome target patch (target.patched patch) ∧
        (target.withoutNulls = true → (target.patched patch).withoutNulls = true)) := by
  refine ⟨patched_patched target patch, fun leaf => ?_, fun object => ?_⟩
  · exact patched_leaf (asObject?_eq_none_iff.2 leaf)
  · exact ⟨isObject_patched target object, outcome_patched target patch,
      fun present => (present_patched (isNull_of_isObject object) present).2⟩

/-! ### An instance -/

section Instance

def workload : Json :=
  .object [("data", .str "none"),
    ("spec", .object [("paused", .bool true), ("replicas", .int 1)])]

/-- Names a member that is there and two that are not, one of them inside a new object. -/
def workloadPatch : Json :=
  .object [("data", .object [("former", .null), ("level", .str "debug")]),
    ("spec", .object [("paused", .null), ("selector", .object [("app", .null)])])]

/-- The replicas stay, the text makes room for an object, and the nulls are nowhere. -/
theorem patched_workload :
    (workload.patched workloadPatch).patched workloadPatch = workload.patched workloadPatch ∧
      (workload.patched workloadPatch).path? ["spec", "paused"] = none ∧
      (workload.patched workloadPatch).path? ["spec", "replicas"] = some (.int 1) ∧
      (∃ fields, (workload.patched workloadPatch).path? ["spec", "selector"] =
        some (.obj fields)) ∧
      (workload.patched workloadPatch).path? ["data", "level"] = some (.str "debug") ∧
      (workload.patched workloadPatch).withoutNulls = true ∧
      workload.patched (.str "none") = .str "none" := by
  obtain ⟨again, -, object⟩ := patched_lawful workload workloadPatch
  obtain ⟨-, leaf, -⟩ := patched_lawful workload (.str "none")
  obtain ⟨-, outcome, present⟩ := object rfl
  exact ⟨again, outcome.erased ["spec"] "paused" rfl,
    outcome.kept ["spec"] _ "replicas" rfl rfl,
    outcome.joined ["spec", "selector"] _ rfl,
    outcome.replaced ["data", "level"] _ rfl rfl rfl, present rfl, leaf rfl⟩

end Instance

end DesiredState.Json
