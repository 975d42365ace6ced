import DesiredState.Proofs.Reconcile.Sequence

/-!
# Rounds over the children of an owner

A round takes the resources of a pass in order. What it comes to is said on any world that the calls
of the engine have effects on, so what is not said to be called is not called. Either each resource
was admitted and applied, or one of them was held back or failed, and what comes after that one
makes no difference (`createResources_rounded`). The status says of every resource that was reached
how it ended, unless its hook failed, and all else in it is as earlier passes left it.
-/

namespace DesiredState

/-! ## Conditions of resources -/

namespace OwnerStatus

variable {s t u : OwnerStatus} {reports more : List ResourceReport}

/-- No two conditions are of the same resource. -/
def OnePerResource (s : OwnerStatus) : Prop :=
  (Dated.keys ResourceReport.resource s.resources).Nodup

instance (s : OwnerStatus) : Decidable s.OnePerResource :=
  inferInstanceAs (Decidable (List.Nodup _))

/-- The conditions of resources other than these, in order. -/
def resourcesBeyond (keys : List ObjectKey) (s : OwnerStatus) : List ResourceCondition :=
  s.resources.filter fun c => !keys.contains c.content.resource

/-- The later status comes from the earlier one by noting reports of resources, one after the other,
and by nothing else. -/
structure Marks (reports : List ResourceReport) (s t : OwnerStatus) : Prop where
  recorded : Dated.Recorded ResourceReport.resource reports s.resources t.resources
  rest : { t with resources := s.resources } = s

/-- The later status says this of resources, one condition for each, and all else is as it was, the
dates of conditions included. -/
structure Leaves (reports : List ResourceReport) (s t : OwnerStatus) : Prop where
  states : ∀ report ∈ reports, t.StatesResource report
  others : t.resourcesBeyond (reports.map ResourceReport.resource) =
    s.resourcesBeyond (reports.map ResourceReport.resource)
  unique : t.OnePerResource
  rest : { t with resources := s.resources } = s

namespace Marks

theorem nil (s : OwnerStatus) : Marks [] s s := ⟨.nil _, rfl⟩

theorem single (s : OwnerStatus) (now : String) (report : ResourceReport) :
    Marks [report] s (s.setResource now (.undated report)).1 := ⟨.single _ now report _, rfl⟩

theorem append (h : Marks reports s t) (h' : Marks more t u) : Marks (reports ++ more) s u where
  recorded := h.recorded.append h'.recorded
  rest := by
    obtain ⟨-, first⟩ := h
    obtain ⟨-, second⟩ := h'
    rw [← first, ← second]

theorem leaves (h : Marks reports s t) (distinct : (reports.map ResourceReport.resource).Nodup)
    (unique : s.OnePerResource) : Leaves reports s t where
  states _ mem := h.recorded.stated_of_mem distinct mem
  others := h.recorded.beyond
  unique := h.recorded.nodup unique
  rest := h.rest

/-- What is not reported on was created if it was before. -/
theorem wasCreated (h : Marks reports s t) {key : ObjectKey}
    (other : key ∉ reports.map ResourceReport.resource) : t.wasCreated key = s.wasCreated key := by
  rw [wasCreated_eq, wasCreated_eq, h.recorded.stated_of_not_mem other]

end Marks

end OwnerStatus

namespace Engine

open Step Progress OwnerStatus

variable {σ ω : Type} {e : Engine (StateM σ) ω} {owner : ω} {identity : OwnerIdentity}
  {p q : Progress ω} {w u v : σ} {child : Manifest} {done : List (Manifest × Applied)}

/-! ## Calls -/

/-- Children are admitted and applied, one after the other, and the clock is read after each. -/
inductive AppliesAll (e : Engine (StateM σ) ω) (owner : ω) (identity : OwnerIdentity) :
    List (Manifest × Applied) → σ → σ → Prop where
  | nil (w : σ) : AppliesAll e owner identity [] w w
  | cons {child : Manifest} {outcome : Applied} {rest : List (Manifest × Applied)} {w v v' u : σ}
      (admitted : (e.hooks.mayApply owner child).run.run w = (.ok true, v))
      (applied : (e.applier.apply e.store child identity).run v = (.succeeded outcome, v'))
      (later : AppliesAll e owner identity rest (e.now.run v').2 u) :
      AppliesAll e owner identity ((child, outcome) :: rest) w u

/-- Why a round goes no further. -/
inductive Halt where
  /-- The hook holds the child back. -/
  | waiting
  /-- The hook fails. -/
  | refused (error : Error)
  /-- The child cannot be applied. -/
  | failed (error : Error)

namespace Halt

/-- What the round then comes to. -/
def result : Halt → Result Bool
  | waiting => .ok false
  | refused error | failed error => .error error

/-- What is then said of the child, if anything. -/
def report? (key : ObjectKey) (created : Bool) : Halt → Option ResourceReport
  | waiting => some ⟨key, "WaitForResource", created, "waiting for resource dependencies"⟩
  | refused _ => none
  | failed error => some ⟨key, "PersistResource", created, error.message⟩

theorem result_ne (halt : Halt) : halt.result ≠ .ok true := by
  cases halt <;> nofun

/-- What is said then is said of the child. -/
theorem resource_report? (halt : Halt) (key : ObjectKey) (created : Bool) :
    ((halt.report? key created).toList.map ResourceReport.resource).Sublist [key] := by
  cases halt with
  | waiting | failed => exact .refl _
  | refused => exact List.nil_sublist _

end Halt

/-- A child ends the round. The store is not called unless the hook admits the child. -/
inductive Halts (e : Engine (StateM σ) ω) (owner : ω) (identity : OwnerIdentity)
    (child : Manifest) : Halt → σ → σ → Prop where
  | waiting {w v : σ} (held : (e.hooks.mayApply owner child).run.run w = (.ok false, v)) :
      Halts e owner identity child .waiting w (e.now.run v).2
  | refused {error : Error} {w v : σ}
      (refused : (e.hooks.mayApply owner child).run.run w = (.error error, v)) :
      Halts e owner identity child (.refused error) w v
  | failed {attempt : Attempt} {error : Error} {w v v' : σ}
      (admitted : (e.hooks.mayApply owner child).run.run w = (.ok true, v))
      (applied : (e.applier.apply e.store child identity).run v = (attempt, v'))
      (failed : attempt.result = .error error) :
      Halts e owner identity child (.failed error) w (e.now.run v').2

/-- What is said of a child that was applied. -/
def success (applied : Manifest × Applied) : ResourceReport :=
  ⟨applied.1.key, "PersistResource", true, applied.2.description⟩

theorem resource_success (done : List (Manifest × Applied)) :
    (done.map success).map ResourceReport.resource = (done.map Prod.fst).map Manifest.key := by
  rw [List.map_map, List.map_map]
  rfl

/-! ## One child -/

/-- The pass goes on with the same owner, and these reports are noted. -/
structure Advances (reports : List ResourceReport) (p q : Progress ω) : Prop where
  owner : q.owner = p.owner
  identity : q.identity = p.identity
  marks : Marks reports p.status q.status

theorem Advances.trans {reports more : List ResourceReport} {p q r : Progress ω}
    (h : Advances reports p q) (h' : Advances more q r) : Advances (reports ++ more) p r :=
  ⟨h'.owner.trans h.owner, h'.identity.trans h.identity, h.marks.append h'.marks⟩

theorem advances_noteResource (p : Progress ω) (now : Timestamp) (report : ResourceReport) :
    Advances [report] p (p.noteResource now report) := ⟨rfl, rfl, .single p.status now.text report⟩

theorem advances_noteAttempt (p : Progress ω) (attempt : Attempt) :
    Advances [] p (p.noteAttempt attempt) := ⟨rfl, rfl, .nil _⟩

theorem attempted_of_error {key : ObjectKey} {created : Bool} {attempt : Attempt} {error : Error}
    (h : attempt.result = .error error) : ResourceReport.attempted key created attempt =
      ⟨key, "PersistResource", created, error.message⟩ := by
  rw [ResourceReport.attempted, h]

/-- A child is admitted and applied. -/
theorem play_ensureChild_applied {outcome : Applied} {v' : σ}
    (admitted : (e.hooks.mayApply p.owner child).run.run w = (.ok true, v))
    (applied : (e.applier.apply e.store child p.identity).run v = (.succeeded outcome, v')) :
    ∃ q, play (e.ensureChild child) p w = ((.ok true, q), (e.now.run v').2) ∧
      Advances [success (child, outcome)] p q := by
  rw [play_ensureChild_admitted admitted, play_bind, play_applyChild applied]
  exact ⟨_, rfl, (advances_noteAttempt p (.succeeded outcome)).trans
    (advances_noteResource _ _ _)⟩

/-- A child that ends the round. -/
theorem play_ensureChild_halts {halt : Halt} (h : e.Halts p.owner p.identity child halt w u) :
    ∃ q, play (e.ensureChild child) p w = ((halt.result, q), u) ∧
      Advances (halt.report? child.key (p.status.wasCreated child.key)).toList p q := by
  cases h with
  | waiting held => exact ⟨_, play_ensureChild_waiting held, advances_noteResource p _ _⟩
  | refused refused => exact ⟨p, play_ensureChild_error refused, rfl, rfl, .nil _⟩
  | @failed attempt error _ _ v' admitted applied failed =>
    rw [play_ensureChild_admitted admitted, play_bind, play_applyChild applied, failed]
    refine ⟨_, rfl, ?_⟩
    rw [attempted_of_error failed]
    exact (advances_noteAttempt p attempt).trans (advances_noteResource _ _ _)

/-- A child is applied, or it ends the round. -/
theorem applied_or_halts (e : Engine (StateM σ) ω) (owner : ω) (identity : OwnerIdentity)
    (child : Manifest) (w : σ) :
    (∃ outcome v v', (e.hooks.mayApply owner child).run.run w = (.ok true, v) ∧
      (e.applier.apply e.store child identity).run v = (.succeeded outcome, v')) ∨
      ∃ halt u, e.Halts owner identity child halt w u := by
  rcases answer : (e.hooks.mayApply owner child).run.run w with ⟨error | _ | _, v⟩
  · exact .inr ⟨_, _, .refused answer⟩
  · exact .inr ⟨_, _, .waiting answer⟩
  · rcases ran : (e.applier.apply e.store child identity).run v with ⟨attempt, v'⟩
    cases attempt with
    | succeeded outcome => exact .inl ⟨outcome, v, v', rfl, ran⟩
    | notRead | notCreated | notPatched => exact .inr ⟨_, _, .failed answer ran rfl⟩

/-! ## All children -/

/-- Children that are applied are left behind by a round. -/
theorem play_ensureChildren_append (h : e.AppliesAll p.owner p.identity done w v) :
    ∃ q, Advances (done.map success) p q ∧ ∀ later,
      play (e.ensureChildren (done.map Prod.fst ++ later)) p w =
        play (e.ensureChildren later) q v := by
  generalize eq : p.owner = owner, eq' : p.identity = identity at h
  induction h generalizing p with
  | nil w => exact ⟨p, ⟨rfl, rfl, .nil _⟩, fun _ => rfl⟩
  | @cons child outcome rest w v v' u admitted applied later ih =>
    subst eq eq'
    obtain ⟨q, went, first⟩ := play_ensureChild_applied admitted applied
    obtain ⟨r, others, same⟩ := ih first.owner first.identity
    refine ⟨r, first.trans others, fun after => ?_⟩
    rw [List.map_cons, List.cons_append, ensureChildren, play_bind_ok went]
    exact same after

theorem play_ensureChildren_halts {halt : Halt} (after : List Manifest)
    (h : play (e.ensureChild child) p w = ((halt.result, q), u)) :
    play (e.ensureChildren (child :: after)) p w = ((halt.result, q), u) := by
  cases halt with
  | waiting => exact play_bind_ok h
  | refused | failed => exact play_bind_error h

/-- All children are applied, or one of them ends the round. -/
theorem appliesAll_or_halts (e : Engine (StateM σ) ω) (owner : ω) (identity : OwnerIdentity)
    (l : List Manifest) (w : σ) :
    (∃ done u, l = done.map Prod.fst ∧ e.AppliesAll owner identity done w u) ∨
      ∃ before child after halt v u, l = before.map Prod.fst ++ child :: after ∧
        e.AppliesAll owner identity before w v ∧ e.Halts owner identity child halt v u := by
  induction l generalizing w with
  | nil => exact .inl ⟨[], w, rfl, .nil w⟩
  | cons child rest ih =>
    rcases applied_or_halts e owner identity child w with
      ⟨outcome, v, v', admitted, applied⟩ | ⟨halt, u, halts⟩
    · rcases ih (e.now.run v').2 with
        ⟨done, u, rfl, later⟩ | ⟨before, stop, after, halt, x, u, rfl, later, halts⟩
      · exact .inl ⟨(child, outcome) :: done, u, rfl, .cons admitted applied later⟩
      · exact .inr ⟨(child, outcome) :: before, stop, after, halt, x, u, rfl,
          .cons admitted applied later, halts⟩
    · exact .inr ⟨[], child, rest, halt, w, u, rfl, .nil w, halts⟩

end Engine

namespace Phase

open Engine OwnerStatus

variable {σ ω : Type} {e : Engine (StateM σ) ω} {p q : Progress ω} {w u : σ}
  {result : Result Bool}

/-! ## The two ways to end -/

/-- All resources were admitted and applied, and the status says of each how that went. -/
structure AllApplied (e : Engine (StateM σ) ω) (done : List (Manifest × Applied)) (p : Progress ω)
    (w : σ) (result : Result Bool) (q : Progress ω) (u : σ) : Prop where
  resources : p.resources.manifests = done.map Prod.fst
  calls : e.AppliesAll p.owner p.identity done w u
  result : result = .ok true
  leaves : Leaves (done.map success) p.status q.status

/-- The resources before this one were admitted and applied, and this one ended the phase. Nothing
else was called, so whatever comes after it makes no difference. -/
structure HaltedAt (e : Engine (StateM σ) ω) (before : List (Manifest × Applied)) (child : Manifest)
    (halt : Halt) (p : Progress ω) (w : σ) (result : Result Bool) (q : Progress ω) (u : σ) :
    Prop where
  resources : ∃ after, p.resources.manifests = before.map Prod.fst ++ child :: after
  calls : ∃ v, e.AppliesAll p.owner p.identity before w v ∧
    e.Halts p.owner p.identity child halt v u
  later : ∀ after, Step.play (e.ensureChildren (before.map Prod.fst ++ child :: after)) p w =
    ((result, q), u)
  result : result = halt.result
  leaves : Leaves (before.map success ++
    (halt.report? child.key (p.status.wasCreated child.key)).toList) p.status q.status

/-- All resources were applied, or one of them ended the phase. -/
def Rounded (e : Engine (StateM σ) ω) (p : Progress ω) (w : σ) (result : Result Bool)
    (q : Progress ω) (u : σ) : Prop :=
  Xor (∃ done, AllApplied e done p w result q u)
    (∃ before child halt, HaltedAt e before child halt p w result q u)

theorem play_createResources (e : Engine (StateM σ) ω) (p : Progress ω) (w : σ) :
    (createResources e).play p w = Step.play (e.ensureChildren p.resources.manifests) p w :=
  Step.play_bind_ok (Step.play_get p w)

theorem AllApplied.of_calls (unique : p.status.OnePerResource) {done : List (Manifest × Applied)}
    (resources : p.resources.manifests = done.map Prod.fst)
    (calls : e.AppliesAll p.owner p.identity done w u) :
    ∃ q, (createResources e).play p w = ((.ok true, q), u) ∧
      AllApplied e done p w (.ok true) q u := by
  obtain ⟨q, advances, same⟩ := play_ensureChildren_append calls
  have distinct := p.resources.distinct
  rw [resources, ← resource_success] at distinct
  refine ⟨q, ?_, resources, calls, rfl, advances.marks.leaves distinct unique⟩
  have went := same []
  rw [List.append_nil] at went
  rw [play_createResources, resources, went]
  rfl

theorem HaltedAt.of_calls (unique : p.status.OnePerResource) {before : List (Manifest × Applied)}
    {child : Manifest} {after : List Manifest} {halt : Halt} {v : σ}
    (resources : p.resources.manifests = before.map Prod.fst ++ child :: after)
    (applies : e.AppliesAll p.owner p.identity before w v)
    (halts : e.Halts p.owner p.identity child halt v u) :
    ∃ q, (createResources e).play p w = ((halt.result, q), u) ∧
      HaltedAt e before child halt p w halt.result q u := by
  obtain ⟨p', advances, same⟩ := play_ensureChildren_append applies
  rw [← advances.owner, ← advances.identity] at halts
  obtain ⟨q, halted, more⟩ := play_ensureChild_halts halts
  have keys := p.resources.distinct
  rw [resources, List.map_append, List.map_cons, ← resource_success] at keys
  have new : child.key ∉ (before.map success).map ResourceReport.resource := fun old =>
    (List.nodup_append.1 keys).2.2 _ old _ List.mem_cons_self rfl
  have marks := (advances.trans more).marks
  rw [advances.marks.wasCreated new] at marks
  have distinct : ((before.map success ++
      (halt.report? child.key (p.status.wasCreated child.key)).toList).map
        ResourceReport.resource).Nodup := by
    rw [List.map_append]
    refine keys.sublist (.append_left ?_ _)
    exact (halt.resource_report? _ _).trans (List.singleton_sublist.2 List.mem_cons_self)
  have went : ∀ after, Step.play (e.ensureChildren (before.map Prod.fst ++ child :: after)) p w =
      ((halt.result, q), u) := fun after =>
    (same _).trans (play_ensureChildren_halts after halted)
  rw [advances.owner, advances.identity] at halts
  refine ⟨q, ?_, ⟨after, resources⟩, ⟨v, applies, halts⟩, went, rfl, marks.leaves distinct unique⟩
  rw [play_createResources, resources, went]

/-- The phase that applies resources ends in exactly one of two ways, whatever its hook and its
store do and whatever earlier passes left: each resource was admitted and applied, or the first of
them that was not ended it. -/
theorem createResources_rounded (e : Engine (StateM σ) ω) (p : Progress ω) (w : σ)
    (unique : p.status.OnePerResource) :
    ∃ result q u, (createResources e).play p w = ((result, q), u) ∧ Rounded e p w result q u := by
  rcases appliesAll_or_halts e p.owner p.identity p.resources.manifests w with
    ⟨done, u, resources, calls⟩ | ⟨before, child, after, halt, v, u, resources, applies, halts⟩
  · obtain ⟨q, went, applied⟩ := AllApplied.of_calls unique resources calls
    refine ⟨_, q, u, went, .inl ⟨⟨done, applied⟩, ?_⟩⟩
    rintro ⟨_, _, halt, halted⟩
    exact halt.result_ne halted.result.symm
  · obtain ⟨q, went, halted⟩ := HaltedAt.of_calls unique resources applies halts
    refine ⟨_, q, u, went, .inr ⟨⟨before, child, halt, halted⟩, ?_⟩⟩
    rintro ⟨_, applied⟩
    exact halt.result_ne applied.result

/-! ### Instances -/

section Instances

/-- A wanted object of this kind that has nothing but a name. -/
def named (kind name : String) : Manifest :=
  ⟨.of ⟨"", "v1", kind⟩ (some "team") name,
    .object [("apiVersion", .str "v1"), ("kind", .str kind),
      ("metadata", .object [("name", .str name), ("namespace", .str "team")])]⟩

/-- A store that has nothing, and notes the keys that it is called for. -/
def bareStore : Store (StateM (List ObjectKey)) where
  get key := ExceptT.mk fun calls => (.ok none, calls ++ [key])
  create key body _ := ExceptT.mk fun calls => (.ok body, calls ++ [key])
  patch key patch _ := ExceptT.mk fun calls => (.ok patch, calls ++ [key])
  list _ _ := return []
  updateStatus key object _ := ExceptT.mk fun calls => (.ok object, calls ++ [key])

/-- An engine over that store whose hook notes keys as well, and holds limits back. -/
def rationingEngine : Engine (StateM (List ObjectKey)) Unit where
  store := bareStore
  applier := .standard
  rules := .standard
  hooks := { Hooks.ofGenerator fun _ => .ok [] with
    mayApply := fun _ wanted =>
      ExceptT.mk fun calls => (.ok (wanted.kind != "LimitRange"), calls ++ [wanted.key]) }
  now := pure (.ofSeconds 0)

/-- A pass over three objects. An earlier one made the limits, and something else that is no longer
wanted. -/
def rationed : Progress Unit where
  owner := ()
  key := Applier.team.key
  identity := Applier.team
  resources := .ofList [named "ConfigMap" "settings", named "LimitRange" "limits",
    named "Secret" "password"]
  status := { OwnerStatus.empty with
    resources := [⟨⟨(named "ConfigMap" "old").key, "PersistResource", true, "gone"⟩, none⟩,
      ⟨⟨(named "LimitRange" "limits").key, "PersistResource", true, "made"⟩, none⟩] }
  attempts := []

/-- The calls of that pass, in order. -/
def rationedCalls : List ObjectKey :=
  [(named "ConfigMap" "settings").key, (named "ConfigMap" "settings").key,
    (named "ConfigMap" "settings").key, (named "LimitRange" "limits").key]

/-- The limits are held back, and neither the hook nor the store is called for what comes after. -/
theorem rationed_rounded :
    rationed.status.OnePerResource ∧
      ∃ q, (createResources rationingEngine).play rationed [] = ((.ok false, q), rationedCalls) ∧
        Rounded rationingEngine rationed [] (.ok false) q rationedCalls := by
  have unique : rationed.status.OnePerResource := by decide
  obtain ⟨result, q, u, went, rounded⟩ := createResources_rounded rationingEngine rationed [] unique
  have known : ((createResources rationingEngine).play rationed []).1.1 = .ok false ∧
      ((createResources rationingEngine).play rationed []).2 = rationedCalls := by
    decide +kernel
  rw [went] at known
  obtain ⟨rfl, rfl⟩ := known
  exact ⟨unique, q, went, rounded⟩

end Instances

end Phase

end DesiredState
