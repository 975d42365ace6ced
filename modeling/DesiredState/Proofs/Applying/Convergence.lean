import DesiredState.Proofs.Applying.Effect

/-!
# Applying twice

Once a wanted object was applied without a failure or a conflict, applying it again finds it as
wanted: it looks once, writes nothing and leaves every object as it is (`apply_again`).
-/

namespace DesiredState.Applier

open Json Bookkeeping Plan MemoryStore

variable {a : Applier} {wanted : Manifest} {owner : OwnerIdentity} {s t : MemoryStore}

theorem quiet_carryOut (h : Quiet s) (key : ObjectKey) (plan : Plan) :
    Quiet ((a.carryOut store key plan).run s).2 := by
  cases plan with
  | create body => exact quiet_create h key body
  | leave => exact h
  | keep => exact h
  | patch document difference => exact quiet_patch h key document

/-- An application queues no failure. -/
theorem quiet_apply (h : Quiet s) (a : Applier) (wanted : Manifest) (owner : OwnerIdentity) :
    Quiet ((a.apply store wanted owner).run s).2 := by
  rw [apply_of_get (get_of_quiet h wanted.key)]
  exact quiet_carryOut (quiet_count h .get) wanted.key _

/-- What an application comes to that finds the object formed. -/
def resting (a : Applier) (wanted : Manifest) : Applied :=
  if a.immutable.contains wanted.kind then .skippedImmutable else .unchanged

/-- An application that finds the object formed comes to nothing but a look. -/
theorem apply_of_formed {before : Option Json} {object : Json} (plain : Plain wanted.body)
    (kept : ∀ live, before = some live → live.hasMetadata = true) (quiet : Quiet s)
    (there : s.object? wanted.key = some object) (formed : Formed a wanted owner before object) :
    (a.apply store wanted owner).run s = (.succeeded (a.resting wanted), s.count .get) := by
  rw [apply_of_get (get_of_quiet quiet wanted.key), there, resting]
  cases immutable : a.immutable.contains wanted.kind with
  | true =>
    rw [of_immutable (show a.immutable.contains (wanted.ownedBy owner).kind = true from immutable)]
    rfl
  | false =>
    have agrees := formed.agrees plain kept immutable
    rw [of_agreeing
      (show a.immutable.contains (wanted.ownedBy owner).kind = false from immutable) agrees]
    rfl

/-- The second application of a manifest comes to nothing but a look. -/
theorem apply_again {applied : Applied} (accepted : Manifest.ofBody wanted.body = .ok wanted)
    (plain : isPlain wanted.body = true) (quiet : Quiet s)
    (kept : ∀ live, s.object? wanted.key = some live → live.hasMetadata = true)
    (first : (a.apply store wanted owner).run s = (.succeeded applied, t))
    (done : applied = .created ∨ (∃ difference, applied = .updated difference) ∨
      applied = .unchanged) :
    (a.apply store wanted owner).run t =
      (.succeeded (if a.immutable.contains wanted.kind then .skippedImmutable else .unchanged),
        t.count .get) := by
  have smooth : applied ≠ .conflicted := by
    rintro rfl
    rcases done with h | ⟨_, h⟩ | h <;> cases h
  obtain ⟨attempt, u, ran, effect⟩ := apply_effect a wanted owner s
  obtain ⟨rfl, rfl⟩ := Prod.mk.inj (ran.symm.trans first)
  have body := Plain.ofIsPlain (Manifest.hasMetadata_of_ofBody accepted) plain
  obtain ⟨object, there, formed⟩ := effect.formed body smooth
  have still : Quiet u := by
    have := quiet_apply quiet a wanted owner
    rwa [first] at this
  exact apply_of_formed body kept still there formed

/-! ## An instance -/

section Instance

/-- An owner of settings. -/
def team : OwnerIdentity :=
  ⟨⟨"tenancy.converge.dev", "v1alpha1", "TenantNamespace"⟩, none, "team", "team-uid"⟩

/-- Settings with these members of metadata and these data. -/
def settingsOf (place data : List (String × Json)) : Json :=
  .object [("apiVersion", .str "v1"), ("kind", .str "ConfigMap"),
    ("metadata", .object (("name", .str "settings") :: place)), ("data", .object data)]

/-- The settings that are wanted. -/
def settings : Manifest :=
  ⟨.of ⟨"", "v1", "ConfigMap"⟩ (some "team") "settings",
    settingsOf [("namespace", .str "team")] [("level", .str "debug")]⟩

/-- A store with older settings. -/
def stocked : MemoryStore :=
  (MemoryStore.empty.insert (settingsOf [("namespace", .str "team")]
    [("level", .str "info"), ("other", .str "kept")])).2

theorem apply_settings_again :
    (standard.apply store settings team).run ((standard.apply store settings team).run stocked).2 =
      (.succeeded .unchanged,
        ((standard.apply store settings team).run stocked).2.count .get) := by
  have updated : ((standard.apply store settings team).run stocked).1 =
      .succeeded (.updated ⟨1, 1, 0⟩) := by decide +kernel
  have metadata : (stocked.object? settings.key).all hasMetadata = true := by decide +kernel
  refine apply_again rfl (by decide +kernel) (fun _ => rfl) (fun live there => ?_)
    (Prod.ext updated rfl) (.inr (.inl ⟨_, rfl⟩))
  rwa [there] at metadata

end Instance

end DesiredState.Applier
