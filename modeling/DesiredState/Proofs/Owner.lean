import DesiredState.Proofs.Object.Metadata
import DesiredState.Proofs.Status
import DesiredState.Tenant.Basic

/-!
# Owners read back

What is known of any kind of owners (`LawfulOwner`): its metadata and its status are read from the
members of those names. So an owner whose status was written reads as the same owner with that
status (`reread`), and tenants are such owners.
-/

namespace DesiredState

open Json

theorem Except.bind_eq_ok {ε α β : Type} {x : Except ε α} {f : α → Except ε β} {b : β} :
    (x >>= f) = .ok b ↔ ∃ a, x = .ok a ∧ f a = .ok b := by
  cases x with
  | error e => exact ⟨nofun, fun ⟨_, h, _⟩ => nomatch h⟩
  | ok a => exact ⟨fun h => ⟨a, rfl, h⟩, fun ⟨_, h, h'⟩ => Except.ok.inj h ▸ h'⟩

/-- A status that states its readiness is read so. -/
theorem OwnerStatus.ready_of_decode {members : Object} {status : OwnerStatus} {b : Bool}
    (h : OwnerStatus.decode (.obj members) = .ok status)
    (stated : members.get? "ready" = some (.bool b)) : status.ready = b := by
  unfold OwnerStatus.decode at h
  simp only [Except.bind_eq_ok] at h
  obtain ⟨_, object, flag, read, _, -, _, -, _, -, eq⟩ := h
  obtain rfl := Except.ok.inj object
  obtain rfl := Except.ok.inj eq
  unfold Object.withDefault at read
  rw [stated] at read
  exact (Except.ok.inj read).symm

/-- Another version changes nothing else in the metadata that are read. -/
theorem Metadata.decode_insert_version {m : Object} {x : Metadata}
    (h : Metadata.decode (.obj m) = .ok x) (version : String) :
    Metadata.decode (.obj (SortedMap.insert m "resourceVersion" (.str version))) =
      .ok { x with resourceVersion := some version } := by
  have other : ∀ {α : Type} {d : Decoder α} {name : String}, name ≠ "resourceVersion" →
      Object.optional (SortedMap.insert m "resourceVersion" (.str version)) name d =
        Object.optional m name d := fun ne =>
    Object.optional_congr (by rw [SortedMap.get?_insert, if_neg ne])
  have there : Object.optional (SortedMap.insert m "resourceVersion" (.str version))
      "resourceVersion" Decoder.string = .ok (some version) :=
    Object.optional_of_get? (v := .str version) (by rw [SortedMap.get?_insert, if_pos rfl]) rfl
  unfold Metadata.decode at h ⊢
  simp only [Except.bind_eq_ok] at h ⊢
  refine ⟨_, rfl, ?_⟩
  simp (disch := decide) only [other, there]
  obtain ⟨_, ho, _, h1, _, h2, _, h3, _, h4, _, h5, _, h6, _, h7, _, h8, _, h9, _, h10, _,
    h11, _, h12, _, -, _, h14, _, h15, hx⟩ := h
  obtain rfl := Except.ok.inj ho
  obtain rfl := Except.ok.inj hx
  exact ⟨_, h1, _, h2, _, h3, _, h4, _, h5, _, h6, _, h7, _, h8, _, h9, _, h10, _, h11, _,
    h12, _, rfl, _, h14, _, h15, rfl⟩

/-- A live owner after a write of its status. -/
def Owner.rewritten (live : Json) (status : OwnerStatus) (version : String) : Json :=
  (live.setMember "status" status.encode).updateMember "metadata"
    (·.insert "resourceVersion" (.str version))

/-- Owners whose metadata and status are read from the members of those names, each for itself. -/
class LawfulOwner (ω : Type) [Owner ω] : Prop where
  metadata : ∀ {j : Json} {o : ω}, Owner.decode j = .ok o →
    ∃ m, j.member? "metadata" = some m ∧ Metadata.decode m = .ok (Owner.metadata o)
  status : ∀ {fields : Object} {o : ω}, Owner.decode (.obj fields) = .ok o →
    fields.optional "status" OwnerStatus.decode = .ok (Owner.status? o)
  /-- The other members of an owner that can be read are not in the way of reading it. -/
  others : ∀ {fields fields' m : Object} {x : Metadata} {o : ω} {status : Option OwnerStatus},
    Owner.decode (.obj fields) = .ok o →
    (∀ k, k ≠ "metadata" → k ≠ "status" → fields'.get? k = fields.get? k) →
    fields'.get? "metadata" = some (.obj m) → Metadata.decode (.obj m) = .ok x →
    fields'.optional "status" OwnerStatus.decode = .ok status →
    ∃ o' : ω, Owner.decode (.obj fields') = .ok o'

namespace Owner

variable {ω : Type} [Owner ω]

/-- The second owner is the first one, perhaps as it reads after a write of its status. -/
def Akin (o o' : ω) : Prop :=
  o' = o ∨ ∃ live status version, decode live = .ok o ∧
    decode (rewritten live status version) = .ok o'

section Rewritten

variable {live : Json} (h : live.hasMetadata = true) (status : OwnerStatus) (version : String)

include h in
theorem member?_rewritten {k : String} (metadata : k ≠ "metadata") :
    (rewritten live status version).member? k =
      if k = "status" then some status.encode else live.member? k := by
  have there := (metadata_setMember status.encode (by decide : "status" ≠ "metadata") h).1
  rw [rewritten, member?_updateMetadata _ (isObject_of_hasMetadata there) metadata]
  obtain ⟨fields, rfl⟩ := eq_obj_of_isObject (isObject_of_hasMetadata h)
  exact member?_setMember fields "status" status.encode k

include h in
theorem metadata_rewritten :
    (rewritten live status version).hasMetadata = true ∧
      (rewritten live status version).metadataFields =
        SortedMap.insert live.metadataFields "resourceVersion" (.str version) := by
  obtain ⟨there, fields⟩ :=
    metadata_setMember status.encode (by decide : "status" ≠ "metadata") h
  obtain ⟨there', fields'⟩ := metadata_updateMember
    (fun m => SortedMap.insert m "resourceVersion" (.str version)) there
  exact ⟨there', fields'.trans (by rw [fields])⟩

/-- Only the last write of a status shows. -/
theorem rewritten_rewritten (h : live.hasMetadata = true) (status status' : OwnerStatus)
    (version version' : String) :
    rewritten (rewritten live status version) status' version' =
      rewritten live status' version' := by
  obtain ⟨there, fields⟩ := metadata_rewritten h status version
  obtain ⟨there', fields'⟩ := metadata_rewritten there status' version'
  obtain ⟨there'', fields''⟩ := metadata_rewritten h status' version'
  refine eq_of_metadata there' there'' (fun k ne => ?_) fun k => ?_
  · rw [member?_rewritten there _ _ ne, member?_rewritten h _ _ ne, member?_rewritten h _ _ ne]
    split <;> rfl
  · rw [fields', fields, fields'', SortedMap.get?_insert, SortedMap.get?_insert,
      SortedMap.get?_insert]
    split <;> rfl

variable [LawfulOwner ω]

include h in
/-- After a write of its status an owner reads as before, with that status. -/
theorem reread {o : ω} (decoded : decode live = .ok o) :
    ∃ o' : ω, decode (rewritten live status version) = .ok o' ∧ status? o' = some status ∧
      metadata o' = { metadata o with resourceVersion := some version } := by
  obtain ⟨there, fields⟩ := metadata_rewritten h status version
  have before := member?_metadata h
  have after := member?_metadata there
  have look : ∀ k, k ≠ "metadata" → _ := fun k ne => member?_rewritten h status version ne
  obtain ⟨m, at_m, read⟩ := LawfulOwner.metadata decoded
  rw [before] at at_m
  obtain rfl := Option.some.inj at_m
  have reread := Metadata.decode_insert_version read version
  rw [← fields] at reread
  obtain ⟨f, rfl⟩ := eq_obj_of_isObject (isObject_of_hasMetadata h)
  obtain ⟨g, eq⟩ := eq_obj_of_isObject (isObject_of_hasMetadata there)
  rw [eq] at look after reread ⊢
  have stated : g.get? "status" = some status.encode := look "status" (by decide)
  have noted : Object.optional g "status" OwnerStatus.decode = .ok (some status) := by
    rw [Object.optional_of_get? stated rfl, OwnerStatus.decode_encode]
    rfl
  obtain ⟨o', decoded'⟩ := LawfulOwner.others decoded
    (fun k metadata status => (look k metadata).trans (if_neg status)) after reread noted
  refine ⟨o', decoded', Except.ok.inj ((LawfulOwner.status decoded').symm.trans noted), ?_⟩
  obtain ⟨m, at_m, read'⟩ := LawfulOwner.metadata decoded'
  rw [after] at at_m
  obtain rfl := Option.some.inj at_m
  exact Except.ok.inj (read'.symm.trans reread)

end Rewritten

/-! ## The same owner at another time -/

theorem hasMetadata_of_decode [LawfulOwner ω] {live : Json} {o : ω} (h : decode live = .ok o) :
    live.hasMetadata = true := by
  obtain ⟨m, there, read⟩ := LawfulOwner.metadata h
  cases m with
  | obj m => exact (hasMetadata_of_member there).1
  | _ => cases read

namespace Akin

variable {o o' : ω}

theorem refl (o : ω) : Akin o o := .inl rfl

theorem metadata [LawfulOwner ω] (h : Akin o o') :
    ∃ version, Owner.metadata o' = { Owner.metadata o with resourceVersion := version } := by
  rcases h with rfl | ⟨live, status, version, decoded, decoded'⟩
  · exact ⟨_, rfl⟩
  · obtain ⟨o'', decoded'', -, metadata⟩ :=
      reread (hasMetadata_of_decode decoded) status version decoded
    obtain rfl := Except.ok.inj (decoded'.symm.trans decoded'')
    exact ⟨_, metadata⟩

theorem identity [LawfulOwner ω] (h : Akin o o') : Owner.identity o' = Owner.identity o := by
  obtain ⟨version, metadata⟩ := h.metadata
  unfold Owner.identity key ns? name
  rw [metadata]

theorem isDeleted [LawfulOwner ω] (h : Akin o o') : Owner.isDeleted o' = Owner.isDeleted o := by
  obtain ⟨version, metadata⟩ := h.metadata
  unfold Owner.isDeleted
  rw [metadata]

end Akin

end Owner

/-! ## Tenants -/

theorem Tenant.decode_obj_iff {fields : Object} {tenant : Tenant} :
    Tenant.decode (.obj fields) = .ok tenant ↔
      fields.required "metadata" Metadata.decode = .ok tenant.metadata ∧
        fields.required "spec" TenantSpec.decode = .ok tenant.spec ∧
        fields.optional "status" OwnerStatus.decode = .ok tenant.status? := by
  unfold Tenant.decode
  simp only [Except.bind_eq_ok]
  constructor
  · rintro ⟨o, ho, metadata, h, spec, h', status, h'', eq⟩
    obtain rfl := Except.ok.inj ho
    obtain rfl := Except.ok.inj eq
    exact ⟨h, h', h''⟩
  · rintro ⟨h, h', h''⟩
    exact ⟨fields, rfl, _, h, _, h', _, h'', rfl⟩

instance : LawfulOwner Tenant where
  metadata {j o} h := by
    cases j with
    | obj fields =>
      have read := (Tenant.decode_obj_iff.1 h).1
      unfold Object.required at read
      split at read
      · rename_i m there
        exact ⟨m, there, read⟩
      · cases read
    | _ => cases h
  status h := (Tenant.decode_obj_iff.1 h).2.2
  others {fields fields' m x o status} h look there read noted := by
    obtain ⟨-, spec, -⟩ := Tenant.decode_obj_iff.1 h
    refine ⟨⟨x, o.spec, status⟩, Tenant.decode_obj_iff.2 ⟨?_, ?_, noted⟩⟩
    · rw [Object.required_of_get? there, read]
    · unfold Object.required
      rw [look "spec" (by decide) (by decide)]
      exact spec

/-- A write of the status leaves what a tenant asks for. -/
theorem Tenant.spec_of_akin {o o' : Tenant} (h : Owner.Akin o o') : o'.spec = o.spec := by
  rcases h with rfl | ⟨live, status, version, decoded, decoded'⟩
  · rfl
  · have there := Owner.hasMetadata_of_decode decoded
    have look := Owner.member?_rewritten there status version (by decide : "spec" ≠ "metadata")
    have there' := (Owner.metadata_rewritten there status version).1
    obtain ⟨f, rfl⟩ := eq_obj_of_isObject (isObject_of_hasMetadata there)
    obtain ⟨g, eq⟩ := eq_obj_of_isObject (isObject_of_hasMetadata there')
    rw [eq] at look decoded'
    have look : g.get? "spec" = f.get? "spec" := look
    have spec := (Tenant.decode_obj_iff.1 decoded).2.1
    have spec' := (Tenant.decode_obj_iff.1 decoded').2.1
    unfold Object.required at spec spec'
    rw [look] at spec'
    exact Except.ok.inj (spec'.symm.trans spec)

end DesiredState
