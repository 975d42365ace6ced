import DesiredState.Status
import Mathlib.Tactic.Common

/-!
# Statuses read back

A status that is written and read again is the same (`OwnerStatus.decode_encode`). A document may
say the same in other ways, with members left out or null, with more members, or in lists; what it
is read as is from then on written and read as itself (`OwnerStatus.encoding_lossless`).
-/

namespace DesiredState

namespace Object

variable {α : Type} {o : Object} {name : String} {d : Decoder α} {v : Json}

theorem required_of_get? (h : o.get? name = some v) : o.required name d = d v := by
  unfold required
  rw [h]

theorem optional_of_get? (h : o.get? name = some v) (present : v.isNull = false) :
    o.optional name d = (d v).map some := by
  unfold optional
  rw [h]
  cases v with
  | null => cases present
  | _ => rfl

/-- Only the member of this name matters. -/
theorem optional_congr {p : Object} (h : o.get? name = p.get? name) :
    o.optional name d = p.optional name d := by
  unfold optional
  rw [h]

end Object

namespace Decoder

/-- Items that are written one by one are read back one by one. -/
theorem items_map {α : Type} {d : Decoder α} {encode : α → Json}
    (h : ∀ a, d (encode a) = .ok a) (l : List α) : items d (l.map encode) = .ok l := by
  induction l with
  | nil => rfl
  | cons a rest ih =>
    rw [List.map_cons, items, h a, ih]
    rfl

end Decoder

namespace OwnerStatus

open Decoder

theorem decodePhase_encodePhase (c : PhaseCondition) : decodePhase (encodePhase c) = .ok c := by
  obtain ⟨⟨phase, state, message⟩, date⟩ := c
  have named : PhaseState.decode (.str state.text) = .ok state := PhaseState.ofText_text state
  cases date <;>
    simp [decodePhase, encodePhase, Json.object, SortedMap.ofList, Decoder.record,
      Object.required, Object.withDefault, Object.optional, Dated.dateMember, Decoder.string,
      named, pure, Except.pure, bind, Except.bind, Except.map]

theorem decodeResource_encodeResource (c : ResourceCondition) :
    decodeResource (encodeResource c) = .ok c := by
  obtain ⟨⟨⟨group, version, kind, ns, name⟩, phase, created, message⟩, date⟩ := c
  cases ns <;> cases date <;>
    simp [decodeResource, encodeResource, Json.object, SortedMap.ofList, Decoder.object,
      Object.required, Object.withDefault, Object.optional, Dated.dateMember, Decoder.string,
      Decoder.bool, ObjectKey.members, ObjectKey.ofMembers, pure, Except.pure, bind, Except.bind,
      Except.map]

/-- A status reads back as it was written. -/
theorem decode_encode (s : OwnerStatus) : decode s.encode = .ok s := by
  obtain ⟨ready, satisfied, conditions, resources⟩ := s
  have phases : Decoder.list decodePhase (.arr (conditions.map encodePhase)) = .ok conditions :=
    items_map decodePhase_encodePhase conditions
  have children : Decoder.list decodeResource (.arr (resources.map encodeResource)) =
      .ok resources := items_map decodeResource_encodeResource resources
  simp [decode, encode, Json.object, SortedMap.ofList, Decoder.record, Object.withDefault,
    Decoder.bool, phases, children, pure, Except.pure, bind, Except.bind]

/-- Statuses with one encoding are the same. -/
theorem encode_injective : Function.Injective encode := fun s t same =>
  Except.ok.inj ((decode_encode s).symm.trans ((congrArg decode same).trans (decode_encode t)))

/-- Nothing is lost in the encoding, whatever document the status was read from. -/
theorem encoding_lossless :
    (∀ s : OwnerStatus, decode s.encode = .ok s) ∧
      ∀ (v : Json) (s : OwnerStatus), decode v = .ok s →
        decode s.encode = .ok s ∧
          ∀ again, decode s.encode = .ok again → again.encode = s.encode := by
  refine ⟨decode_encode, fun v s _ => ⟨decode_encode s, fun again read => ?_⟩⟩
  rw [Except.ok.inj (read.symm.trans (decode_encode s))]

/-! ## An instance -/

section Instance

/-- A status of which the phases are written in two other ways. -/
def oddlyWritten : Json :=
  .object [("ready", .bool true),
    ("conditions", .arr [
      .arr [.str "rollout", .object [("Failed", .null)], .str "phase failed: lost"],
      .object [("phase", .str ""), ("state", .str "Pending"), ("lastModified", .null),
        ("weight", .int 3)]]),
    ("resources", .arr [
      .object [("version", .str "v1"), ("kind", .str "Namespace"), ("namespace", .str ""),
        ("name", .str "team"), ("created", .bool true), ("lastModified", .str "")],
      .object [("version", .str "v1"), ("kind", .str "Namespace"), ("namespace", .null),
        ("name", .str "team")]])]

/-- The status that is written so. -/
def oddStatus : OwnerStatus where
  ready := true
  dependenciesSatisfied := false
  conditions := [⟨⟨"rollout", .failed, "phase failed: lost"⟩, none⟩, ⟨⟨"", .pending, ""⟩, none⟩]
  resources := [⟨⟨⟨"", "v1", "Namespace", some "", "team"⟩, "", true, ""⟩, some ""⟩,
    ⟨⟨⟨"", "v1", "Namespace", none, "team"⟩, "", false, ""⟩, none⟩]

theorem oddlyWritten_settles :
    decode oddlyWritten = .ok oddStatus ∧ oddStatus.encode ≠ oddlyWritten ∧
      decode oddStatus.encode = .ok oddStatus ∧
      ∀ again, decode oddStatus.encode = .ok again → again.encode = oddStatus.encode := by
  have read : decode oddlyWritten = .ok oddStatus := by rfl
  have other : oddStatus.encode ≠ oddlyWritten := fun same => by
    have stated := congrArg (fun j : Json => (j.member? "dependenciesSatisfied").isSome) same
    revert stated
    decide
  exact ⟨read, other, encoding_lossless.2 oddlyWritten oddStatus read⟩

end Instance

end OwnerStatus

end DesiredState
