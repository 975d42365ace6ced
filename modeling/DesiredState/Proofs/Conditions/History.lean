import DesiredState.Proofs.Arrivals
import DesiredState.Proofs.Conditions

/-!
# Conditions over a history

Putting a condition in tells whether the list of conditions changed, with one exception: a condition
that is there already and comes with a date of its own is taken, and changes nothing
(`OwnerStatus.set_taken_iff`).

Conditions without dates of their own may be put in for any keys, in any order and under a clock
that goes as it likes. The list then has its keys in the order of arrival, and each entry has the
date at which the last unbroken run of equal conditions for its key began
(`OwnerStatus.set_chronicled`).
-/

namespace DesiredState

namespace Dated

variable {α κ : Type} [DecidableEq κ] {key : α → κ} {k : κ} {l : List (Dated α)}

/-- The entry of a key. -/
def current? (key : α → κ) (k : κ) (l : List (Dated α)) : Option (Dated α) :=
  l.find? fun d => key d.content = k

theorem current?_cons (d : Dated α) (rest : List (Dated α)) :
    current? key k (d :: rest) = if key d.content = k then some d else current? key k rest := by
  unfold current?
  by_cases here : key d.content = k <;> simp [here]

/-! ## Runs of puts -/

/-- A value without a date of its own, and the time at which it is put in. -/
structure Put (α : Type) where
  now : String
  content : α

/-- The puts for a key, in order. -/
def putsFor (key : α → κ) (k : κ) (puts : List (Put α)) : List (Put α) :=
  puts.filter fun p => key p.content = k

/-- The puts end in an unbroken run of equal values, which `first` began after the puts `before`. -/
def RunBegins (before : List (Put α)) (first : Put α) (puts : List (Put α)) : Prop :=
  ∃ run, puts = before ++ first :: run ∧ (∀ p ∈ run, p.content = first.content) ∧
    ∀ p ∈ before.getLast?, p.content ≠ first.content

namespace RunBegins

variable {before puts : List (Put α)} {first p : Put α}

/-- The last of the puts is equal to the one that began the run. -/
theorem content_getLast (run : RunBegins before first puts) :
    ∀ p ∈ puts.getLast?, p.content = first.content := by
  obtain ⟨run, rfl, equal, -⟩ := run
  intro p last
  rw [List.getLast?_append, List.getLast?_cons, Option.some_or, Option.mem_some_iff] at last
  cases run using List.reverseRecOn with
  | nil => exact congrArg Put.content last.symm
  | append_singleton run q =>
    have : q = p := by simpa using last
    exact this ▸ equal q (by simp)

/-- An equal value goes on with the run. -/
theorem concat_of_eq (run : RunBegins before first puts) (same : p.content = first.content) :
    RunBegins before first (puts ++ [p]) := by
  obtain ⟨run, rfl, equal, other⟩ := run
  refine ⟨run ++ [p], by simp, fun q mem => ?_, other⟩
  rcases List.mem_append.1 mem with mem | mem
  · exact equal q mem
  · rwa [List.mem_singleton.1 mem]

/-- Another value begins a run of its own. -/
theorem concat_of_ne (run : RunBegins before first puts) (other : p.content ≠ first.content) :
    RunBegins puts p (puts ++ [p]) :=
  ⟨[], rfl, nofun, fun q last same => other (same.symm.trans (run.content_getLast q last))⟩

theorem single (p : Put α) : RunBegins [] p [p] := ⟨[], rfl, nofun, nofun⟩

theorem ne_nil (run : RunBegins before first puts) : puts ≠ [] := by
  obtain ⟨run, rfl, -⟩ := run
  simp

end RunBegins

variable [DecidableEq α]

/-! ## What is told of a change -/

/-- The entry for the key of a value is the value itself, which has a date of its own. -/
def Restated (key : α → κ) (item : Dated α) (l : List (Dated α)) : Prop :=
  item.lastModified.isSome ∧ current? key (key item.content) l = some item

/-- A value that says something new makes another entry, unless it is the entry already. -/
theorem stamped_ne_iff {current item : Dated α} (new : current.saysNothingNew item = false)
    (now : String) :
    item.stamped now ≠ current ↔ ¬ (item.lastModified.isSome ∧ current = item) := by
  obtain ⟨content, date⟩ := item
  obtain ⟨old, oldDate⟩ := current
  cases date with
  | none =>
    have other : old ≠ content := by simpa [saysNothingNew] using new
    simp [stamped, other.symm]
  | some date => simp [stamped, eq_comm]

/-- A value is taken if the list changes, or if it is the entry already and has a date of its own,
and not for both reasons. -/
theorem upsert_taken_iff (now : String) (item : Dated α) (l : List (Dated α)) :
    (upsert key now item l).2 = true ↔
      Xor ((upsert key now item l).1 ≠ l) (Restated key item l) := by
  unfold Restated
  induction l with
  | nil => simp [upsert, current?, Xor]
  | cons current rest ih =>
    rw [upsert, current?_cons]
    by_cases here : key current.content = key item.content
    · rw [if_pos here, if_pos here]
      cases new : current.saysNothingNew item with
      | true =>
        have undated : item.lastModified = none := by simp_all [saysNothingNew]
        simp [undated, Xor]
      | false =>
        have changed := stamped_ne_iff new now
        by_cases same : item.lastModified.isSome ∧ current = item <;> simp_all [Xor]
    · rw [if_neg here, if_neg here]
      simpa using ih

/-! ## Values put in one after the other -/

/-- Put values in, one after the other. -/
def putAll (key : α → κ) (puts : List (Put α)) (l : List (Dated α)) : List (Dated α) :=
  puts.foldl (fun l p => (upsert key p.now (undated p.content) l).1) l

theorem putAll_concat (puts : List (Put α)) (p : Put α) (l : List (Dated α)) :
    putAll key (puts ++ [p]) l = (upsert key p.now (undated p.content) (putAll key puts l)).1 := by
  simp [putAll]

/-- Keys stay where they are, and new ones come after them in the order of their first put. -/
theorem keys_putAll (puts : List (Put α)) (l : List (Dated α)) :
    keys key (putAll key puts l) =
      keys key l ++ ((puts.map fun p => key p.content).filter (· ∉ keys key l)).eraseDups := by
  induction puts using List.reverseRecOn with
  | nil => simp [putAll]
  | append_singleton puts p ih =>
    rw [putAll_concat, keys_upsert, ih, List.map_append, List.filter_append]
    by_cases old : key p.content ∈ keys key l
    · simp [undated, old]
    · simp only [undated, List.map_cons, List.map_nil, List.filter_cons, old, not_false_eq_true,
        decide_true, if_true, List.filter_nil, eraseDups_concat, List.mem_append, false_or,
        List.mem_eraseDups]
      split <;> simp

theorem nodup_keys_putAll (puts : List (Put α)) (unique : (keys key l).Nodup) :
    (keys key (putAll key puts l)).Nodup := by
  induction puts using List.reverseRecOn with
  | nil => exact unique
  | append_singleton puts p ih =>
    rw [putAll_concat]
    exact nodup_keys_upsert p.now _ ih

/-! ## Entries and their dates -/

/-- The entry of a key after a put for this key: what says the same keeps its date. -/
def renewed (p : Put α) : Option (Dated α) → Dated α
  | none => ⟨p.content, some p.now⟩
  | some d => if d.content = p.content then d else ⟨p.content, some p.now⟩

theorem content_renewed (p : Put α) (current : Option (Dated α)) :
    (renewed p current).content = p.content := by
  unfold renewed
  split
  · rfl
  · split
    · assumption
    · rfl

theorem current?_upsert (p : Put α) (l : List (Dated α)) (k : κ) :
    current? key k (upsert key p.now (undated p.content) l).1 =
      if key p.content = k then some (renewed p (current? key k l)) else current? key k l := by
  induction l with
  | nil => simp [upsert, current?, undated, stamped, renewed]
  | cons current rest ih =>
    rw [upsert, current?_cons]
    by_cases here : key current.content = key (undated p.content).content
    · rw [if_pos here, saysNothingNew]
      by_cases said : current.content = p.content <;> by_cases same : key p.content = k <;>
        simp_all [undated, stamped, current?_cons, renewed]
    · rw [if_neg here]
      by_cases first : key current.content = k
      · have other : key p.content ≠ k := fun same => here (first.trans same.symm)
        simp [current?_cons, first, other]
      · simp [current?_cons, first, ih]

/-- The entry of a key after puts for it, the last run of which `first` began after `before`. With
nothing before it, that run may have begun with the entry at the start. -/
def settled (start : Option (Dated α)) (before : List (Put α)) (first : Put α) : Dated α :=
  if before.isEmpty then renewed first start else ⟨first.content, some first.now⟩

theorem content_settled (start : Option (Dated α)) (before : List (Put α)) (first : Put α) :
    (settled start before first).content = first.content := by
  unfold settled
  split
  · exact content_renewed first start
  · rfl

/-- One more put for the key. What says the same as the last run leaves the entry alone, and what
says something else dates it anew. -/
theorem renewed_settled (start : Option (Dated α)) (before : List (Put α)) (first p : Put α) :
    renewed p (some (settled start before first)) =
      if p.content = first.content then settled start before first
      else ⟨p.content, some p.now⟩ := by
  rw [renewed, content_settled]
  simp only [eq_comm]

/-- Puts for other keys leave an entry alone. Otherwise the last run of puts for its key settles
it. -/
theorem current?_putAll (puts : List (Put α)) (l : List (Dated α)) (k : κ) :
    (putsFor key k puts = [] ∧ current? key k (putAll key puts l) = current? key k l) ∨
      ∃ before first, RunBegins before first (putsFor key k puts) ∧
        current? key k (putAll key puts l) = some (settled (current? key k l) before first) := by
  induction puts using List.reverseRecOn with
  | nil => exact .inl ⟨rfl, rfl⟩
  | append_singleton puts p ih =>
    rw [putAll_concat, current?_upsert, putsFor, List.filter_append, ← putsFor]
    by_cases here : key p.content = k
    · have one : [p].filter (fun p => key p.content = k) = [p] := by simp [here]
      rw [if_pos here, one]
      rcases ih with ⟨none, start⟩ | ⟨before, first, run, entry⟩
      · rw [none, start]
        exact .inr ⟨[], p, .single p, rfl⟩
      · rw [entry, renewed_settled]
        by_cases same : p.content = first.content
        · rw [if_pos same]
          exact .inr ⟨before, first, run.concat_of_eq same, rfl⟩
        · rw [if_neg same]
          refine .inr ⟨_, p, run.concat_of_ne same, ?_⟩
          simp [settled, run.ne_nil]
    · have none : [p].filter (fun p => key p.content = k) = [] := by simp [here]
      rw [if_neg here, none, List.append_nil]
      exact ih

/-! ## The whole history -/

/-- What a list is after puts. -/
structure Chronicled (key : α → κ) (l : List (Dated α)) (puts : List (Put α))
    (l' : List (Dated α)) : Prop where
  /-- No two entries have one key. -/
  unique : (keys key l').Nodup
  /-- The keys of the start, then the new ones in the order of their first put. -/
  order : keys key l' =
    keys key l ++ ((puts.map fun p => key p.content).filter (· ∉ keys key l)).eraseDups
  /-- An entry that nothing was put in for is as at the start. -/
  others : ∀ k, putsFor key k puts = [] → current? key k l' = current? key k l
  /-- An entry says what was last put in for its key. -/
  latest : ∀ k, ∀ p ∈ (putsFor key k puts).getLast?,
    (current? key k l').map content = some p.content
  /-- It has the date at which the last unbroken run of equal values began, be it with a put or
  with the entry at the start. -/
  since : ∀ k, putsFor key k puts ≠ [] →
    ∃ before first, RunBegins before first (putsFor key k puts) ∧
      current? key k l' = some (settled (current? key k l) before first)

theorem chronicled_putAll (unique : (keys key l).Nodup) (puts : List (Put α)) :
    Chronicled key l puts (putAll key puts l) where
  unique := nodup_keys_putAll puts unique
  order := keys_putAll puts l
  others k none := by
    rcases current?_putAll puts l k with ⟨-, start⟩ | ⟨before, first, run, -⟩
    · exact start
    · exact absurd none run.ne_nil
  latest k p last := by
    rcases current?_putAll puts l k with ⟨none, -⟩ | ⟨before, first, run, entry⟩
    · rw [none] at last
      cases last
    · rw [entry, Option.map_some, content_settled, run.content_getLast p last]
  since k some := (current?_putAll puts l k).resolve_left fun none => some none.1

end Dated

namespace OwnerStatus

open Dated

/-! ## Conditions of a status -/

/-- Setting a condition tells whether the conditions changed, unless the condition is there already
and has a date of its own: that is told as a change, and is none. -/
theorem set_taken_iff (s : OwnerStatus) (now : String) :
    (∀ c : PhaseCondition, (s.setPhase now c).2 = true ↔
      Xor ((s.setPhase now c).1.conditions ≠ s.conditions)
        (c.lastModified.isSome ∧ s.phase? c.content.phase = some c)) ∧
    ∀ c : ResourceCondition, (s.setResource now c).2 = true ↔
      Xor ((s.setResource now c).1.resources ≠ s.resources)
        (c.lastModified.isSome ∧ s.resource? c.content.resource = some c) :=
  ⟨fun c => upsert_taken_iff now c s.conditions, fun c => upsert_taken_iff now c s.resources⟩

/-- A status in which one phase has been pending for some time. -/
def pendingSince : OwnerStatus :=
  { empty with conditions := [⟨.pending "PreFlight", some "2021-01-01T00:00:00Z"⟩] }

/-- The same condition, with the same date, is told as a change. -/
theorem pendingSince_taken :
    (pendingSince.setPhase "1970-01-01T00:00:00Z"
        ⟨.pending "PreFlight", some "2021-01-01T00:00:00Z"⟩).2 = true ∧
      (pendingSince.setPhase "1970-01-01T00:00:00Z"
        ⟨.pending "PreFlight", some "2021-01-01T00:00:00Z"⟩).1.conditions =
          pendingSince.conditions := by decide

/-- Set conditions of phases, one after the other. -/
def setPhases (s : OwnerStatus) (puts : List (Put PhaseReport)) : OwnerStatus :=
  puts.foldl (fun s p => (s.setPhase p.now (.undated p.content)).1) s

/-- Set conditions of resources, one after the other. -/
def setResources (s : OwnerStatus) (puts : List (Put ResourceReport)) : OwnerStatus :=
  puts.foldl (fun s p => (s.setResource p.now (.undated p.content)).1) s

theorem conditions_setPhases (s : OwnerStatus) (puts : List (Put PhaseReport)) :
    (s.setPhases puts).conditions = putAll PhaseReport.phase puts s.conditions := by
  induction puts generalizing s with
  | nil => rfl
  | cons p rest ih => exact ih _

theorem resources_setResources (s : OwnerStatus) (puts : List (Put ResourceReport)) :
    (s.setResources puts).resources = putAll ResourceReport.resource puts s.resources := by
  induction puts generalizing s with
  | nil => rfl
  | cons p rest ih => exact ih _

/-- Conditions that were set over time, for phases or for resources. -/
theorem set_chronicled (s : OwnerStatus) :
    ((keys PhaseReport.phase s.conditions).Nodup → ∀ puts,
      Chronicled PhaseReport.phase s.conditions puts (s.setPhases puts).conditions) ∧
    ((keys ResourceReport.resource s.resources).Nodup → ∀ puts,
      Chronicled ResourceReport.resource s.resources puts (s.setResources puts).resources) := by
  constructor
  · intro unique puts
    rw [conditions_setPhases]
    exact chronicled_putAll unique puts
  · intro unique puts
    rw [resources_setResources]
    exact chronicled_putAll unique puts

/-- What is said of the namespace of a team. -/
def namespaceReport (created : Bool) (message : String) : ResourceReport :=
  ⟨.of ⟨"", "v1", "Namespace"⟩ none "team", "PersistResource", created, message⟩

/-- A status with a condition that has no date. -/
def rollout : OwnerStatus :=
  { empty with
    conditions := [⟨.pending "CheckReady", none⟩, ⟨.complete "PreFlight", some "08:00"⟩]
    resources := [⟨namespaceReport false "forbidden", some "08:00"⟩] }

/-- What is then set for phases, under a clock that also goes back. -/
def rolloutPhases : List (Put PhaseReport) :=
  [⟨"09:00", .complete "PreFlight"⟩, ⟨"09:10", .pending "CreateResources"⟩,
    ⟨"09:05", .complete "CreateResources"⟩, ⟨"09:20", .pending "CheckReady"⟩,
    ⟨"09:30", .complete "CreateResources"⟩]

/-- What is then set for a resource, which in the end is as it was. -/
def rolloutResources : List (Put ResourceReport) :=
  [⟨"09:00", namespaceReport true "made"⟩, ⟨"09:10", namespaceReport false "forbidden"⟩]

theorem rollout_chronicled :
    (keys PhaseReport.phase rollout.conditions).Nodup ∧
      (keys ResourceReport.resource rollout.resources).Nodup ∧
      Chronicled PhaseReport.phase rollout.conditions rolloutPhases
        [⟨.pending "CheckReady", none⟩, ⟨.complete "PreFlight", some "08:00"⟩,
          ⟨.complete "CreateResources", some "09:05"⟩] ∧
      Chronicled ResourceReport.resource rollout.resources rolloutResources
        [⟨namespaceReport false "forbidden", some "09:10"⟩] := by
  have phases : (keys PhaseReport.phase rollout.conditions).Nodup := by decide
  have resources : (keys ResourceReport.resource rollout.resources).Nodup := by decide
  exact ⟨phases, resources, (set_chronicled rollout).1 phases rolloutPhases,
    (set_chronicled rollout).2 resources rolloutResources⟩

end OwnerStatus

end DesiredState
