import DesiredState.Status
import Mathlib.Data.List.Nodup
import Mathlib.Tactic.Common

/-!
# Conditions that a status states

Of the conditions with one key, the first is the one that counts. Putting a condition in makes it
the one that is stated for its key and leaves the other keys alone (`stated_upsert`). A condition
that is stated already changes nothing, its date included (`upsert_of_stated`), so a status that
states all that a pass has to say is not changed by it. Whatever is put in, no condition goes away
or moves (`Continues`).
-/

namespace DesiredState

namespace Dated

variable {α κ : Type} [DecidableEq κ] {key : α → κ} {l : List (Dated α)}

/-- The content that counts for a key: that of the first value with this key. -/
def stated (key : α → κ) (k : κ) (l : List (Dated α)) : Option α :=
  (l.find? fun d => key d.content = k).map content

theorem stated_cons_of_eq {d : Dated α} {k : κ} (h : key d.content = k) (rest : List (Dated α)) :
    stated key k (d :: rest) = some d.content := by
  unfold stated
  exact congrArg (Option.map content) (List.find?_cons_of_pos (decide_eq_true h))

theorem stated_cons_of_ne {d : Dated α} {k : κ} (h : key d.content ≠ k) (rest : List (Dated α)) :
    stated key k (d :: rest) = stated key k rest := by
  unfold stated
  rw [List.find?_cons_of_neg (by rwa [decide_eq_true_eq])]

variable [DecidableEq α]

/-- Putting a value in changes what is stated for its key alone. -/
theorem stated_upsert (now : String) (item : Dated α) (l : List (Dated α)) (k : κ) :
    stated key k (upsert key now item l).1 =
      if key item.content = k then some item.content else stated key k l := by
  induction l with
  | nil =>
    split
    · rename_i same
      exact stated_cons_of_eq (d := item.stamped now) same []
    · rename_i other
      exact stated_cons_of_ne (d := item.stamped now) other []
  | cons current rest ih =>
    rw [upsert]
    by_cases here : key current.content = key item.content
    · rw [if_pos here]
      split
      · rename_i nothing
        rw [saysNothingNew, Bool.and_eq_true, decide_eq_true_eq] at nothing
        split
        · rename_i same
          rw [stated_cons_of_eq (here.trans same), nothing.1]
        · rfl
      · split
        · rename_i same
          exact stated_cons_of_eq (d := item.stamped now) same rest
        · rename_i other
          rw [stated_cons_of_ne (d := item.stamped now) other,
            stated_cons_of_ne (here ▸ other)]
    · rw [if_neg here]
      dsimp only
      by_cases first : key current.content = k
      · rw [stated_cons_of_eq first, stated_cons_of_eq first,
          if_neg fun same => here (first.trans same.symm)]
      · rw [stated_cons_of_ne first, stated_cons_of_ne first, ih]

/-- A value without a date of its own changes nothing where its content is stated already. -/
theorem upsert_of_stated {content : α} (now : String)
    (h : stated key (key content) l = some content) :
    (upsert key now (undated content) l).1 = l := by
  induction l with
  | nil => cases h
  | cons current rest ih =>
    by_cases here : key current.content = key content
    · rw [stated_cons_of_eq here] at h
      have nothing : current.saysNothingNew (undated content) = true := by
        rw [saysNothingNew, Option.some.inj h]
        exact (Bool.and_true _).trans (decide_eq_true rfl)
      have same : key current.content = key (undated content).content := here
      rw [upsert, if_pos same, if_pos nothing]
    · rw [stated_cons_of_ne here] at h
      have other : key current.content ≠ key (undated content).content := here
      rw [upsert, if_neg other]
      dsimp only
      rw [ih h]

/-! ## Keys -/

/-- The keys of values, in their order. -/
def keys (key : α → κ) (l : List (Dated α)) : List κ := l.map fun d => key d.content

/-- A value is put in place of the one with its key, or at the end. -/
theorem keys_upsert (now : String) (item : Dated α) (l : List (Dated α)) :
    keys key (upsert key now item l).1 =
      if key item.content ∈ keys key l then keys key l else keys key l ++ [key item.content] := by
  induction l with
  | nil => rfl
  | cons current rest ih =>
    rw [upsert]
    by_cases here : key current.content = key item.content
    · have mem : key item.content ∈ keys key (current :: rest) := here ▸ List.mem_cons_self
      rw [if_pos here, if_pos mem]
      split
      · rfl
      · exact congrArg (· :: keys key rest) here.symm
    · have later : key item.content ∈ keys key (current :: rest) ↔
          key item.content ∈ keys key rest :=
        List.mem_cons.trans (or_iff_right fun same => here same.symm)
      rw [if_neg here]
      show key current.content :: keys key (upsert key now item rest).1 = _
      simp only [ih, later]
      split <;> rfl

theorem keys_prefix_upsert (now : String) (item : Dated α) (l : List (Dated α)) :
    keys key l <+: keys key (upsert key now item l).1 := by
  rw [keys_upsert]
  split
  · exact List.prefix_rfl
  · exact List.prefix_append _ _

theorem nodup_keys_upsert (now : String) (item : Dated α) (unique : (keys key l).Nodup) :
    (keys key (upsert key now item l).1).Nodup := by
  rw [keys_upsert]
  split
  · exact unique
  · rename_i fresh
    exact unique.append (List.nodup_singleton _) (List.disjoint_singleton.2 fresh)

/-- Putting a value in leaves the values with other keys as they are, dates and order included. -/
theorem filter_upsert (now : String) (item : Dated α) (l : List (Dated α)) (keep : κ → Bool)
    (out : keep (key item.content) = false) :
    ((upsert key now item l).1.filter fun d => keep (key d.content)) =
      l.filter fun d => keep (key d.content) := by
  have dropped : keep (key (item.stamped now).content) = false := out
  induction l with
  | nil => simp only [upsert, List.filter_cons, dropped, Bool.false_eq_true, if_false]
  | cons current rest ih =>
    rw [upsert]
    split
    · rename_i here
      split
      · rfl
      · simp only [List.filter_cons, dropped, here, out, Bool.false_eq_true, if_false]
    · simp only [List.filter_cons, ih]

/-! ## Several values in a row -/

/-- Values were put in one after the other, each at some time. -/
inductive Recorded (key : α → κ) : List α → List (Dated α) → List (Dated α) → Prop where
  | nil (l : List (Dated α)) : Recorded key [] l l
  | cons {content : α} {rest : List α} {l l' : List (Dated α)} (now : String)
      (later : Recorded key rest (upsert key now (undated content) l).1 l') :
      Recorded key (content :: rest) l l'

namespace Recorded

variable {contents more : List α} {l' l'' : List (Dated α)}

theorem single (key : α → κ) (now : String) (content : α) (l : List (Dated α)) :
    Recorded key [content] l (upsert key now (undated content) l).1 := .cons now (.nil _)

theorem append (h : Recorded key contents l l') (h' : Recorded key more l' l'') :
    Recorded key (contents ++ more) l l'' := by
  induction h with
  | nil => exact h'
  | cons now later ih => exact .cons now (ih h')

theorem nodup (h : Recorded key contents l l') (unique : (keys key l).Nodup) :
    (keys key l').Nodup := by
  induction h with
  | nil => exact unique
  | cons now later ih => exact ih (nodup_keys_upsert now _ unique)

/-- What is stated for a key that is not among the recorded ones stays. -/
theorem stated_of_not_mem (h : Recorded key contents l l') {k : κ}
    (other : k ∉ contents.map key) : stated key k l' = stated key k l := by
  induction h with
  | nil => rfl
  | cons now later ih =>
    rw [List.map_cons, List.mem_cons, not_or] at other
    rw [ih other.2, stated_upsert]
    exact if_neg (Ne.symm other.1)

/-- Of values with distinct keys, each is stated in the end. -/
theorem stated_of_mem (h : Recorded key contents l l') (distinct : (contents.map key).Nodup)
    {content : α} (mem : content ∈ contents) : stated key (key content) l' = some content := by
  induction h with
  | nil => cases mem
  | cons now later ih =>
    rw [List.map_cons, List.nodup_cons] at distinct
    rcases List.mem_cons.1 mem with rfl | mem
    · rw [later.stated_of_not_mem distinct.1, stated_upsert]
      exact if_pos rfl
    · exact ih distinct.2 mem

/-- Values whose keys are not among the recorded ones stay as they are. -/
theorem filter_eq (h : Recorded key contents l l') (keep : κ → Bool)
    (out : ∀ content ∈ contents, keep (key content) = false) :
    (l'.filter fun d => keep (key d.content)) = l.filter fun d => keep (key d.content) := by
  induction h with
  | nil => rfl
  | cons now later ih =>
    rw [ih fun content mem => out content (List.mem_cons_of_mem _ mem)]
    exact filter_upsert now _ _ keep (out _ List.mem_cons_self)

/-- The values beyond the recorded keys stay as they are. -/
theorem beyond (h : Recorded key contents l l') :
    (l'.filter fun d => !(contents.map key).contains (key d.content)) =
      l.filter fun d => !(contents.map key).contains (key d.content) := by
  refine h.filter_eq (fun k => !(contents.map key).contains k) fun content mem => ?_
  rw [Bool.not_eq_false', List.contains_iff_mem]
  exact List.mem_map_of_mem mem

end Recorded

end Dated

namespace OwnerStatus

variable {s : OwnerStatus}

/-- The status has this to say of a phase. -/
def StatesPhase (s : OwnerStatus) (report : PhaseReport) : Prop :=
  Dated.stated PhaseReport.phase report.phase s.conditions = some report

/-- The status has this to say of a resource. -/
def StatesResource (s : OwnerStatus) (report : ResourceReport) : Prop :=
  Dated.stated ResourceReport.resource report.resource s.resources = some report

theorem statesPhase_setPhase (s : OwnerStatus) (now : String) (report : PhaseReport) :
    (s.setPhase now (.undated report)).1.StatesPhase report :=
  (Dated.stated_upsert now (.undated report) s.conditions report.phase).trans (if_pos rfl)

theorem statesPhase_setPhase_of_ne {report other : PhaseReport} (h : s.StatesPhase other)
    (ne : report.phase ≠ other.phase) (now : String) :
    (s.setPhase now (.undated report)).1.StatesPhase other :=
  (Dated.stated_upsert now (.undated report) s.conditions other.phase).trans
    ((if_neg ne).trans h)

theorem setPhase_of_states {report : PhaseReport} (h : s.StatesPhase report) (now : String) :
    (s.setPhase now (.undated report)).1 = s := by
  show { s with conditions := (Dated.upsert PhaseReport.phase now _ s.conditions).1 } = s
  rw [Dated.upsert_of_stated now h]

theorem statesResource_setResource (s : OwnerStatus) (now : String) (report : ResourceReport) :
    (s.setResource now (.undated report)).1.StatesResource report :=
  (Dated.stated_upsert now (.undated report) s.resources report.resource).trans (if_pos rfl)

theorem statesResource_setResource_of_ne {report other : ResourceReport}
    (h : s.StatesResource other) (ne : report.resource ≠ other.resource) (now : String) :
    (s.setResource now (.undated report)).1.StatesResource other :=
  (Dated.stated_upsert now (.undated report) s.resources other.resource).trans
    ((if_neg ne).trans h)

theorem setResource_of_states {report : ResourceReport} (h : s.StatesResource report)
    (now : String) : (s.setResource now (.undated report)).1 = s := by
  show { s with resources := (Dated.upsert ResourceReport.resource now _ s.resources).1 } = s
  rw [Dated.upsert_of_stated now h]

/-! ## Conditions of phases -/

/-- No two conditions are of the same phase. -/
def OnePerPhase (s : OwnerStatus) : Prop := (Dated.keys PhaseReport.phase s.conditions).Nodup

instance (s : OwnerStatus) : Decidable s.OnePerPhase := inferInstanceAs (Decidable (List.Nodup _))

/-- The conditions of phases other than these, in order. -/
def conditionsBeyond (names : List String) (s : OwnerStatus) : List PhaseCondition :=
  s.conditions.filter fun c => !names.contains c.content.phase

/-- The later status comes from the earlier one by noting reports of phases, one after the other.
Of what else a status says, nothing is asked. -/
def Notes (reports : List PhaseReport) (s t : OwnerStatus) : Prop :=
  Dated.Recorded PhaseReport.phase reports s.conditions t.conditions

namespace Notes

variable {t : OwnerStatus} {reports : List PhaseReport}

theorem onePerPhase (h : Notes reports s t) (unique : s.OnePerPhase) : t.OnePerPhase :=
  h.nodup unique

theorem statesPhase (h : Notes reports s t) (distinct : (reports.map PhaseReport.phase).Nodup)
    {report : PhaseReport} (mem : report ∈ reports) : t.StatesPhase report :=
  h.stated_of_mem distinct mem

theorem conditionsBeyond (h : Notes reports s t) :
    t.conditionsBeyond (reports.map PhaseReport.phase) =
      s.conditionsBeyond (reports.map PhaseReport.phase) :=
  Dated.Recorded.beyond h

end Notes

/-! ## Conditions over time -/

/-- No two conditions are of the same phase or of the same resource. -/
structure Unique (s : OwnerStatus) : Prop where
  phases : s.OnePerPhase
  resources : (Dated.keys ResourceReport.resource s.resources).Nodup

instance (s : OwnerStatus) : Decidable s.Unique :=
  decidable_of_iff (s.OnePerPhase ∧ (Dated.keys ResourceReport.resource s.resources).Nodup)
    ⟨fun h => ⟨h.1, h.2⟩, fun h => ⟨h.phases, h.resources⟩⟩

/-- The later status has all conditions of the earlier one at their places, new ones come after
them, and what was created stays so. -/
structure Continues (s t : OwnerStatus) : Prop where
  phases : Dated.keys PhaseReport.phase s.conditions <+: Dated.keys PhaseReport.phase t.conditions
  resources : Dated.keys ResourceReport.resource s.resources <+:
    Dated.keys ResourceReport.resource t.resources
  created : ∀ key, s.wasCreated key = true → t.wasCreated key = true

namespace Continues

variable {t u : OwnerStatus}

theorem refl (s : OwnerStatus) : s.Continues s :=
  ⟨List.prefix_rfl, List.prefix_rfl, fun _ => id⟩

theorem trans (h : s.Continues t) (h' : t.Continues u) : s.Continues u :=
  ⟨h.phases.trans h'.phases, h.resources.trans h'.resources,
    fun key marked => h'.created key (h.created key marked)⟩

end Continues

theorem continues_setPhase (s : OwnerStatus) (now : String) (report : PhaseReport) :
    s.Continues (s.setPhase now (.undated report)).1 :=
  ⟨Dated.keys_prefix_upsert now _ s.conditions, List.prefix_rfl, fun _ => id⟩

theorem unique_setPhase (unique : s.Unique) (now : String) (report : PhaseReport) :
    (s.setPhase now (.undated report)).1.Unique :=
  ⟨Dated.nodup_keys_upsert now _ unique.phases, unique.resources⟩

theorem wasCreated_eq (s : OwnerStatus) (key : ObjectKey) :
    s.wasCreated key =
      ((Dated.stated ResourceReport.resource key s.resources).map ResourceReport.created).getD
        false := by
  unfold wasCreated resource? Dated.stated
  cases s.resources.find? fun c => c.content.resource = key <;> rfl

theorem wasCreated_setResource (s : OwnerStatus) (now : String) (report : ResourceReport)
    (key : ObjectKey) :
    (s.setResource now (.undated report)).1.wasCreated key =
      if report.resource = key then report.created else s.wasCreated key := by
  have look :
      Dated.stated ResourceReport.resource key (s.setResource now (.undated report)).1.resources =
        if report.resource = key then some report else Dated.stated _ key s.resources :=
    Dated.stated_upsert now (.undated report) s.resources key
  rw [wasCreated_eq, wasCreated_eq, look]
  split <;> rfl

/-- A report that does not take back that its resource was created goes on with the status. -/
theorem continues_setResource (now : String) {report : ResourceReport}
    (kept : s.wasCreated report.resource = true → report.created = true) :
    s.Continues (s.setResource now (.undated report)).1 where
  phases := List.prefix_rfl
  resources := Dated.keys_prefix_upsert now _ s.resources
  created key marked := by
    rw [wasCreated_setResource]
    split
    · rename_i same
      exact kept (same ▸ marked)
    · exact marked

theorem unique_setResource (unique : s.Unique) (now : String) (report : ResourceReport) :
    (s.setResource now (.undated report)).1.Unique :=
  ⟨unique.phases, Dated.nodup_keys_upsert now _ unique.resources⟩

end OwnerStatus

end DesiredState
