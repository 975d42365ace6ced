import DesiredState.Proofs.Applying.Repetition
import DesiredState.Proofs.Owner
import DesiredState.Proofs.Reconcile.Phases

/-!
# The course of a round whose hooks are steady

Where the answers of the hooks do not depend on the store, they alone say which children a round
admits and how it ends. Whatever calls fail in it, a round leaves each admitted child as it was or
formed (`Round.reaches`) and the other objects as they are (`Round.untouched`). Where no call
fails, every admitted child is formed (`Round.forms`).
-/

namespace DesiredState

open Json Bookkeeping MemoryStore Applier

/-! ## Steady hooks -/

/-- The computations give one answer, whatever is stored. -/
def Agree {α : Type} (x y : ExceptT Error (StateM MemoryStore) α) : Prop :=
  ∀ s t, (x.run.run s).1 = (y.run.run t).1

/-- The answer of a computation that does not depend on what is stored. -/
def answer {α : Type} (x : ExceptT Error (StateM MemoryStore) α) : Result α :=
  (x.run.run default).1

/-- The answers of the hooks are the same for related owners, whatever is stored. -/
structure Hooks.Steady {ω : Type} (related : ω → ω → Prop)
    (h : Hooks (StateM MemoryStore) ω) : Prop where
  generate : ∀ {o o'}, related o o' → h.generate o = h.generate o'
  mutate : ∀ {o o'} wanted, related o o' → Agree (h.mutate o wanted) (h.mutate o' wanted)
  mayApply : ∀ {o o'} wanted, related o o' → Agree (h.mayApply o wanted) (h.mayApply o' wanted)
  ownerReady : ∀ {o o'}, related o o' → Agree (h.ownerReady o) (h.ownerReady o')

/-- The objects that are wanted are the same for related owners, whatever is stored. -/
structure Hooks.SteadyWants {ω : Type} (related : ω → ω → Prop)
    (h : Hooks (StateM MemoryStore) ω) : Prop where
  generate : ∀ {o o'}, related o o' → h.generate o = h.generate o'
  mutate : ∀ {o o'} wanted, related o o' → Agree (h.mutate o wanted) (h.mutate o' wanted)

namespace Hooks

variable {ω : Type} {h : Hooks (StateM MemoryStore) ω}

theorem Steady.wants {related : ω → ω → Prop} (steady : h.Steady related) :
    h.SteadyWants related := ⟨steady.generate, steady.mutate⟩

/-- Hooks that are steady between more owners are steady between fewer. -/
theorem Steady.mono {related fewer : ω → ω → Prop} (steady : h.Steady related)
    (sub : ∀ o o', fewer o o' → related o o') : h.Steady fewer where
  generate r := steady.generate (sub _ _ r)
  mutate wanted r := steady.mutate wanted (sub _ _ r)
  mayApply wanted r := steady.mayApply wanted (sub _ _ r)
  ownerReady r := steady.ownerReady (sub _ _ r)

end Hooks

/-- The tenants have the same identity and ask for the same. -/
def Tenant.SameRequest (o o' : Tenant) : Prop :=
  Owner.identity o' = Owner.identity o ∧ o'.spec = o.spec

/-- Hooks that only look at the identity of a tenant and at what it asks for are steady when its
status is written. -/
theorem Tenant.steady_of_sameRequest {h : Hooks (StateM MemoryStore) Tenant}
    (steady : h.Steady SameRequest) : h.Steady Owner.Akin :=
  steady.mono fun _ _ akin => ⟨akin.identity, spec_of_akin akin⟩

namespace Engine

variable {ω : Type} {e : Engine (StateM MemoryStore) ω} {owner : ω} {identity : OwnerIdentity}
  {wanted : Manifest} {l : List Manifest} {s t : MemoryStore} {result : Result Bool}
  {attempts : List Attempt}

/-! ## What is admitted -/

/-- The hook's answer on a child. -/
def allowed (e : Engine (StateM MemoryStore) ω) (owner : ω) (wanted : Manifest) : Result Bool :=
  answer (e.hooks.mayApply owner wanted)

/-- The hook lets a child be applied. -/
def admits (e : Engine (StateM MemoryStore) ω) (owner : ω) (wanted : Manifest) : Bool :=
  match e.allowed owner wanted with
  | .ok allowed => allowed
  | .error _ => false

/-- How a round ends in which no call fails. -/
def roundResult (e : Engine (StateM MemoryStore) ω) (owner : ω) : List Manifest → Result Bool
  | [] => .ok true
  | wanted :: rest =>
    match e.allowed owner wanted with
    | .ok true => e.roundResult owner rest
    | result => result

/-- The children that a round gets to apply, if no call fails. -/
def admitted (e : Engine (StateM MemoryStore) ω) (owner : ω) (l : List Manifest) :
    List Manifest := l.takeWhile (e.admits owner)

/-- Related owners get the same answers. -/
theorem allowed_congr {related : ω → ω → Prop} (steady : e.hooks.Steady related) {owner' : ω}
    (h : related owner owner') (wanted : Manifest) (s : MemoryStore) :
    ((e.hooks.mayApply owner' wanted).run.run s).1 = e.allowed owner wanted :=
  (steady.mayApply wanted h default s).symm

theorem admits_iff : e.admits owner wanted = true ↔ e.allowed owner wanted = .ok true := by
  unfold admits
  rcases e.allowed owner wanted with error | _ | _
  · exact ⟨nofun, nofun⟩
  · exact ⟨nofun, nofun⟩
  · exact ⟨fun _ => rfl, fun _ => rfl⟩

theorem admitted_cons_of (h : e.admits owner wanted = true) (rest : List Manifest) :
    e.admitted owner (wanted :: rest) = wanted :: e.admitted owner rest :=
  List.takeWhile_cons_of_pos h

theorem admitted_cons_of_not (h : e.admits owner wanted = false) (rest : List Manifest) :
    e.admitted owner (wanted :: rest) = [] :=
  List.takeWhile_cons_of_neg (by rw [h]; exact Bool.false_ne_true)

theorem mem_of_admitted (mem : wanted ∈ e.admitted owner l) : wanted ∈ l :=
  (List.takeWhile_sublist _).mem mem

theorem roundResult_cons_of (h : e.admits owner wanted = true) (rest : List Manifest) :
    e.roundResult owner (wanted :: rest) = e.roundResult owner rest := by
  rw [roundResult, admits_iff.1 h]

theorem roundResult_cons_of_not (h : e.admits owner wanted = false) (rest : List Manifest) :
    e.roundResult owner (wanted :: rest) = e.allowed owner wanted := by
  rw [roundResult]
  split
  · rename_i go
    rw [admits_iff.2 go] at h
    cases h
  · rfl

/-! ## One child -/

section Child

/-- The owner that a round runs for has the answers of another one. -/
def Heeds (e : Engine (StateM MemoryStore) ω) (owner owner' : ω) : Prop :=
  ∀ wanted s, ((e.hooks.mayApply owner' wanted).run.run s).1 = e.allowed owner wanted

variable {owner' : ω} (heeds : e.Heeds owner owner')
  (h : Child e owner' identity wanted s t result attempts)

include heeds h in
/-- The step of a child that is not admitted writes nothing and ends in the hook's answer. -/
theorem Child.refused (refused : e.admits owner wanted = false) :
    SameObjects s t ∧ result = e.allowed owner wanted := by
  cases h with
  | failed answer idle => exact ⟨idle.same, answer.symm.trans (heeds wanted s)⟩
  | waiting answer idle => exact ⟨idle.same, answer.symm.trans (heeds wanted s)⟩
  | applied answer =>
    have go := heeds wanted s
    rw [answer] at go
    rw [admits_iff.2 go.symm] at refused
    cases refused

include h in
/-- The step of a child leaves it as it was before or formed. -/
theorem Child.reaches {before : Option Json} (plain : Plain wanted.body)
    (kept : ∀ live, before = some live → live.hasMetadata = true)
    (reached : Reached e.applier wanted identity before s) :
    Reached e.applier wanted identity before t := by
  cases h with
  | failed _ idle => exact reached.congr idle.same
  | waiting _ idle => exact reached.congr idle.same
  | applied _ _ effect => exact effect.reaches plain kept reached

include h in
/-- The step of a child whose hook admits it forms the child, if no call fails. -/
theorem Child.forms {before : Option Json} (calm : e.Harmless) (discreet : e.Discreet)
    (quiet : Quiet s) (go : ((e.hooks.mayApply owner' wanted).run.run s).1 = .ok true)
    (plain : Plain wanted.body) (stamped : ∀ live, before = some live → live.isStamped = true)
    (reached : Reached e.applier wanted identity before s) :
    result = .ok true ∧ ∃ object, t.object? wanted.key = some object ∧
      Formed e.applier wanted identity before object := by
  cases h with
  | failed answer => rw [answer] at go; cases go
  | waiting answer => rw [answer] at go; cases go
  | @applied u v attempt answer ran effect =>
    have idle := Idle.ofMayApply calm owner' wanted s
    rw [answer] at idle
    obtain ⟨applied, succeeded, smooth⟩ := apply_of_quiet e.applier identity
      (idle.quiet discreet quiet) plain.hasMetadata
      fun live there => (reached.congr idle.same).isStamped plain stamped there
    rw [ran] at succeeded
    obtain rfl : attempt = .succeeded applied := succeeded
    exact ⟨rfl, effect.forms plain (fun live h => hasMetadata_of_isStamped (stamped live h))
      smooth reached⟩

end Child

/-! ## The round -/

section Round

variable {owner' : ω} (heeds : e.Heeds owner owner')
  (h : Round e owner' identity l s t result attempts)

include heeds h in
/-- A round writes under the keys of admitted children alone. -/
theorem Round.untouched {k : ObjectKey} (new : k ∉ (e.admitted owner l).map Manifest.key) :
    t.object? k = s.object? k := by
  induction h with
  | all => rfl
  | @stopped first rest s t result attempts child halt =>
    cases go : e.admits owner first with
    | true =>
      rw [admitted_cons_of go, List.map_cons, List.mem_cons, not_or] at new
      exact child.frame new.1
    | false => exact ((child.refused heeds go).1 k).symm
  | @next first rest s t u result attempts later child others ih =>
    cases go : e.admits owner first with
    | true =>
      rw [admitted_cons_of go, List.map_cons, List.mem_cons, not_or] at new
      rw [ih new.2, child.frame new.1]
    | false =>
      rw [admits_iff.2 (child.refused heeds go).2.symm] at go
      cases go

include h in
/-- A round leaves every child as it was before or formed. -/
theorem Round.reaches (distinct : (l.map Manifest.key).Nodup) (mem : wanted ∈ l)
    {before : Option Json} (plain : Plain wanted.body)
    (kept : ∀ live, before = some live → live.hasMetadata = true)
    (reached : Reached e.applier wanted identity before s) :
    Reached e.applier wanted identity before t := by
  induction h with
  | all => cases mem
  | @stopped first rest s t result attempts child halt =>
    rw [List.map_cons, List.nodup_cons] at distinct
    rcases List.mem_cons.1 mem with rfl | mem
    · exact child.reaches plain kept reached
    · have ne : wanted.key ≠ first.key := fun e => distinct.1 (e ▸ List.mem_map_of_mem mem)
      exact reached.congr_at (child.frame ne)
  | @next first rest s t u result attempts later child others ih =>
    rw [List.map_cons, List.nodup_cons] at distinct
    rcases List.mem_cons.1 mem with rfl | mem
    · exact (child.reaches plain kept reached).congr_at (others.frame distinct.1)
    · have ne : wanted.key ≠ first.key := fun e => distinct.1 (e ▸ List.mem_map_of_mem mem)
      exact ih distinct.2 mem (reached.congr_at (child.frame ne))

include heeds h in
/-- A round in which no call fails ends as the hooks say, and forms every admitted child. -/
theorem Round.forms (calm : e.Harmless) (discreet : e.Discreet) (quiet : Quiet s)
    (distinct : (l.map Manifest.key).Nodup) {before : ObjectKey → Option Json}
    (stamped : ∀ k live, before k = some live → live.isStamped = true)
    (reached : ∀ wanted ∈ e.admitted owner l,
      Plain wanted.body ∧ Reached e.applier wanted identity (before wanted.key) s) :
    result = e.roundResult owner l ∧ ∀ wanted ∈ e.admitted owner l,
      ∃ object, t.object? wanted.key = some object ∧
        Formed e.applier wanted identity (before wanted.key) object := by
  induction h with
  | all => exact ⟨rfl, nofun⟩
  | @stopped first rest s t result attempts child halt =>
    cases go : e.admits owner first with
    | true =>
      rw [admitted_cons_of go] at reached
      obtain ⟨plain, reached⟩ := reached first List.mem_cons_self
      exact absurd (child.forms calm discreet quiet ((heeds first s).trans (admits_iff.1 go)) plain
        (stamped _) reached).1 halt
    | false =>
      rw [roundResult_cons_of_not go, admitted_cons_of_not go]
      exact ⟨(child.refused heeds go).2, nofun⟩
  | @next first rest s t u result attempts later child others ih =>
    cases go : e.admits owner first with
    | true =>
      rw [roundResult_cons_of go, admitted_cons_of go]
      rw [admitted_cons_of go] at reached
      rw [List.map_cons, List.nodup_cons] at distinct
      have new : ∀ {wanted}, wanted ∈ e.admitted owner rest → wanted.key ≠ first.key :=
        fun mem eq => distinct.1 (eq ▸ List.mem_map_of_mem (mem_of_admitted mem))
      obtain ⟨ended, all⟩ := ih (child.quiet discreet quiet) distinct.2 fun wanted mem =>
        ⟨(reached wanted (List.mem_cons_of_mem first mem)).1,
          (reached wanted (List.mem_cons_of_mem first mem)).2.congr_at (child.frame (new mem))⟩
      refine ⟨ended, fun wanted mem => ?_⟩
      rcases List.mem_cons.1 mem with rfl | mem
      · obtain ⟨plain, reached⟩ := reached wanted List.mem_cons_self
        obtain ⟨-, object, there, formed⟩ := child.forms calm discreet quiet
          ((heeds wanted s).trans (admits_iff.1 go)) plain (stamped _) reached
        exact ⟨object, (others.frame distinct.1).trans there, formed⟩
      · exact all wanted mem
    | false =>
      rw [admits_iff.2 (child.refused heeds go).2.symm] at go
      cases go

end Round

end Engine

end DesiredState
