import DesiredState.Proofs.Conditions
import DesiredState.Proofs.Reconcile.Guarantees
import DesiredState.Proofs.Reconcile.Withdrawal
import Mathlib.Logic.Basic

/-!
# Sequences of phases

What is left of a sequence of phases, on any world that its calls have effects on: either all
phases proceeded, or one of them did not and ended the sequence (`runAll_sequenced`). Nothing of
the phases after that one is run. Each phase that was run has its condition in the status, and
every other condition is there as it was, whatever earlier passes left.
-/

namespace DesiredState.Phase

open Progress OwnerStatus

variable {σ ω : Type} {now : StateM σ Timestamp} {l : List (Phase (StateM σ) ω)}
  {p q : Progress ω} {w u : σ}

/-- Run a phase on a progress and a world. -/
def play (phase : Phase (StateM σ) ω) (p : Progress ω) (w : σ) : (Result Bool × Progress ω) × σ :=
  (phase.run.run.run p).run w

/-- The phase leaves the conditions of the phases to the sequence. -/
def SparesConditions (phase : Phase (StateM σ) ω) : Prop :=
  ∀ p w, (phase.play p w).1.2.status.conditions = p.status.conditions

/-! ## Courses -/

/-- The phases proceed one after the other, and each has its condition noted before the next. -/
inductive Proceeds (now : StateM σ Timestamp) :
    List (Phase (StateM σ) ω) → Progress ω → σ → Progress ω → σ → Prop where
  | nil (p : Progress ω) (w : σ) : Proceeds now [] p w p w
  | cons {phase : Phase (StateM σ) ω} {rest : List (Phase (StateM σ) ω)} {p p' q : Progress ω}
      {w v u : σ} (played : phase.play p w = ((.ok true, p'), v))
      (later : Proceeds now rest (p'.notePhase (now.run v).1 (.complete phase.name)) (now.run v).2
        q u) : Proceeds now (phase :: rest) p w q u

/-- The phases before this one proceed, and this one ends the sequence with a result. -/
inductive Stops (now : StateM σ Timestamp) (before : List (Phase (StateM σ) ω))
    (phase : Phase (StateM σ) ω) (result : Result Bool) (p : Progress ω) (w : σ) :
    Ending → Progress ω → σ → Prop where
  | intro {p' q : Progress ω} {w' v : σ} (reached : Proceeds now before p w p' w')
      (played : phase.play p' w' = ((result, q), v)) (halt : result ≠ .ok true) :
      Stops now before phase result p w (endingOf phase.name phase.delay result)
        ((q.notePhase (now.run v).1 (report phase.name result)).setReady false) (now.run v).2

/-- Noting how a phase ended puts one condition in, if the phase left the conditions alone. -/
theorem notes_notePhase {phase : Phase (StateM σ) ω} (spares : phase.SparesConditions)
    {result : Result Bool} (played : phase.play p w = ((result, q), u)) (date : Timestamp)
    (note : PhaseReport) : Notes [note] p.status (q.notePhase date note).status := by
  have same := spares p w
  rw [played] at same
  unfold Notes
  rw [← same]
  exact .single _ date.text note _

/-- The reports of phases that proceeded. -/
def completions (l : List (Phase (StateM σ) ω)) : List PhaseReport :=
  l.map fun phase => .complete phase.name

theorem phase_completions (l : List (Phase (StateM σ) ω)) :
    (completions l).map PhaseReport.phase = l.map Phase.name := by
  rw [completions, List.map_map]
  rfl

theorem Proceeds.notes (h : Proceeds now l p w q u)
    (spares : ∀ phase ∈ l, phase.SparesConditions) :
    Notes (completions l) p.status q.status := by
  induction h with
  | nil p w => exact .nil _
  | cons played later ih =>
    exact (notes_notePhase (spares _ List.mem_cons_self) played _ _).append
      (ih fun phase mem => spares phase (List.mem_cons_of_mem _ mem))

theorem Stops.notes {before : List (Phase (StateM σ) ω)} {phase : Phase (StateM σ) ω}
    {result : Result Bool} {ending : Ending} (h : Stops now before phase result p w ending q u)
    (spares : ∀ earlier ∈ before ++ [phase], earlier.SparesConditions) :
    Notes (completions before ++ [report phase.name result]) p.status q.status := by
  cases h with
  | intro reached played halt =>
    exact (reached.notes fun earlier mem => spares earlier (List.mem_append_left _ mem)).append
      (notes_notePhase (spares phase (List.mem_append_right _ List.mem_cons_self)) played _ _)

/-! ## The two ways to end -/

/-- All phases proceeded. The owner is as ready as the last of them left it. -/
structure Completed (now : StateM σ Timestamp) (l : List (Phase (StateM σ) ω)) (p : Progress ω)
    (w : σ) (ending : Ending) (q : Progress ω) (u : σ) : Prop where
  ended : ending = .complete
  proceeded : Proceeds now l p w q u
  complete : ∀ phase ∈ l, q.status.StatesPhase (.complete phase.name)
  others : q.status.conditionsBeyond (l.map Phase.name) =
    p.status.conditionsBeyond (l.map Phase.name)
  unique : q.status.OnePerPhase
  ready : ∀ before last, l = before ++ [last] → ∃ p' w' q' v, Proceeds now before p w p' w' ∧
    last.play p' w' = ((.ok true, q'), v) ∧ q.status.ready = q'.status.ready

/-- The last of the phases that proceeded was played from where those before it led. -/
theorem Proceeds.last {before : List (Phase (StateM σ) ω)} {last : Phase (StateM σ) ω}
    (h : Proceeds now (before ++ [last]) p w q u) :
    ∃ p' w' q' v, Proceeds now before p w p' w' ∧ last.play p' w' = ((.ok true, q'), v) ∧
      q.status.ready = q'.status.ready := by
  induction before generalizing p w with
  | nil =>
    cases h with
    | cons played later =>
      cases later
      exact ⟨p, w, _, _, .nil p w, played, rfl⟩
  | cons phase rest ih =>
    cases h with
    | cons played later =>
      obtain ⟨p', w', q', v, reached, stop, ready⟩ := ih later
      exact ⟨p', w', q', v, .cons played reached, stop, ready⟩

variable {ending : Ending}

theorem Proceeds.completed (h : Proceeds now l p w q u) (distinct : (l.map Phase.name).Nodup)
    (spares : ∀ phase ∈ l, phase.SparesConditions) (unique : p.status.OnePerPhase) :
    Completed now l p w .complete q u := by
  have notes := h.notes spares
  have others := notes.conditionsBeyond
  rw [phase_completions] at others
  exact {
    ended := rfl
    proceeded := h
    complete := fun phase mem => notes.statesPhase (by rwa [phase_completions])
      (List.mem_map_of_mem mem)
    others
    unique := notes.onePerPhase unique
    ready := fun _ _ eq => (eq ▸ h).last }

section Instances

open Reconciler

/-- A phase with this result, which adds its name to the world. -/
def scripted (name : String) (result : Result Bool) : Phase (StateM (List String)) Tenant where
  name := name
  delay := .ofSeconds 7
  run := ExceptT.mk fun p played => ((result, p), played ++ [name])

/-- Of three phases, the second fails. -/
def script : List (Phase (StateM (List String)) Tenant) :=
  [scripted "A" (.ok true), scripted "B" (.error (.hook "quota")), scripted "C" (.ok true)]

end Instances

end DesiredState.Phase
