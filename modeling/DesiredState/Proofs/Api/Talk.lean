import DesiredState.Api.Exchange
import Mathlib.Tactic.Common

/-!
# Programs as talks with a server

A talk is a program that is over or sends one request and goes on with what comes back, so a
program over any connection is a talk over the connection that only asks (`Talk.connection`). A
transcript of a talk has all its requests with the replies, and comes with the result (`Runs`): what
holds of all transcripts holds whatever the server is. One program after the other has the one
transcript after the other (`runs_bind_iff`).
-/

namespace DesiredState

/-- A request with its reply, or with the reason why there was none. -/
structure Roundtrip where
  request : Request
  reply : Except String Reply

/-- A program that is over, or sends a request and goes on with what comes back. -/
inductive Talk (α : Type) where
  | done (a : α)
  | send (request : Request) (next : Except String Reply → Talk α)

namespace Talk

variable {α β : Type}

def bind : Talk α → (α → Talk β) → Talk β
  | done a, f => f a
  | send request next, f => send request fun reply => (next reply).bind f

instance : Monad Talk where
  pure := done
  bind := bind

theorem bind_done (x : Talk α) : x >>= done = x := by
  induction x with
  | done a => rfl
  | send request next ih => exact congrArg (send request) (funext ih)

theorem bind_bind {γ : Type} (x : Talk α) (f : α → Talk β) (g : β → Talk γ) :
    x >>= f >>= g = x >>= fun a => f a >>= g := by
  induction x with
  | done a => rfl
  | send request next ih => exact congrArg (send request) (funext ih)

instance : LawfulMonad Talk :=
  LawfulMonad.mk' Talk bind_done (fun _ _ => rfl) fun x f g => bind_bind x f g

/-- The connection over which every request is asked as it is. -/
def connection : Connection Talk := fun request => send request done

/-! ## Transcripts -/

/-- The program sends these requests if they are replied to so, and is over then with this
result. -/
inductive Runs : Talk α → List Roundtrip → α → Prop where
  | done (a : α) : (done a).Runs [] a
  | send {request : Request} {next : Except String Reply → Talk α} {reply : Except String Reply}
      {log : List Roundtrip} {a : α} (later : (next reply).Runs log a) :
      (send request next).Runs (⟨request, reply⟩ :: log) a

variable {log : List Roundtrip} {a : α}

theorem runs_done_iff {b : α} : (done b).Runs log a ↔ log = [] ∧ a = b := by
  constructor
  · intro ran
    cases ran
    exact ⟨rfl, rfl⟩
  · rintro ⟨rfl, rfl⟩
    exact .done a

theorem runs_pure_iff {b : α} : (pure b : Talk α).Runs log a ↔ log = [] ∧ a = b := runs_done_iff

theorem runs_send_iff {request : Request} {next : Except String Reply → Talk α} :
    (send request next).Runs log a ↔
      ∃ reply later, log = ⟨request, reply⟩ :: later ∧ (next reply).Runs later a := by
  constructor
  · intro ran
    cases ran with
    | send later => exact ⟨_, _, rfl, later⟩
  · rintro ⟨reply, later, rfl, ran⟩
    exact .send ran

/-- One program after the other has the one transcript after the other. -/
theorem runs_bind_iff {x : Talk α} {f : α → Talk β} {b : β} :
    (x >>= f).Runs log b ↔
      ∃ before later a, log = before ++ later ∧ x.Runs before a ∧ (f a).Runs later b := by
  induction x generalizing log with
  | done a =>
    constructor
    · exact fun ran => ⟨[], log, a, rfl, .done a, ran⟩
    · rintro ⟨before, later, a', rfl, first, rest⟩
      obtain ⟨rfl, rfl⟩ := runs_done_iff.1 first
      exact rest
  | send request next ih =>
    show (send request fun reply => next reply >>= f).Runs log b ↔ _
    rw [runs_send_iff]
    constructor
    · rintro ⟨reply, rest, rfl, ran⟩
      obtain ⟨before, later, a, rfl, first, rest⟩ := (ih reply).1 ran
      exact ⟨⟨request, reply⟩ :: before, later, a, rfl, .send first, rest⟩
    · rintro ⟨before, later, a, rfl, first, rest⟩
      obtain ⟨reply, between, rfl, begun⟩ := runs_send_iff.1 first
      exact ⟨reply, between ++ later, rfl, (ih reply).2 ⟨between, later, a, rfl, begun, rest⟩⟩

/-- A program that is over with something of its own once another one is. -/
theorem runs_map_iff {x : Talk α} {f : α → β} {b : β} :
    (f <$> x).Runs log b ↔ ∃ a, x.Runs log a ∧ b = f a := by
  rw [← bind_pure_comp, runs_bind_iff]
  constructor
  · rintro ⟨before, later, a, rfl, ran, ended⟩
    obtain ⟨rfl, rfl⟩ := runs_pure_iff.1 ended
    exact ⟨a, (List.append_nil before).symm ▸ ran, rfl⟩
  · rintro ⟨a, ran, rfl⟩
    exact ⟨log, [], a, (List.append_nil log).symm, ran, .done _⟩

/-- The replies decide what a program comes to. -/
theorem Runs.unique {x : Talk α} {b : α} (ran : x.Runs log a) (again : x.Runs log b) : a = b := by
  induction ran with
  | done a => exact (runs_done_iff.1 again).2.symm
  | send later ih =>
    cases again with
    | send later' => exact ih later'

/-! ## Scripts -/

/-- The transcript of a program with these replies, one for each of its requests. -/
def play : Talk α → List (Except String Reply) → Option (List Roundtrip × α)
  | done a, [] => some ([], a)
  | send request next, reply :: rest =>
    ((next reply).play rest).map fun (log, a) => (⟨request, reply⟩ :: log, a)
  | _, _ => none

theorem runs_of_play {d : Talk α} {replies : List (Except String Reply)}
    (played : d.play replies = some (log, a)) : d.Runs log a := by
  induction d generalizing log replies with
  | done b =>
    cases replies with
    | nil =>
      cases played
      exact .done a
    | cons => cases played
  | send request next ih =>
    cases replies with
    | nil => cases played
    | cons reply rest =>
      obtain ⟨⟨later, b⟩, ran, eq⟩ := Option.map_eq_some_iff.1 played
      cases eq
      exact .send (ih reply ran)

end Talk

end DesiredState
