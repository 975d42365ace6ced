import DesiredState.Reconcile.Children

/-!
# Steps played on a world

A step of a pass is played on a progress and on a world, whatever the calls of its engine do to that
world. A step in a row with others is played on what the one before it left, unless that failed
(`play_bind`). The step of a child comes to one of four things: its hook fails, its hook holds it
back, or it is applied, and that succeeds or fails.
-/

namespace DesiredState

namespace Step

variable {σ ω α β : Type} {p q : Progress ω} {w u : σ}

/-- Run a step on a progress and a world. -/
def play (x : Step (StateM σ) ω α) (p : Progress ω) (w : σ) : (Result α × Progress ω) × σ :=
  (x.run.run p).run w

theorem play_bind (x : Step (StateM σ) ω α) (f : α → Step (StateM σ) ω β) (p : Progress ω)
    (w : σ) :
    play (x >>= f) p w =
      match play x p w with
      | ((.ok a, q), u) => play (f a) q u
      | ((.error e, q), u) => ((.error e, q), u) := by
  unfold play
  rw [ExceptT.run_bind, StateT.run_bind, StateT.run_bind]
  rcases (x.run.run p).run w with ⟨⟨result, q⟩, u⟩
  cases result <;> rfl

theorem play_bind_ok {x : Step (StateM σ) ω α} {f : α → Step (StateM σ) ω β} {a : α}
    (h : play x p w = ((.ok a, q), u)) : play (x >>= f) p w = play (f a) q u := by
  rw [play_bind, h]

theorem play_bind_error {x : Step (StateM σ) ω α} {f : α → Step (StateM σ) ω β} {e : Error}
    (h : play x p w = ((.error e, q), u)) : play (x >>= f) p w = ((.error e, q), u) := by
  rw [play_bind, h]

theorem play_get (p : Progress ω) (w : σ) :
    play (get : Step (StateM σ) ω (Progress ω)) p w = ((.ok p, p), w) := rfl

theorem play_attempt (x : ExceptT Error (StateM σ) α) (p : Progress ω) (w : σ) :
    play (attempt x) p w = (((x.run.run w).1, p), (x.run.run w).2) := rfl

theorem play_perform (x : StateM σ α) (p : Progress ω) (w : σ) :
    play (perform x) p w = ((.ok (x.run w).1, p), (x.run w).2) := rfl

end Step

/-! ## The step of a child -/

namespace Engine

open Step

variable {σ ω : Type} {e : Engine (StateM σ) ω} {wanted : Manifest} {p : Progress ω} {w v : σ}

theorem play_applyChild {attempt : Attempt}
    (h : (e.applier.apply e.store wanted p.identity).run w = (attempt, v)) :
    play (e.applyChild wanted) p w =
      ((attempt.result.map fun _ => (),
        (p.noteAttempt attempt).noteResource (e.now.run v).1
          (.attempted wanted.key (p.status.wasCreated wanted.key) attempt)), (e.now.run v).2) := by
  have ran : play (perform (e.applier.apply e.store wanted p.identity)) p w =
      ((.ok attempt, p), v) := by rw [play_perform, h]
  unfold applyChild
  rw [play_bind_ok (play_get p w), play_bind_ok ran]
  cases attempt <;> rfl

theorem play_ensureChild_admitted
    (h : (e.hooks.mayApply p.owner wanted).run.run w = (.ok true, v)) :
    play (e.ensureChild wanted) p w = play (e.applyChild wanted >>= fun _ => return true) p v := by
  have ran : play (attempt (e.hooks.mayApply p.owner wanted)) p w = ((.ok true, p), v) := by
    rw [play_attempt, h]
  unfold ensureChild
  rw [play_bind_ok (play_get p w), play_bind_ok ran]
  rfl

theorem play_ensureChild_waiting
    (h : (e.hooks.mayApply p.owner wanted).run.run w = (.ok false, v)) :
    play (e.ensureChild wanted) p w =
      ((.ok false, p.noteResource (e.now.run v).1
        (.waiting wanted.key (p.status.wasCreated wanted.key))), (e.now.run v).2) := by
  have ran : play (attempt (e.hooks.mayApply p.owner wanted)) p w = ((.ok false, p), v) := by
    rw [play_attempt, h]
  unfold ensureChild
  rw [play_bind_ok (play_get p w), play_bind_ok ran]
  rfl

theorem play_ensureChild_error {error : Error}
    (h : (e.hooks.mayApply p.owner wanted).run.run w = (.error error, v)) :
    play (e.ensureChild wanted) p w = ((.error error, p), v) := by
  have ran : play (attempt (e.hooks.mayApply p.owner wanted)) p w = ((.error error, p), v) := by
    rw [play_attempt, h]
  unfold ensureChild
  rw [play_bind_ok (play_get p w), play_bind_error ran]

end Engine

end DesiredState
