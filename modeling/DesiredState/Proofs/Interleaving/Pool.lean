import DesiredState.Proofs.Applying.Written
import DesiredState.Proofs.Interleaving.Dialogue
import DesiredState.Proofs.Store.Versions

/-!
# Clients that share a store

Any number of clients, each with one job, share a store in memory with other programs. A schedule
says who moves next; a move of a client is one call, and the log has every call with the store
before it. Whatever the schedule is, the store advances from call to call (`run_sound`), and the
calls of a client are those of its job, answered by the store (`run_trace`).
-/

namespace DesiredState

open Json MemoryStore

/-! ## Jobs -/

/-- What the job of a client came to. -/
inductive Report where
  | applied (attempt : Attempt)
  | flushed (written : Result Bool)
  deriving DecidableEq

/-- What one client has to do. -/
inductive Job : Type 1 where
  /-- Apply a manifest that was read from its body. -/
  | apply (a : Applier) (wanted : Manifest) (owner : OwnerIdentity)
      (accepted : Manifest.ofBody wanted.body = .ok wanted)
  /-- Write a status that changed onto a copy of its owner. -/
  | flush {ω : Type} (r : Reconciler Dialogue ω) (store : r.engine.store = Dialogue.store)
      (key : ObjectKey) (live : Json) (before after : OwnerStatus)

def Job.program : Job → Dialogue Report
  | .apply a wanted owner _ => .applied <$> a.apply Dialogue.store wanted owner
  | .flush r _ key live before after => .flushed <$> r.writeStatus key live before after

/-! ## Moves -/

/-- Who moves next, and how. -/
inductive Move (ι : Type) where
  /-- A client makes its next call, if its job is not over. -/
  | client (i : ι)
  /-- Another program makes a call, if it keeps the metadata of the object an object. -/
  | call (call : Call)
  | insert (object : Json)
  | touch (key : ObjectKey)
  | setStatus (key : ObjectKey) (status : Json)
  | failNext (op : Operation) (error : Error)

/-- A call with the store that it meets; the caller is none of the clients, or one of them. -/
structure Entry (ι : Type) where
  who : Option ι
  call : Call
  before : MemoryStore

namespace Entry

variable {ι : Type}

def answer (entry : Entry ι) : entry.call.Answer := (entry.before.answer entry.call).1

/-- The store after the call. -/
def after (entry : Entry ι) : MemoryStore := (entry.before.answer entry.call).2

end Entry

/-- What the call writes has metadata that are an object. -/
def MemoryStore.keepsMetadata (s : MemoryStore) : Call → Bool
  | .create _ body _ => body.hasMetadata
  | .patch key patch _ =>
    (s.object? key).all fun live => (live.patched (effective patch)).hasMetadata
  | .get _ | .list .. | .updateStatus .. => true

/-- The store, and what is left of the job of every client. -/
structure Pool (ι : Type) where
  store : MemoryStore
  client : ι → Dialogue Report

namespace Pool

variable {ι : Type} [DecidableEq ι]

/-- All clients before their jobs, and a store without objects. -/
def start (family : String) (jobs : ι → Job) : Pool ι :=
  ⟨.emptyOf family, fun i => (jobs i).program⟩

/-- A move, with the calls that it makes. -/
def move (p : Pool ι) : Move ι → List (Entry ι) × Pool ι
  | .client i =>
    match p.client i with
    | .done _ => ([], p)
    | .ask call next =>
      ([⟨some i, call, p.store⟩],
        ⟨(p.store.answer call).2,
          fun j => if j = i then next (p.store.answer call).1 else p.client j⟩)
  | .call call =>
    if p.store.keepsMetadata call then
      ([⟨none, call, p.store⟩], { p with store := (p.store.answer call).2 })
    else ([], p)
  | .insert object => ([], { p with store := (p.store.insert object).2 })
  | .touch key => ([], { p with store := (p.store.touch key).2 })
  | .setStatus key status => ([], { p with store := (p.store.setStatus key status).2 })
  | .failNext op error => ([], { p with store := p.store.failNext op error })

/-- The moves of a schedule, with all calls in their order. -/
def run : List (Move ι) → Pool ι → List (Entry ι) × Pool ι
  | [], p => ([], p)
  | m :: rest, p => ((p.move m).1 ++ (run rest (p.move m).2).1, (run rest (p.move m).2).2)

/-- The calls of a client. -/
def callsOf (i : ι) (log : List (Entry ι)) : List (Entry ι) := log.filter (·.who = some i)

end Pool

/-! ## Programs that keep metadata -/

/-- Every call that the program can make keeps metadata an object. -/
def Dialogue.Tame {α : Type} : Dialogue α → Prop
  | .done _ => True
  | .ask call next =>
    (∀ s, Valid s → s.keepsMetadata call = true) ∧ ∀ answer, (next answer).Tame

namespace Job

open Dialogue

theorem program_apply {a : Applier} {wanted : Manifest} {owner : OwnerIdentity}
    (accepted : Manifest.ofBody wanted.body = .ok wanted) :
    (Job.apply a wanted owner accepted).program =
      .ask (.get wanted.key) fun look => .applied <$> afterLook a wanted owner look := by
  show Report.applied <$> a.apply Dialogue.store wanted owner = _
  rw [apply_dialogue]
  rfl

theorem program_flush {ω : Type} {r : Reconciler Dialogue ω}
    (store : r.engine.store = Dialogue.store) (key : ObjectKey) (live : Json)
    (before after : OwnerStatus) :
    (Job.flush r store key live before after).program =
      if before = after then .done (.flushed (.ok false))
      else
        .ask (.updateStatus key (live.setMember "status" after.encode) r.engine.applier.manager)
          fun answer => .done (.flushed (writeReport answer)) := by
  show Report.flushed <$> r.writeStatus key live before after = _
  rw [writeStatus_dialogue key live before after store]
  split <;> rfl

/-- The jobs keep metadata an object. -/
theorem tame_program (job : Job) : job.program.Tame := by
  cases job with
  | flush r store key live before after =>
    rw [program_flush]
    split
    · trivial
    · exact ⟨fun _ _ => rfl, fun _ => trivial⟩
  | apply a wanted owner accepted =>
    have body := Manifest.hasMetadata_of_ofBody accepted
    have owned := (owner.metadata_attachTo body).1
    rw [program_apply]
    refine ⟨fun _ _ => rfl, fun look => ?_⟩
    rcases look with e | _ | live
    · trivial
    · exact ⟨fun _ _ => owned, fun _ => trivial⟩
    · show (Report.applied <$> carryOut a wanted.key
        (.of a.immutable (wanted.ownedBy owner) (some live))).Tame
      rw [Plan.of_some]
      split
      · trivial
      · split
        · trivial
        · refine ⟨fun s valid => ?_, fun _ => trivial⟩
          have fits := (Plan.metadata_fitted live owned).1
          show (s.object? wanted.key).all _ = true
          rw [Option.all_eq_true]
          intro current there
          exact (metadata_patched_effective current (Plan.metadata_document live fits).1).1

end Job

/-! ## Runs -/

theorem MemoryStore.advance_answer {s : MemoryStore} (valid : Valid s) {call : Call}
    (keeps : s.keepsMetadata call = true) : Advance s (s.answer call).2 := by
  cases call with
  | get key => exact advance_get valid key
  | create key body manager => exact advance_create valid key keeps
  | patch key patch manager =>
    refine advance_patch valid key fun live there => ?_
    have keeps : (s.object? key).all (fun live => (live.patched (effective patch)).hasMetadata) =
        true := keeps
    rw [there] at keeps
    exact keeps
  | list kind ns? => exact advance_list valid kind ns?
  | updateStatus key object manager => exact advance_updateStatus valid key object

namespace Pool

variable {ι : Type} [DecidableEq ι]

/-- The store is valid, and all that is left of the jobs keeps it so. -/
structure Sound (p : Pool ι) : Prop where
  valid : Valid p.store
  tame : ∀ i, (p.client i).Tame

omit [DecidableEq ι] in
theorem sound_start (family : String) (jobs : ι → Job) : (start family jobs).Sound :=
  ⟨valid_emptyOf family, fun i => (jobs i).tame_program⟩

theorem move_done {p : Pool ι} {i : ι} {report : Report} (h : p.client i = .done report) :
    p.move (.client i) = ([], p) := by
  unfold move
  dsimp only
  rw [h]

theorem move_ask {p : Pool ι} {i : ι} {call : Call} {next : call.Answer → Dialogue Report}
    (h : p.client i = .ask call next) :
    p.move (.client i) =
      ([⟨some i, call, p.store⟩],
        ⟨(p.store.answer call).2,
          fun j => if j = i then next (p.store.answer call).1 else p.client j⟩) := by
  unfold move
  dsimp only
  rw [h]

theorem move_call {p : Pool ι} {call : Call} (keeps : p.store.keepsMetadata call = true) :
    p.move (.call call) =
      ([⟨none, call, p.store⟩], { p with store := (p.store.answer call).2 }) := if_pos keeps

theorem move_call_refused {p : Pool ι} {call : Call} (h : p.store.keepsMetadata call = false) :
    p.move (.call call) = ([], p) := if_neg (by rw [h]; exact Bool.false_ne_true)

/-- A move makes one call at most, between the stores before and after it. -/
theorem move_log (p : Pool ι) (m : Move ι) :
    (p.move m).1 = [] ∨
      ∃ e, (p.move m).1 = [e] ∧ e.before = p.store ∧ e.after = (p.move m).2.store := by
  cases m with
  | client i =>
    cases turn : p.client i with
    | done report =>
      rw [move_done turn]
      exact .inl rfl
    | ask call next =>
      rw [move_ask turn]
      exact .inr ⟨_, rfl, rfl, rfl⟩
  | call call =>
    cases keeps : p.store.keepsMetadata call with
    | true =>
      rw [move_call keeps]
      exact .inr ⟨_, rfl, rfl, rfl⟩
    | false =>
      rw [move_call_refused keeps]
      exact .inl rfl
  | insert => exact .inl rfl
  | touch => exact .inl rfl
  | setStatus => exact .inl rfl
  | failNext => exact .inl rfl

/-- A move keeps a pool sound, and its store advances. -/
theorem move_sound {p : Pool ι} (sound : p.Sound) (m : Move ι) :
    (p.move m).2.Sound ∧ Later p.store (p.move m).2.store := by
  have still : ∀ {t}, Advance p.store t → Sound { p with store := t } ∧ Later p.store t :=
    fun advance => ⟨⟨advance.valid, sound.tame⟩, advance.later⟩
  cases m with
  | client i =>
    have tame := sound.tame i
    cases turn : p.client i with
    | done report =>
      rw [move_done turn]
      exact ⟨sound, .refl _⟩
    | ask call next =>
      rw [turn] at tame
      have advance := advance_answer sound.valid (tame.1 p.store sound.valid)
      rw [move_ask turn]
      refine ⟨⟨advance.valid, fun j => ?_⟩, advance.later⟩
      dsimp only
      split
      · exact tame.2 _
      · exact sound.tame j
  | call call =>
    cases keeps : p.store.keepsMetadata call with
    | true =>
      rw [move_call keeps]
      exact still (advance_answer sound.valid keeps)
    | false =>
      rw [move_call_refused keeps]
      exact ⟨sound, .refl _⟩
  | insert object => exact still (advance_insert sound.valid object)
  | touch key => exact still (advance_touch sound.valid key)
  | setStatus key status => exact still (advance_setStatus sound.valid key status)
  | failNext op error =>
    exact still (advance_of_same sound.valid (fun _ => rfl) (Nat.le_refl _))

/-- The calls of a log meet valid stores, each later than the ones before. -/
structure Ordered (s : MemoryStore) (log : List (Entry ι)) : Prop where
  valid : ∀ e ∈ log, Valid e.before
  first : ∀ e ∈ log, Later s e.before
  step : ∀ e ∈ log, Later e.before e.after
  order : log.Pairwise fun e f => Later e.after f.before

omit [DecidableEq ι] in
theorem Ordered.nil (s : MemoryStore) : Ordered s ([] : List (Entry ι)) :=
  ⟨fun _ mem => absurd mem List.not_mem_nil, fun _ mem => absurd mem List.not_mem_nil,
    fun _ mem => absurd mem List.not_mem_nil, .nil⟩

/-- A run keeps a pool sound, and its calls meet later and later stores. -/
theorem run_sound {p : Pool ι} (sound : p.Sound) (moves : List (Move ι)) :
    (run moves p).2.Sound ∧ Ordered p.store (run moves p).1 := by
  induction moves generalizing p with
  | nil => exact ⟨sound, .nil _⟩
  | cons m rest ih =>
    obtain ⟨sound', later⟩ := move_sound sound m
    obtain ⟨last, ordered⟩ := ih sound'
    refine ⟨last, ?_⟩
    show Ordered p.store ((p.move m).1 ++ (run rest (p.move m).2).1)
    rcases p.move_log m with none | ⟨e, one, before, after⟩
    · rw [none]
      exact ⟨ordered.valid, fun f mem => later.trans (ordered.first f mem), ordered.step,
        ordered.order⟩
    · rw [one]
      refine ⟨fun f mem => ?_, fun f mem => ?_, fun f mem => ?_, List.pairwise_cons.2
        ⟨fun f mem => after ▸ ordered.first f mem, ordered.order⟩⟩
      all_goals rcases List.mem_cons.1 mem with rfl | mem
      · exact before ▸ sound.valid
      · exact ordered.valid f mem
      · exact before ▸ .refl _
      · exact later.trans (ordered.first f mem)
      · rw [before, after]
        exact later
      · exact ordered.step f mem

end Pool

/-! ## The calls of one client -/

/-- The program makes these calls and, with the answers, becomes the other program. -/
inductive Dialogue.Trace {ι : Type} (who : Option ι) :
    Dialogue Report → List (Entry ι) → Dialogue Report → Prop where
  | nil (d : Dialogue Report) : Trace who d [] d
  | cons {call : Call} {next : call.Answer → Dialogue Report} {before : MemoryStore}
      {rest : List (Entry ι)} {d : Dialogue Report}
      (later : Trace who (next (before.answer call).1) rest d) :
      Trace who (.ask call next) (⟨who, call, before⟩ :: rest) d

namespace Dialogue

variable {ι : Type} {who : Option ι} {d d' d'' : Dialogue Report} {log log' : List (Entry ι)}

theorem Trace.append (h : Trace who d log d') (h' : Trace who d' log' d'') :
    Trace who d (log ++ log') d'' := by
  induction h with
  | nil => exact h'
  | cons _ ih => exact .cons (ih h')

/-- A program that is over makes no calls. -/
theorem Trace.of_done {report : Report} (h : Trace who (.done report) log d) :
    log = [] ∧ d = .done report := by
  cases h
  exact ⟨rfl, rfl⟩

/-- A program that asks has not made its call yet, or goes on with the answer. -/
theorem Trace.of_ask {call : Call} {next : call.Answer → Dialogue Report}
    (h : Trace who (.ask call next) log d) :
    log = [] ∧ d = .ask call next ∨
      ∃ before rest, log = ⟨who, call, before⟩ :: rest ∧
        Trace who (next (before.answer call).1) rest d := by
  cases h with
  | nil => exact .inl ⟨rfl, rfl⟩
  | cons later => exact .inr ⟨_, _, rfl, later⟩

end Dialogue

namespace Pool

variable {ι : Type} [DecidableEq ι]

theorem move_trace (p : Pool ι) (m : Move ι) (i : ι) :
    Dialogue.Trace (some i) (p.client i) (callsOf i (p.move m).1) ((p.move m).2.client i) := by
  have silent : ∀ d, Dialogue.Trace (some i) d (callsOf i []) d := .nil
  cases m with
  | client j =>
    cases turn : p.client j with
    | done report =>
      rw [move_done turn]
      exact silent _
    | ask call next =>
      rw [move_ask turn]
      by_cases same : i = j
      · subst same
        rw [turn, callsOf, List.filter_cons_of_pos (by simp)]
        dsimp only
        rw [if_pos rfl]
        exact .cons (silent _)
      · rw [callsOf, List.filter_cons_of_neg (by simp [Ne.symm same])]
        dsimp only
        rw [if_neg same]
        exact silent _
  | call call =>
    cases keeps : p.store.keepsMetadata call with
    | true =>
      rw [move_call keeps, callsOf, List.filter_cons_of_neg (by simp)]
      exact silent _
    | false =>
      rw [move_call_refused keeps]
      exact silent _
  | insert => exact silent _
  | touch => exact silent _
  | setStatus => exact silent _
  | failNext => exact silent _

/-- In a run, a client makes the calls of its job. -/
theorem run_trace (moves : List (Move ι)) (p : Pool ι) (i : ι) :
    Dialogue.Trace (some i) (p.client i) (callsOf i (run moves p).1)
      ((run moves p).2.client i) := by
  induction moves generalizing p with
  | nil => exact .nil _
  | cons m rest ih =>
    have both := (p.move_trace m i).append (ih (p.move m).2)
    rw [callsOf, callsOf, ← List.filter_append] at both
    exact both

end Pool

end DesiredState
