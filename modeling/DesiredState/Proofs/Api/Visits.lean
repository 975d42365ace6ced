import DesiredState.Api.Cluster
import DesiredState.Proofs.Api.Talk
import DesiredState.Proofs.Interleaving.Exchanges

/-!
# Calls of the cluster, one by one

Every call of the cluster finds out where its kind is served and goes on from there
(`answer_store`): it sends one request about objects, or none (`requests_of_attend`), and answers
with what it makes of the reply. A kind that is known is not searched for, and one that a search
finds is known from then on (`run_endpoint`).
-/

namespace DesiredState

/-! ## Calls of any store -/

namespace Call

/-- The kind whose objects a call is about. -/
def kind : Call → GroupVersionKind
  | get key | create key .. | patch key .. | updateStatus key .. => key.gvk
  | list kind _ => kind

/-- The key of the object that a call is about. -/
def key? : Call → Option ObjectKey
  | get key | create key .. | patch key .. | updateStatus key .. => some key
  | list .. => none

/-- The same call in another namespace, or in none. -/
def within (ns? : Option String) : Call → Call
  | get key => get { key with ns? }
  | create key body manager => create { key with ns? } body manager
  | patch key document manager => .patch { key with ns? } document manager
  | list kind _ => list kind ns?
  | updateStatus key object manager => updateStatus { key with ns? } object manager

/-- The answer of a call that fails. -/
def failed (e : Error) : (c : Call) → c.Answer
  | get _ | create .. | patch .. | list .. | updateStatus .. => .error e

end Call

namespace Store

variable {m : Type → Type}

/-- Make a call. -/
def answer (s : Store m) : (c : Call) → m c.Answer
  | .get key => (s.get key).run
  | .create key body manager => (s.create key body manager).run
  | .patch key patch manager => (s.patch key patch manager).run
  | .list kind ns? => (s.list kind ns?).run
  | .updateStatus key object manager => (s.updateStatus key object manager).run

/-- Make calls one after the other. -/
def course [Monad m] (s : Store m) : List Call → m (List Exchange)
  | [] => return []
  | c :: rest => do
    let answer ← s.answer c
    return ⟨c, answer⟩ :: (← s.course rest)

end Store

namespace Cluster

/-! ## Requests about objects -/

/-- The path of the objects beside the object of a key, if its kind is served there. -/
def pathBeside (key : ObjectKey) (e : Endpoint) : Result String :=
  if e.namespaced then
    match key.ns? with
    | some ns => .ok (e.path (some ns))
    | none => .error (.validation (.namespaceRequired key.gvk))
  else .ok (e.path none)

/-- The path of the objects that a call is about, if their kind is served there. -/
def pathAt (e : Endpoint) : Call → Result String
  | .get key | .create key .. | .patch key .. | .updateStatus key .. => pathBeside key e
  | .list _ ns? => .ok (e.path (if e.namespaced then ns? else none))

/-- The request of a call about the objects at a path, or the answer if none can be made. -/
def requestAt (path : String) : (c : Call) → Except c.Answer Request
  | .get key => (getRequest path key.name).mapError fun fault => found key (.error fault)
  | .create key body manager =>
    match Result.ofDecode (LiveObject.decode body) with
    | .ok object =>
      (createRequest path manager object.encode).mapError fun fault => .error (fault.toError key)
    | .error e => .error (.error e)
  | .patch key patch manager =>
    (patchRequest path key.name manager patch).mapError fun fault => .error (fault.toError key)
  | .list kind ns? =>
    (listRequest path).mapError fun fault => .error (fault.toError (.of kind ns? "*"))
  | .updateStatus key object manager =>
    (statusRequest path key.name manager object).mapError fun fault => .error (fault.toError key)

/-- What a reader makes of what comes back on a request. -/
def heard {α : Type} (read : Written.Reader α) : Except String Reply → Except Fault α
  | .error detail => .error (.unusable ("no reply: " ++ detail))
  | .ok reply => reply.read read

/-- The answer of a call to what comes back on its request. -/
def answerTo (reply : Except String Reply) : (c : Call) → c.Answer
  | .get key => found key (heard LiveObject.read reply)
  | .create key .. | .patch key .. | .updateStatus key .. =>
    ((heard LiveObject.read reply).map LiveObject.answer).mapError (·.toError key)
  | .list kind ns? =>
    ((heard LiveObject.readList reply).map (·.map LiveObject.answer)).mapError
      (·.toError (.of kind ns? "*"))

variable {m : Type → Type} [Monad m] (send : Connection m)

/-- Send a request, if it could be made, and answer with what comes back. -/
def converse {α : Type} (request : Except α Request) (answer : Except String Reply → α) : m α :=
  match request with
  | .error failed => return failed
  | .ok request => answer <$> send request

/-- How a call goes on once it is known where its kind is served, or why that is not known. -/
def attend (c : Call) (found : Result Endpoint) : m c.Answer :=
  match found.bind (pathAt · c) with
  | .error e => return c.failed e
  | .ok path => converse send (requestAt path c) (answerTo · c)

section Runs

variable (known : Endpoints)

theorem run_pathOf (key : ObjectKey) :
    (pathOf send key).run.run known =
      (endpoint send key.gvk).run.run known >>= fun search =>
        pure (search.1.bind (pathBeside key), search.2) := by
  unfold pathOf
  simp only [ExceptT.run_bind, StateT.run_bind]
  refine bind_congr fun search => ?_
  obtain ⟨found, known⟩ := search
  rcases found with error | e
  · rfl
  · show _ = pure (pathBeside key e, known)
    unfold pathBeside
    dsimp only
    split
    · cases key.ns? <;> rfl
    · rfl

theorem run_listPathOf (kind : GroupVersionKind) (ns? : Option String) :
    (listPathOf send kind ns?).run.run known =
      (endpoint send kind).run.run known >>= fun search =>
        pure (search.1.bind (pathAt · (.list kind ns?)), search.2) := by
  unfold listPathOf
  simp only [ExceptT.run_bind, StateT.run_bind]
  refine bind_congr fun search => ?_
  obtain ⟨found, known⟩ := search
  cases found <;> rfl

variable [LawfulMonad m]

/-- An exchange with what is made of it. -/
theorem map_exchange {α β : Type} (request : Except Fault Request) (read : Written.Reader α)
    (f : Except Fault α → β) :
    f <$> exchange send request read =
      converse send (request.mapError (f <| .error ·)) (f <| heard read ·) := by
  cases request with
  | error fault => exact map_pure f _
  | ok request =>
    show f <$> (send request >>= _) = (fun reply => f (heard read reply)) <$> send request
    rw [map_bind, ← bind_pure_comp]
    refine bind_congr fun reply => ?_
    cases reply <;> exact map_pure f _

theorem run_asked {α β : Type} (key : ObjectKey) (request : Except Fault Request)
    (read : Written.Reader α) (f : α → β) :
    (do return f (← asked send key request read) : ExceptT Error _ β).run.run known =
      converse send (request.mapError fun fault => .error (fault.toError key))
          (fun reply => ((heard read reply).map f).mapError (·.toError key)) >>=
        fun answer => pure (answer, known) := by
  have told := map_exchange send request read fun outcome =>
    ((outcome.map f).mapError (·.toError key) : Result β)
  dsimp only [Except.map, Except.mapError] at told
  unfold Except.mapError Except.map
  rw [← told]
  unfold asked
  simp only [ExceptT.run_bind, StateT.run_bind, ExceptT.run_lift, StateT.run_lift, bind_assoc,
    pure_bind, bind_map_left]
  refine bind_congr fun outcome => ?_
  cases outcome <;> exact pure_bind _ _

/-- A program that goes on from a path, which it finds once it knows where a kind is served. -/
theorem run_along {α : Type} {kind : GroupVersionKind}
    {path : ExceptT Error (StateT Endpoints m) String} {place : Endpoint → Result String}
    (found : path.run.run known = (endpoint send kind).run.run known >>= fun search =>
      pure (search.1.bind place, search.2))
    {rest : String → ExceptT Error (StateT Endpoints m) α} {go : String → m (Result α)}
    (goes : ∀ path known,
      (rest path).run.run known = go path >>= fun answer => pure (answer, known)) :
    (path >>= rest).run.run known =
      (endpoint send kind).run.run known >>= fun search =>
        (match search.1.bind place with
          | .error e => pure (.error e)
          | .ok path => go path) >>= fun answer => pure (answer, search.2) := by
  simp only [ExceptT.run_bind, StateT.run_bind, found, bind_assoc, pure_bind]
  refine bind_congr fun search => ?_
  cases search.1.bind place with
  | error e => exact (pure_bind (Except.error e) fun answer => pure (answer, search.2)).symm
  | ok path => exact goes path search.2

end Runs

/-- Every call finds out where its kind is served, and goes on from there. -/
theorem answer_store [LawfulMonad m] (c : Call) (known : Endpoints) :
    ((store send).answer c).run known =
      (endpoint send c.kind).run.run known >>= fun search =>
        attend send c search.1 >>= fun answer => pure (answer, search.2) := by
  cases c with
  | get key =>
    refine run_along send known (run_pathOf send known key) fun path known => ?_
    have told := map_exchange send (getRequest path key.name) LiveObject.read (Cluster.found key)
    show _ = converse send _ (Cluster.found key <| heard LiveObject.read ·) >>= _
    dsimp only [requestAt]
    rw [← told]
    simp
  | create key body manager =>
    refine run_along send known (run_pathOf send known key) fun path known => ?_
    dsimp only [requestAt]
    rw [ExceptT.run_bind, StateT.run_bind, ExceptT.run_mk, StateT.run_pure, pure_bind]
    cases Result.ofDecode (LiveObject.decode body) with
    | error e => exact (pure_bind (Except.error e) fun answer => pure (answer, known)).symm
    | ok object => exact run_asked ..
  | patch key document manager =>
    exact run_along send known (run_pathOf send known key) fun path known => run_asked ..
  | list kind ns? =>
    exact run_along send known (run_listPathOf send known kind ns?) fun path known => run_asked ..
  | updateStatus key object manager =>
    exact run_along send known (run_pathOf send known key) fun path known => run_asked ..

/-! ## What is sent about objects -/

/-- The request of a call about objects of a kind that is served there, if it has one. -/
def request? (e : Endpoint) (c : Call) : Option Request :=
  (pathAt e c).toOption.bind fun path => (requestAt path c).toOption

/-- A call sends one request about objects or none, whatever comes back. -/
theorem requests_of_attend {c : Call} {found : Result Endpoint} {log : List Roundtrip}
    {answer : c.Answer} (ran : (attend Talk.connection c found).Runs log answer) :
    log.map Roundtrip.request = (found.toOption.bind (request? · c)).toList := by
  cases found with
  | error e =>
    obtain ⟨rfl, -⟩ := Talk.runs_pure_iff.1 ran
    rfl
  | ok e =>
    show _ = (request? e c).toList
    unfold attend at ran
    unfold request?
    dsimp only [Except.bind] at ran
    cases path : pathAt e c with
    | error error =>
      rw [path] at ran
      obtain ⟨rfl, -⟩ := Talk.runs_pure_iff.1 ran
      rfl
    | ok path' =>
      rw [path] at ran
      show _ = (requestAt path' c).toOption.toList
      cases asked : requestAt path' c with
      | error failed =>
        simp only [asked] at ran
        obtain ⟨rfl, -⟩ := Talk.runs_pure_iff.1 ran
        rfl
      | ok request =>
        simp only [asked] at ran
        obtain ⟨_, sent, -⟩ := Talk.runs_map_iff.1 ran
        obtain ⟨reply, rest, rfl, ended⟩ := Talk.runs_send_iff.1 sent
        obtain ⟨rfl, -⟩ := Talk.runs_done_iff.1 ended
        rfl

/-- A call about an object in a namespace that names none is refused, and nothing is sent. -/
theorem attend_unplaced {c : Call} {key : ObjectKey} {e : Endpoint} (keyed : c.key? = some key)
    (namespaced : e.namespaced = true) (unplaced : key.ns? = none) :
    attend send c (.ok e) = pure (c.failed (.validation (.namespaceRequired key.gvk))) := by
  have refused : pathAt e c = .error (.validation (.namespaceRequired key.gvk)) := by
    cases c <;> cases keyed <;> simp [pathAt, pathBeside, namespaced, unplaced]
  unfold attend
  dsimp only [Except.bind]
  rw [refused]

theorem toOption_mapError {ε ε' α : Type} (f : ε → ε') (x : Except ε α) :
    (x.mapError f).toOption = x.toOption := by
  cases x <;> rfl

/-- Where a kind is served for the whole cluster, the namespace of a key does not show in what is
sent. -/
theorem request?_within {e : Endpoint} (whole : e.namespaced = false) (c : Call)
    (ns? : Option String) : request? e (c.within ns?) = request? e c := by
  cases c with
  | create key body manager =>
    simp only [request?, Call.within, pathAt, pathBeside, whole, requestAt]
    cases Result.ofDecode (LiveObject.decode body) with
    | error e => rfl
    | ok object => simp [toOption_mapError]
  | _ => simp [request?, Call.within, pathAt, pathBeside, whole, requestAt, toOption_mapError]

/-! ## Endpoints that are kept -/

namespace Endpoints

/-- The endpoints that are known after a call has found out where a kind is served. -/
def after (known : Endpoints) (kind : GroupVersionKind) (found : Result Endpoint) : Endpoints :=
  match known.get? kind, found with
  | none, .ok e => (kind, e) :: known
  | _, _ => known

theorem get?_cons (known : Endpoints) (kind : GroupVersionKind) (e : Endpoint)
    (k : GroupVersionKind) :
    get? ((kind, e) :: known) k = if kind = k then some e else known.get? k := by
  unfold get?
  rw [List.find?_cons]
  by_cases eq : kind = k <;> simp [eq]

end Endpoints

/-- An endpoint that is known is taken; else it is searched for, and kept if it is found. -/
theorem run_endpoint [LawfulMonad m] (kind : GroupVersionKind) (known : Endpoints) :
    (endpoint send kind).run.run known =
      match known.get? kind with
      | some e => pure (.ok e, known)
      | none =>
        (Discovery.endpoint send kind).run >>= fun found =>
          pure (found, known.after kind found) := by
  have looked : (ExceptT.run (get : ExceptT Error (StateT Endpoints m) Endpoints)).run known =
      pure (.ok known, known) :=
    pure_bind (known, known) fun p : Endpoints × Endpoints => pure (Except.ok p.1, p.2)
  unfold endpoint
  rw [ExceptT.run_bind, StateT.run_bind, looked, pure_bind]
  dsimp only
  cases there : known.get? kind with
  | some e => rfl
  | none =>
    rw [ExceptT.run_bind, StateT.run_bind, ExceptT.run_mk, StateT.run_lift, bind_assoc]
    refine bind_congr fun found => ?_
    rw [pure_bind]
    cases found with
    | error e =>
      unfold Endpoints.after
      rw [there]
      rfl
    | ok e =>
      have kept : (ExceptT.run (modify ((kind, e) :: ·) :
          ExceptT Error (StateT Endpoints m) PUnit)).run known =
            pure (.ok ⟨⟩, (kind, e) :: known) :=
        pure_bind (PUnit.unit, (kind, e) :: known) fun p : PUnit × Endpoints =>
          pure (Except.ok p.1, p.2)
      unfold Endpoints.after
      rw [there]
      dsimp only
      rw [ExceptT.run_bind, StateT.run_bind, kept, pure_bind]
      rfl

end Cluster

end DesiredState
