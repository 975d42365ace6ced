import DesiredState.Proofs.Store.History
import Mathlib.Data.List.Find
import Mathlib.Data.List.Induction

/-!
# Failures of a store

Whatever an action does and however it fails, it leaves all objects if it fails (`Action.booked`).
Which failures of a history were queued for it is read off the history alone: each failure that is
queued belongs to the first call of its operation after it that belongs to none before it (`dealt`).
That call returns it, and no other action is disturbed by it (`run_accounted`).

The queues of the store hold what belongs to no call yet (`queued_run`). One more call takes the
first of these (`assign_call`), and one more failure comes last (`assign_queued`).
-/

namespace DesiredState.MemoryStore

/-! ## Calls and failures, in their order -/

section Assignments

variable {ε : Type} {calls : List Nat} {queued : List (ε × Nat)} {n : Nat}

/-- The call belongs to one of the failures. -/
def taken (l : List (ε × Option Nat)) (c : Nat) : Bool := (l.map Prod.snd).contains (some c)

/-- Each failure in turn belongs to the first call after it that belongs to none before it, if there
is one. -/
def assign (calls : List Nat) (queued : List (ε × Nat)) : List (ε × Option Nat) :=
  queued.foldl (fun earlier q =>
    earlier ++ [(q.1, calls.find? fun c => decide (q.2 < c) && !taken earlier c)]) []

/-- The failures that belong to no call. -/
def waiting (assigned : List (ε × Option Nat)) : List ε :=
  assigned.filterMap fun a => if a.2.isNone then some a.1 else none

/-- The first failure that belongs to no call gets this one. -/
def serve (n : Nat) : List (ε × Option Nat) → List (ε × Option Nat)
  | [] => []
  | (e, none) :: rest => (e, some n) :: rest
  | (e, some c) :: rest => (e, some c) :: serve n rest

theorem assign_snoc (calls : List Nat) (queued : List (ε × Nat)) (q : ε × Nat) :
    assign calls (queued ++ [q]) = assign calls queued ++
      [(q.1, calls.find? fun c => decide (q.2 < c) && !taken (assign calls queued) c)] :=
  List.foldl_concat ..

theorem length_assign (calls : List Nat) (queued : List (ε × Nat)) :
    (assign calls queued).length = queued.length := by
  induction queued using List.reverseRecOn with
  | nil => rfl
  | append_singleton queued q ih =>
    rw [assign_snoc, List.length_append, List.length_append, ih]
    rfl

/-- What belongs to a failure is one of the calls. -/
theorem mem_calls_of_assign {e : ε} {c : Nat} (mem : (e, some c) ∈ assign calls queued) :
    c ∈ calls := by
  induction queued using List.reverseRecOn with
  | nil => cases mem
  | append_singleton queued q ih =>
    rw [assign_snoc, List.mem_append, List.mem_singleton] at mem
    rcases mem with mem | eq
    · exact ih mem
    · exact List.mem_of_find?_eq_some (Prod.mk.inj eq).2.symm

theorem mem_serve_of_lt {c : Nat} (lt : c < n) {e : ε} {l : List (ε × Option Nat)} :
    (e, some c) ∈ serve n l ↔ (e, some c) ∈ l := by
  induction l with
  | nil => rfl
  | cons first rest ih =>
    rcases first with ⟨e', none | c'⟩
    · simp [serve, Nat.ne_of_lt lt]
    · simp [serve, ih]

@[simp] theorem waiting_cons_none (e : ε) (l : List (ε × Option Nat)) :
    waiting ((e, none) :: l) = e :: waiting l := rfl

@[simp] theorem waiting_cons_some (e : ε) (c : Nat) (l : List (ε × Option Nat)) :
    waiting ((e, some c) :: l) = waiting l := rfl

theorem waiting_snoc_none (l : List (ε × Option Nat)) (e : ε) :
    waiting (l ++ [(e, none)]) = waiting l ++ [e] := List.filterMap_append

theorem waiting_serve (n : Nat) (l : List (ε × Option Nat)) :
    waiting (serve n l) = (waiting l).tail := by
  induction l with
  | nil => rfl
  | cons first rest ih =>
    rcases first with ⟨e, none | c⟩
    · simp [serve]
    · simpa [serve] using ih

/-- The call goes to the failure that has waited the longest. -/
theorem mem_serve_self {e : ε} {l : List (ε × Option Nat)} (new : ∀ e, (e, some n) ∉ l) :
    (e, some n) ∈ serve n l ↔ (waiting l).head? = some e := by
  induction l with
  | nil => simp [serve, waiting]
  | cons first rest ih =>
    have later : ∀ e, (e, some n) ∉ rest := by
      intro e mem
      exact new e (List.mem_cons_of_mem _ mem)
    rcases first with ⟨e', none | c⟩
    · simp only [serve, waiting_cons_none, List.mem_cons, Prod.mk.injEq, later, and_true, or_false,
        List.head?_cons, Option.some.injEq]
      exact eq_comm
    · have other : ¬ (e = e' ∧ n = c) := by
        rintro ⟨rfl, rfl⟩
        exact new e List.mem_cons_self
      simp only [serve, waiting_cons_some, List.mem_cons, Prod.mk.injEq, Option.some.injEq, other,
        false_or]
      exact ih later

theorem serve_snoc_of_waiting {l : List (ε × Option Nat)} (waits : waiting l ≠ [])
    (a : ε × Option Nat) : serve n (l ++ [a]) = serve n l ++ [a] := by
  induction l with
  | nil => exact absurd rfl waits
  | cons first rest ih =>
    rcases first with ⟨e, none | c⟩
    · rfl
    · rw [waiting_cons_some] at waits
      rw [List.cons_append, serve, serve, ih waits, List.cons_append]

theorem serve_snoc_of_served {l : List (ε × Option Nat)} (served : waiting l = [])
    (a : ε × Option Nat) : serve n (l ++ [a]) = l ++ serve n [a] := by
  induction l with
  | nil => rfl
  | cons first rest ih =>
    rcases first with ⟨e, none | c⟩
    · cases served
    · rw [waiting_cons_some] at served
      rw [List.cons_append, serve, ih served, List.cons_append]

theorem serve_of_served {l : List (ε × Option Nat)} (served : waiting l = []) :
    serve n l = l := by
  induction l with
  | nil => rfl
  | cons first rest ih =>
    rcases first with ⟨e, none | c⟩
    · cases served
    · rw [waiting_cons_some] at served
      rw [serve, ih served]

theorem taken_iff {l : List (ε × Option Nat)} {c : Nat} :
    taken l c = true ↔ ∃ e, (e, some c) ∈ l := by
  simp [taken]

theorem taken_serve_of_lt {c : Nat} (lt : c < n) (l : List (ε × Option Nat)) :
    taken (serve n l) c = taken l c := by
  rw [Bool.eq_iff_iff, taken_iff, taken_iff]
  simp only [mem_serve_of_lt lt]

theorem taken_serve_self {l : List (ε × Option Nat)} (new : ∀ e, (e, some n) ∉ l) :
    taken (serve n l) n = !(waiting l).isEmpty := by
  rw [Bool.eq_iff_iff, taken_iff]
  simp only [mem_serve_self new]
  cases waiting l <;> simp

/-- A failure that was queued after all calls belongs to none of them. -/
theorem assign_queued (past : ∀ c ∈ calls, c < n) (e : ε) :
    assign calls (queued ++ [(e, n)]) = assign calls queued ++ [(e, none)] := by
  rw [assign_snoc, List.find?_eq_none.2]
  intro c mem
  have := past c mem
  simp
  omega

/-- A call after all others goes to the failure that has waited the longest. -/
theorem assign_call (past : ∀ c ∈ calls, c < n) (earlier : ∀ q ∈ queued, q.2 < n) :
    assign (calls ++ [n]) queued = serve n (assign calls queued) := by
  induction queued using List.reverseRecOn with
  | nil => rfl
  | append_singleton queued q ih =>
    have before : q.2 < n := earlier q (by simp)
    have ih := ih fun p mem => earlier p (List.mem_append_left _ mem)
    have new : ∀ e, (e, some n) ∉ assign calls queued := by
      intro e mem
      have := past n (mem_calls_of_assign mem)
      omega
    rw [assign_snoc, assign_snoc, ih]
    generalize assign calls queued = l at new ⊢
    -- Among the calls before, the same ones are free.
    have same : calls.find? (fun c => decide (q.2 < c) && !taken (serve n l) c) =
        calls.find? fun c => decide (q.2 < c) && !taken l c := by
      refine List.find?_congr fun c mem => ?_
      rw [taken_serve_of_lt (past c mem)]
    rw [List.find?_append, same, List.find?_singleton, taken_serve_self new]
    by_cases served : waiting l = []
    · rw [serve_snoc_of_served served, serve_of_served served, served]
      cases calls.find? fun c => decide (q.2 < c) && !taken l c with
      | none => simp [before, serve]
      | some c => rfl
    · rw [serve_snoc_of_waiting served]
      simp [served]

/-- Each failure in its place belongs to the first call after it that none before it has. -/
theorem getElem?_assign (calls : List Nat) (queued : List (ε × Nat)) (i : Nat) :
    (assign calls queued)[i]? = queued[i]?.map fun q => (q.1, calls.find? fun c =>
      decide (q.2 < c) && !taken ((assign calls queued).take i) c) := by
  induction queued using List.reverseRecOn with
  | nil => rfl
  | append_singleton queued last ih =>
    have length := length_assign calls queued
    rw [assign_snoc]
    rcases Nat.lt_trichotomy i queued.length with before | rfl | past
    · rw [List.getElem?_append_left (by omega), List.getElem?_append_left before,
        List.take_append_of_le_length (by omega)]
      exact ih
    · rw [List.getElem?_concat_length, ← length, List.getElem?_concat_length, List.take_left]
      rfl
    · rw [List.getElem?_eq_none (by simp; omega), List.getElem?_eq_none (by simp; omega)]
      rfl

end Assignments

/-! ## Calls -/

/-- The store with nothing in its queues. -/
def unburdened (s : MemoryStore) : MemoryStore := { s with queued := fun _ => [] }

/-- What leaves the books as they are, and the objects if it fails, and does not look at the
queues. -/
structure Acts {α : Type} (act : MemoryStore → Result α × MemoryStore) : Prop where
  calls : ∀ s, (act s).2.calls = s.calls
  queued : ∀ s, (act s).2.queued = s.queued
  atomic : ∀ s e, (act s).1 = .error e → (act s).2.objects = s.objects
  answer : ∀ s, (act s).1 = (act s.unburdened).1

/-- The function is a call of the operation: it attempts what leaves the books. -/
def Calls {α : Type} (op : Operation) (f : MemoryStore → Result α × MemoryStore) : Prop :=
  ∃ act, Acts act ∧ ∀ s, f s = s.attempt op act

theorem acts_insert (object : Json) : Acts (insert · object) := by
  unfold MemoryStore.insert
  cases Manifest.keyOf object with
  | error e => exact ⟨fun _ => rfl, fun _ => rfl, fun _ _ _ => rfl, fun _ => rfl⟩
  | ok key => exact ⟨fun _ => rfl, fun _ => rfl, nofun, fun _ => rfl⟩

theorem acts_amend (key : ObjectKey) (f : Json → Json) : Acts (amend · key f) := by
  refine ⟨fun s => ?_, fun s => ?_, fun s e => ?_, fun s => ?_⟩
  all_goals
    dsimp only [amend, object?, nextVersion, unburdened]
    cases s.objects.get? key
  all_goals first | rfl | exact fun _ => rfl | exact nofun

/-- A look at what is not in the queues changes nothing and does not fail. -/
theorem acts_of_look {α : Type} {f : MemoryStore → α} (blind : ∀ s, f s = f s.unburdened) :
    Acts fun s => (.ok (f s), s) :=
  ⟨fun _ => rfl, fun _ => rfl, nofun, fun s => congrArg Except.ok (blind s)⟩

theorem calls_get (key : ObjectKey) : Calls .get (get · key) :=
  ⟨_, acts_of_look (f := (·.object? key)) fun _ => rfl, fun _ => rfl⟩

theorem calls_list (kind : GroupVersionKind) (ns? : Option String) :
    Calls .list (list · kind ns?) :=
  ⟨_, acts_of_look fun _ => rfl, fun _ => rfl⟩

theorem calls_create (key : ObjectKey) (body : Json) : Calls .create (create · key body) := by
  refine ⟨_, ⟨fun s => ?_, fun s => ?_, fun s e => ?_, fun s => ?_⟩, fun _ => rfl⟩
  all_goals
    dsimp only [unburdened]
    cases s.objects.contains key
  all_goals first | rfl | exact fun _ => rfl | exact nofun

theorem calls_patch (key : ObjectKey) (change : Json) : Calls .patch (patch · key change) := by
  refine ⟨_, ⟨fun s => ?_, fun s => ?_, fun s e => ?_, fun s => ?_⟩, fun _ => rfl⟩
  all_goals
    dsimp only [unburdened, object?]
    cases s.objects.get? key with
    | none => first | rfl | exact fun _ => rfl
    | some live =>
      dsimp only
      cases staleVersion? change live with
      | some version => first | rfl | exact fun _ => rfl
      | none =>
        dsimp only
        cases (live.patched (effective change)).same live
        all_goals first | rfl | exact nofun

theorem calls_updateStatus (key : ObjectKey) (object : Json) :
    Calls .updateStatus (updateStatus · key object) := by
  refine ⟨_, ⟨fun s => ?_, fun s => ?_, fun s e => ?_, fun s => ?_⟩, fun _ => rfl⟩
  all_goals
    dsimp only [unburdened, object?]
    cases s.objects.get? key with
    | none => first | rfl | exact fun _ => rfl
    | some live =>
      dsimp only
      cases staleVersion? object live
      all_goals first | rfl | exact fun _ => rfl | exact nofun

theorem unqueue_of_quiet {s : MemoryStore} {op : Operation} (quiet : s.queued op = []) :
    (s.unqueue op).queued = s.queued := by
  funext o
  dsimp only [unqueue]
  split
  · rename_i same
    rw [same, quiet]
    rfl
  · rfl

namespace Calls

variable {α : Type} {op : Operation} {f : MemoryStore → Result α × MemoryStore}

/-- A call is counted, and takes the first failure out of its queue if there is one. -/
theorem books (h : Calls op f) (s : MemoryStore) :
    (f s).2.calls = (s.count op).calls ∧ (f s).2.queued = (s.unqueue op).queued := by
  obtain ⟨act, acts, eq⟩ := h
  rw [eq s]
  cases queue : s.queued op with
  | nil =>
    rw [attempt_of_quiet queue]
    exact ⟨acts.calls _, (acts.queued _).trans (unqueue_of_quiet queue).symm⟩
  | cons e rest =>
    rw [attempt_of_queued queue]
    exact ⟨rfl, rfl⟩

/-- A call that fails has no effect on objects. -/
theorem atomic (h : Calls op f) {s : MemoryStore} {e : Error} (failed : (f s).1 = .error e) :
    (f s).2.objects = s.objects := by
  obtain ⟨act, acts, eq⟩ := h
  rw [eq s] at failed ⊢
  cases queue : s.queued op with
  | nil =>
    rw [attempt_of_quiet queue] at failed ⊢
    exact acts.atomic _ e failed
  | cons e' rest =>
    rw [attempt_of_queued queue]
    rfl

/-- A call returns the first failure of its queue. -/
theorem failed (h : Calls op f) {s : MemoryStore} {e : Error}
    (first : (s.queued op).head? = some e) : (f s).1 = .error e := by
  obtain ⟨act, acts, eq⟩ := h
  obtain ⟨rest, queue⟩ := List.head?_eq_some_iff.1 first
  rw [eq s, attempt_of_queued queue]

/-- Without a failure in its queue, a call answers as if there were none in any. -/
theorem answer (h : Calls op f) {s : MemoryStore} (quiet : s.queued op = []) :
    (f s).1 = (f s.unburdened).1 := by
  obtain ⟨act, acts, eq⟩ := h
  rw [eq s, eq s.unburdened, attempt_of_quiet quiet, attempt_of_quiet rfl]
  exact acts.answer (s.count op)

end Calls

/-! ## Actions and their answers -/

namespace Action

/-- What an action answers if it does not fail. -/
def Value : Action → Type
  | insert _ => ObjectKey
  | create .. => Json
  | patch .. => Json
  | updateStatus .. => Json
  | setStatus .. => Unit
  | touch _ => Unit
  | get _ => Option Json
  | list .. => List Json
  | failNext .. => Unit

/-- The answer to an action. -/
def answer (s : MemoryStore) : (a : Action) → Result a.Value
  | insert object => (s.insert object).1
  | create key body => (s.create key body).1
  | patch key change => (s.patch key change).1
  | updateStatus key object => (s.updateStatus key object).1
  | setStatus key status => (s.setStatus key status).1
  | touch key => (s.touch key).1
  | get key => (s.get key).1
  | list kind ns? => (s.list kind ns?).1
  | failNext .. => .ok ()

/-- The operation that the action calls. Changes from outside call none. -/
def call? : Action → Option Operation
  | create .. => some .create
  | patch .. => some .patch
  | updateStatus .. => some .updateStatus
  | get _ => some .get
  | list .. => some .list
  | _ => none

/-- The failure that the action queues for an operation. -/
def failureFor? (op : Operation) : Action → Option Error
  | failNext o error => if op = o then some error else none
  | _ => none

variable {s : MemoryStore} {a : Action} {op : Operation}

/-- What calls an operation is a call of it. -/
theorem calls_of_call (called : a.call? = some op) :
    Calls op fun s => (a.answer s, a.after s) := by
  cases a with
  | get key =>
    obtain rfl := Option.some.inj called
    exact calls_get key
  | list kind ns? =>
    obtain rfl := Option.some.inj called
    exact calls_list kind ns?
  | create key body =>
    obtain rfl := Option.some.inj called
    exact calls_create key body
  | patch key change =>
    obtain rfl := Option.some.inj called
    exact calls_patch key change
  | updateStatus key object =>
    obtain rfl := Option.some.inj called
    exact calls_updateStatus key object
  | _ => cases called

/-- All other actions but the queueing of failures leave the books. -/
theorem acts_of_no_call (outside : a.call? = none) (none : ∀ op, a.failureFor? op = none) :
    Acts fun s => (a.answer s, a.after s) := by
  cases a with
  | insert object => exact acts_insert object
  | setStatus key status => exact acts_amend key (·.setMember "status" status)
  | touch key => exact acts_amend key id
  | failNext op error =>
    have := none op
    rw [failureFor?, if_pos rfl] at this
    cases this
  | _ => cases outside

/-- What calls an operation queues no failure. -/
theorem failureFor?_of_call (called : a.call? = some op) (o : Operation) :
    a.failureFor? o = none := by
  cases a with
  | failNext => cases called
  | _ => rfl

/-- What one action does to the books, what it answers and what its failure leaves. -/
structure Booked (s : MemoryStore) (a : Action) : Prop where
  calls : ∀ op, (a.after s).calls op = s.calls op + if a.call? = some op then 1 else 0
  queued : ∀ op, (a.after s).queued op =
    (if a.call? = some op then (s.queued op).tail else s.queued op) ++ (a.failureFor? op).toList
  atomic : ∀ e, a.answer s = .error e → (a.after s).objects = s.objects
  failed : ∀ op e, a.call? = some op → (s.queued op).head? = some e → a.answer s = .error e
  answer : (∀ op, a.call? = some op → s.queued op = []) → a.answer s = a.answer s.unburdened

theorem booked_of_call (called : a.call? = some op) (s : MemoryStore) : Booked s a := by
  have call := calls_of_call called
  have calls : (a.after s).calls = (s.count op).calls := (call.books s).1
  have queued : (a.after s).queued = (s.unqueue op).queued := (call.books s).2
  refine ⟨fun o => ?_, fun o => ?_, fun e => call.atomic, fun o e same => ?_, fun quiet => ?_⟩
  · rw [calls, called]
    by_cases same : o = op
    · simp [count, same]
    · simp [count, same, Ne.symm same]
  · rw [queued, called, failureFor?_of_call called]
    by_cases same : o = op
    · simp [unqueue, same]
    · simp [unqueue, same, Ne.symm same]
  · obtain rfl := Option.some.inj (called.symm.trans same)
    exact call.failed
  · exact call.answer (quiet op called)

theorem booked_of_acts (outside : a.call? = none) (none : ∀ op, a.failureFor? op = none)
    (s : MemoryStore) : Booked s a := by
  have acts := acts_of_no_call outside none
  have calls : (a.after s).calls = s.calls := acts.calls s
  have queued : (a.after s).queued = s.queued := acts.queued s
  refine ⟨fun o => ?_, fun o => ?_, fun e => acts.atomic s e, fun o e same => ?_,
    fun _ => acts.answer s⟩
  · simp [calls, outside]
  · simp [queued, outside, none]
  · rw [outside] at same
    cases same

theorem booked (s : MemoryStore) (a : Action) : Booked s a := by
  cases called : a.call? with
  | some op => exact booked_of_call called s
  | none =>
    cases a with
    | failNext op error =>
      refine ⟨fun _ => rfl, fun o => ?_, nofun, nofun, fun _ => rfl⟩
      by_cases same : o = op
      · simp [after, MemoryStore.failNext, call?, failureFor?, same]
      · simp [after, MemoryStore.failNext, call?, failureFor?, same]
    | insert | setStatus | touch => exact booked_of_acts called (fun _ => rfl) s
    | _ => cases called

end Action

/-! ## Histories -/

section Histories

variable {op : Operation} {history xs : List Action} {a : Action} {family : String}

/-- Where the calls of an operation stand in a history. -/
def callsIn (op : Operation) (history : List Action) : List Nat :=
  history.zipIdx.filterMap fun p => if p.1.call? = some op then some p.2 else none

/-- The failures that a history queues for an operation, with where it does so. -/
def failuresIn (op : Operation) (history : List Action) : List (Error × Nat) :=
  history.zipIdx.filterMap fun p => (p.1.failureFor? op).map (·, p.2)

/-- The failures that a history queues for an operation, each with the call it belongs to. -/
def dealt (op : Operation) (history : List Action) : List (Error × Option Nat) :=
  assign (callsIn op history) (failuresIn op history)

/-- The second call belongs to the first failure, since the first one comes before it. -/
example (e e' : Error) (k : ObjectKey) :
    dealt .get [.get k, .failNext .get e, .failNext .get e', .failNext .create e, .get k] =
      [(e, some 4), (e', none)] := rfl

theorem callsIn_snoc (op : Operation) (xs : List Action) (a : Action) :
    callsIn op (xs ++ [a]) =
      callsIn op xs ++ if a.call? = some op then [xs.length] else [] := by
  simp only [callsIn, List.zipIdx_append, List.filterMap_append, Nat.zero_add, List.zipIdx_cons,
    List.zipIdx_nil, List.filterMap_cons, List.filterMap_nil]
  congr 1
  split <;> simp_all

theorem failuresIn_snoc (op : Operation) (xs : List Action) (a : Action) :
    failuresIn op (xs ++ [a]) =
      failuresIn op xs ++ (a.failureFor? op).toList.map (·, xs.length) := by
  simp only [failuresIn, List.zipIdx_append, List.filterMap_append, Nat.zero_add, List.zipIdx_cons,
    List.zipIdx_nil, List.filterMap_cons, List.filterMap_nil]
  cases a.failureFor? op <;> rfl

theorem lt_of_mem_callsIn {c : Nat} (mem : c ∈ callsIn op history) : c < history.length := by
  obtain ⟨p, there, found⟩ := List.mem_filterMap.1 mem
  split at found
  · obtain rfl := Option.some.inj found
    exact List.snd_lt_of_mem_zipIdx there
  · cases found

theorem lt_of_mem_failuresIn {q : Error × Nat} (mem : q ∈ failuresIn op history) :
    q.2 < history.length := by
  obtain ⟨p, there, found⟩ := List.mem_filterMap.1 mem
  obtain ⟨e, -, rfl⟩ := Option.map_eq_some_iff.1 found
  exact List.snd_lt_of_mem_zipIdx there

/-- A call goes to the failure that has waited the longest. -/
theorem dealt_of_call (called : a.call? = some op) (xs : List Action) :
    dealt op (xs ++ [a]) = serve xs.length (dealt op xs) := by
  unfold dealt
  rw [callsIn_snoc, if_pos called, failuresIn_snoc, Action.failureFor?_of_call called,
    Option.toList_none, List.map_nil, List.append_nil]
  exact assign_call (fun c => lt_of_mem_callsIn) fun q => lt_of_mem_failuresIn

theorem dealt_of_no_call (other : a.call? ≠ some op) (xs : List Action) :
    dealt op (xs ++ [a]) = dealt op xs ++ (a.failureFor? op).toList.map (·, none) := by
  unfold dealt
  rw [callsIn_snoc, if_neg other, List.append_nil, failuresIn_snoc]
  cases a.failureFor? op with
  | none => simp
  | some e => exact assign_queued (fun c => lt_of_mem_callsIn) e

/-- What waits in the queues of the store belongs to no call yet. -/
theorem queued_run (family : String) (op : Operation) (history : List Action) :
    (run family history).queued op = waiting (dealt op history) := by
  induction history using List.reverseRecOn with
  | nil => rfl
  | append_singleton xs a ih =>
    rw [run_snoc, (a.booked _).queued, ih]
    by_cases called : a.call? = some op
    · rw [if_pos called, dealt_of_call called, waiting_serve, Action.failureFor?_of_call called]
      simp
    · rw [if_neg called, dealt_of_no_call called]
      cases a.failureFor? op with
      | none => simp
      | some e => exact (waiting_snoc_none _ e).symm

theorem calls_run (family : String) (op : Operation) (history : List Action) :
    (run family history).calls op = history.countP fun a => a.call? = some op := by
  induction history using List.reverseRecOn with
  | nil => rfl
  | append_singleton xs a ih =>
    rw [run_snoc, (a.booked _).calls, ih, List.countP_append, List.countP_singleton]
    simp

/-- What comes later takes no call from a failure and gives it none. -/
theorem mem_dealt_snoc {c : Nat} (before : c < xs.length) {e : Error} :
    (e, some c) ∈ dealt op (xs ++ [a]) ↔ (e, some c) ∈ dealt op xs := by
  by_cases called : a.call? = some op
  · rw [dealt_of_call called, mem_serve_of_lt before]
  · rw [dealt_of_no_call called]
    simp

/-- The last action is dealt the first failure of its queue, if it is a call. -/
theorem mem_dealt_last (family : String) {e : Error} :
    (e, some xs.length) ∈ dealt op (xs ++ [a]) ↔
      a.call? = some op ∧ ((run family xs).queued op).head? = some e := by
  have new : ∀ e, (e, some xs.length) ∉ dealt op xs := by
    intro e mem
    exact Nat.lt_irrefl _ (lt_of_mem_callsIn (mem_calls_of_assign mem))
  by_cases called : a.call? = some op
  · rw [dealt_of_call called, mem_serve_self new, queued_run]
    exact (and_iff_right called).symm
  · rw [dealt_of_no_call called]
    simp [called, new]

/-- A failure belongs to a call just if it was the first in its queue then. -/
theorem mem_dealt (within : xs ++ [a] <+: history) (family : String) {e : Error} :
    (e, some xs.length) ∈ dealt op history ↔
      a.call? = some op ∧ ((run family xs).queued op).head? = some e := by
  obtain ⟨ys, rfl⟩ := within
  induction ys using List.reverseRecOn with
  | nil =>
    rw [List.append_nil]
    exact mem_dealt_last family
  | append_singleton ys b ih =>
    rw [← List.append_assoc, mem_dealt_snoc (by simp)]
    exact ih

end Histories

/-- What failures come to throughout a history, and how often each operation is called. The moments
of a history are the stores after its beginnings. -/
structure Accounted (family : String) (history : List Action) : Prop where
  /-- At every moment, an action that fails leaves all objects. -/
  atomic : ∀ xs, xs <+: history → ∀ (a : Action) e, a.answer (run family xs) = .error e →
    (a.after (run family xs)).objects = (run family xs).objects
  /-- Each failure that is queued belongs to the first call of its operation after it that belongs
  to none queued before it, if there is one. -/
  first : ∀ op i, (dealt op history)[i]? = (failuresIn op history)[i]?.map fun q =>
    (q.1, (callsIn op history).find? fun c =>
      decide (q.2 < c) && !taken ((dealt op history).take i) c)
  /-- The call that a failure belongs to returns it. -/
  returned : ∀ op e c, (e, some c) ∈ dealt op history → ∃ xs a, xs ++ [a] <+: history ∧
    xs.length = c ∧ a.call? = some op ∧ a.answer (run family xs) = .error e
  /-- What no failure belongs to answers as it would if none were queued. -/
  undisturbed : ∀ xs a, xs ++ [a] <+: history →
    (∀ op e, (e, some xs.length) ∉ dealt op history) →
    a.answer (run family xs) = a.answer (run family xs).unburdened
  /-- The failures that belong to no call are in the queues, in their order. -/
  queued : ∀ op, (run family history).queued op = waiting (dealt op history)
  counted : ∀ op, (run family history).calls op = history.countP fun a => a.call? = some op

theorem run_accounted (family : String) (history : List Action) : Accounted family history where
  atomic xs _ a e failed := (a.booked (run family xs)).atomic e failed
  first op i := getElem?_assign _ _ i
  returned op e c mem := by
    have inside : c < history.length := lt_of_mem_callsIn (mem_calls_of_assign mem)
    have within : history.take c ++ [history[c]] <+: history := by
      rw [← List.take_succ_eq_append_getElem inside]
      exact List.take_prefix _ _
    have length : (history.take c).length = c := List.length_take_of_le (Nat.le_of_lt inside)
    rw [← length] at mem
    obtain ⟨called, first⟩ := (mem_dealt within family).1 mem
    exact ⟨_, _, within, length, called, (Action.booked _ _).failed op e called first⟩
  undisturbed xs a within none := by
    refine (a.booked _).answer fun op called => ?_
    cases queue : (run family xs).queued op with
    | nil => rfl
    | cons e rest =>
      have first : ((run family xs).queued op).head? = some e := by rw [queue, List.head?_cons]
      exact absurd ((mem_dealt within family).2 ⟨called, first⟩) (none op e)
  queued op := queued_run family op history
  counted op := calls_run family op history

end DesiredState.MemoryStore
