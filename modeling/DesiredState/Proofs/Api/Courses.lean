import DesiredState.Proofs.Api.Visits

/-!
# Courses of calls of the cluster

The cluster keeps where a kind is served once that is found out. Whatever it is asked, and whatever
comes back, it answers and sends requests about objects as a store does that searches at every call:
its transcripts are those of such a store in which a search that succeeded keeps succeeding in the
same way, without the searches for what was found before (`store_course`).

A call is a `Visit`: a search, the errand that follows from what was found, and an answer. A kind is
known to the cluster exactly if an earlier visit found it (`Knows`). So the step from visit to visit
(`runs_answer_iff`) carries over to courses (`runs_course_iff`).
-/

namespace DesiredState.Cluster

/-- A call: what was exchanged to find out where its kind is served, what was found, what was
exchanged about objects, and the answer. -/
structure Visit where
  call : Call
  search : List Roundtrip
  found : Result Endpoint
  errand : List Roundtrip
  answer : call.Answer

namespace Visit

def exchange (v : Visit) : Exchange := ⟨v.call, v.answer⟩

def log (v : Visit) : List Roundtrip := v.search ++ v.errand

/-- The kind of the call was searched for, and the errand follows from what was found. -/
structure Whole (v : Visit) : Prop where
  search : (Discovery.endpoint Talk.connection v.call.kind).run.Runs v.search v.found
  errand : (attend Talk.connection v.call v.found).Runs v.errand v.answer

/-- The visit found where a kind is served. -/
def finds (kind : GroupVersionKind) (v : Visit) : Bool :=
  decide (v.call.kind = kind) && v.found.toBool

/-- Where the first visit found its kind, the second one finds it if it is of that kind. -/
def Steady (w v : Visit) : Prop :=
  w.call.kind = v.call.kind → ∀ e, w.found = .ok e → v.found = .ok e

/-- The visit without its search if one of the visits before it found its kind. -/
def spare (before : List Visit) (v : Visit) : Visit :=
  if before.any (finds v.call.kind) then { v with search := [] } else v

/-- The visits that come after others, without the searches for what was found before. -/
def spared (before : List Visit) : List Visit → List Visit
  | [] => []
  | v :: later => v.spare before :: spared (before ++ [v]) later

end Visit

open Visit

/-! ## Visits of which the search is whole -/

/-- A search asks for the groups of the server at least. -/
theorem search_ne_nil {kind : GroupVersionKind} {log : List Roundtrip} {found : Result Endpoint}
    (ran : (Discovery.endpoint Talk.connection kind).run.Runs log found) : log ≠ [] := by
  have asks : ∃ request next,
      (Discovery.endpoint Talk.connection kind).run = Talk.send request next := by
    have groups : Target.ofText? "/apis" = some ⟨"/apis", []⟩ := by decide +kernel
    unfold Discovery.endpoint Discovery.versionsOf Discovery.fetch
    rw [groups]
    exact ⟨_, _, rfl⟩
  obtain ⟨request, next, eq⟩ := asks
  rw [eq] at ran
  obtain ⟨reply, later, rfl, -⟩ := Talk.runs_send_iff.1 ran
  exact List.cons_ne_nil _ _

/-- What a visit sends and answers follows from its call, from what was found and from what came
back. -/
structure Visit.Proper (v : Visit) : Prop where
  search : v.search ≠ []
  /-- One request about objects is sent, or none. -/
  errand : v.errand.map Roundtrip.request = (v.found.toOption.bind (request? · v.call)).toList
  answer : ∀ w : Visit, w.Whole → w.call = v.call → w.found = v.found → w.errand = v.errand →
    w.exchange = v.exchange
  /-- An object in a namespace has to name it. -/
  unplaced : ∀ e key, v.found = .ok e → e.namespaced = true → v.call.key? = some key →
    key.ns? = none →
    v.errand = [] ∧ v.answer = v.call.failed (.validation (.namespaceRequired key.gvk))
  /-- The namespace of an object of the whole cluster does not show in what is sent. -/
  anywhere : ∀ e ns?, v.found = .ok e → e.namespaced = false →
    request? e (v.call.within ns?) = request? e v.call

theorem Visit.Whole.proper {v : Visit} (whole : v.Whole) : v.Proper where
  search := search_ne_nil whole.search
  errand := requests_of_attend whole.errand
  answer := by
    rintro ⟨c, search, found, errand, answer⟩ whole' rfl rfl rfl
    rw [exchange, exchange, whole'.errand.unique whole.errand]
  unplaced e key found namespaced keyed unplaced := by
    have ran := whole.errand
    rw [found, attend_unplaced _ keyed namespaced unplaced] at ran
    exact Talk.runs_pure_iff.1 ran
  anywhere e ns? _ cluster := request?_within cluster v.call ns?

/-! ## What is known after some visits -/

/-- The cluster knows the endpoints that the visits found. -/
def Knows (known : Endpoints) (before : List Visit) : Prop :=
  ∀ kind e, known.get? kind = some e ↔ ∃ w ∈ before, w.call.kind = kind ∧ w.found = .ok e

theorem knows_nil : Knows [] [] := fun kind e => by simp [Endpoints.get?]

section Knows

variable {known : Endpoints} {before : List Visit} {v : Visit} (knows : Knows known before)

include knows

theorem Knows.any_finds (kind : GroupVersionKind) :
    before.any (finds kind) = (known.get? kind).isSome := by
  rw [Bool.eq_iff_iff, List.any_eq_true, Option.isSome_iff_exists]
  constructor
  · rintro ⟨w, mem, finds⟩
    rw [Visit.finds, Bool.and_eq_true, decide_eq_true_iff] at finds
    obtain ⟨eq, ok⟩ := finds
    cases found : w.found with
    | error error => rw [found] at ok; cases ok
    | ok e => exact ⟨e, (knows kind e).2 ⟨w, mem, eq, found⟩⟩
  · rintro ⟨e, there⟩
    obtain ⟨w, mem, eq, found⟩ := (knows kind e).1 there
    exact ⟨w, mem, by simp [Visit.finds, eq, found, Except.toBool]⟩

theorem Knows.after (steady : ∀ w ∈ before, w.Steady v) :
    Knows (known.after v.call.kind v.found) (before ++ [v]) := by
  have split (kind : GroupVersionKind) (e : Endpoint) :
      (∃ w ∈ before ++ [v], w.call.kind = kind ∧ w.found = .ok e) ↔
        known.get? kind = some e ∨ v.call.kind = kind ∧ v.found = .ok e := by
    rw [knows kind e]
    simp only [List.mem_append, List.mem_singleton, or_and_right, exists_or, exists_eq_left]
  intro kind e
  rw [split]
  unfold Endpoints.after
  split
  · rename_i e' there found
    rw [Endpoints.get?_cons]
    by_cases eq : v.call.kind = kind
    · rw [if_pos eq, found, ← eq, there]
      simp [eq_comm]
    · rw [if_neg eq]
      simp [eq]
  · rename_i uncached
    refine ⟨.inl, fun cases => cases.elim id ?_⟩
    rintro ⟨rfl, found⟩
    -- The visit found its kind and the cluster keeps what it knows, so it knew the kind already.
    cases there : known.get? v.call.kind with
    | none => exact (uncached e there found).elim
    | some e' =>
      obtain ⟨w, mem, eq, found'⟩ := (knows v.call.kind e').1 there
      rw [steady w mem eq e' found'] at found
      rw [Except.ok.inj found]

end Knows

/-! ## Transcripts of calls -/

section Answers

variable {known known' : Endpoints} {before : List Visit} {log : List Roundtrip} {c : Call}
  {answer : c.Answer}

/-- A call searches for its kind and goes on from what is found, or takes what is known. -/
theorem runs_answer_search_iff (unknown : known.get? c.kind = none) :
    (((store Talk.connection).answer c).run known).Runs log (answer, known') ↔
      ∃ v : Visit, v.Whole ∧ v.log = log ∧ v.exchange = ⟨c, answer⟩ ∧
        known' = known.after c.kind v.found := by
  rw [answer_store, run_endpoint, unknown, bind_assoc, Talk.runs_bind_iff]
  simp only [pure_bind, Talk.runs_bind_iff, Talk.runs_pure_iff]
  constructor
  · rintro ⟨search, _, found, rfl, searched, errand, _, _, rfl, attended, rfl, eq⟩
    obtain ⟨rfl, rfl⟩ := Prod.mk.inj eq
    exact ⟨⟨c, search, found, errand, answer⟩, ⟨searched, attended⟩,
      by rw [List.append_nil]; rfl, rfl, rfl⟩
  · rintro ⟨⟨c, search, found, errand, answer⟩, whole, rfl, eq, rfl⟩
    cases eq
    exact ⟨search, errand, found, rfl, whole.search, errand, [], answer, (List.append_nil _).symm,
      whole.errand, rfl, rfl⟩

/-- A call whose kind is known goes on from that. -/
theorem runs_answer_known_iff {e : Endpoint} (there : known.get? c.kind = some e) :
    (((store Talk.connection).answer c).run known).Runs log (answer, known') ↔
      (attend Talk.connection c (.ok e)).Runs log answer ∧ known' = known := by
  rw [answer_store, run_endpoint, there]
  simp only [pure_bind, Talk.runs_bind_iff, Talk.runs_pure_iff]
  constructor
  · rintro ⟨errand, _, _, rfl, attended, rfl, eq⟩
    obtain ⟨rfl, rfl⟩ := Prod.mk.inj eq
    rw [List.append_nil]
    exact ⟨attended, rfl⟩
  · rintro ⟨attended, rfl⟩
    exact ⟨log, [], answer, (List.append_nil _).symm, attended, rfl, rfl⟩

/-- A call of the cluster is a call that searches, without its search if its kind was found
before, provided that the search finds it again. -/
theorem runs_answer_iff (knows : Knows known before) (whole : ∀ w ∈ before, w.Whole) :
    (((store Talk.connection).answer c).run known).Runs log (answer, known') ↔
      ∃ v : Visit, v.Whole ∧ (∀ w ∈ before, w.Steady v) ∧ (v.spare before).log = log ∧
        v.exchange = ⟨c, answer⟩ ∧ known' = known.after c.kind v.found := by
  have sparing {v : Visit} (kind : v.call.kind = c.kind) :
      v.spare before = if (known.get? c.kind).isSome then { v with search := [] } else v := by
    rw [spare, knows.any_finds, kind]
  cases there : known.get? c.kind with
  | none =>
    rw [runs_answer_search_iff there]
    refine exists_congr fun v => ?_
    constructor
    · rintro ⟨whole, rfl, eq, after⟩
      obtain rfl : v.call = c := congrArg Exchange.call eq
      refine ⟨whole, fun w mem kind e found => ?_, by rw [sparing rfl, there]; rfl, eq, after⟩
      rw [(knows _ e).2 ⟨w, mem, kind, found⟩] at there
      cases there
    · rintro ⟨whole, -, rfl, eq, after⟩
      obtain rfl : v.call = c := congrArg Exchange.call eq
      exact ⟨whole, by rw [sparing rfl, there]; rfl, eq, after⟩
  | some e =>
    rw [runs_answer_known_iff there]
    have stays (found : Result Endpoint) : known.after c.kind found = known := by
      unfold Endpoints.after
      rw [there]
    obtain ⟨w, mem, kind, found⟩ := (knows _ e).1 there
    constructor
    · rintro ⟨attended, rfl⟩
      -- An unchanged server would reply to this search as it did when the kind was found.
      refine ⟨⟨c, w.search, .ok e, log, answer⟩, ⟨?_, attended⟩, fun w' mem' kind' e' found' => ?_,
        ?_, rfl, (stays _).symm⟩
      · rw [← found, ← kind]
        exact (whole w mem).search
      · have again := (knows _ e').2 ⟨w', mem', kind', found'⟩
        rw [← Option.some.inj (there.symm.trans again)]
      · rw [sparing rfl, there]
        rfl
    · rintro ⟨v, whole', steady, rfl, eq, after⟩
      obtain rfl : v.call = c := congrArg Exchange.call eq
      have same := steady w mem kind e found
      obtain rfl : v.answer = answer := by
        cases eq
        rfl
      rw [sparing rfl, there, after, stays, ← same]
      exact ⟨whole'.errand, rfl⟩

end Answers

/-! ## Transcripts of courses -/

/-- The visits make these calls, each with a search of its own, and these are the answers. -/
structure Tour (calls : List Call) (visits : List Visit) (exchanges : List Exchange) : Prop where
  calls : visits.map Visit.call = calls
  exchanges : visits.map Visit.exchange = exchanges
  whole : ∀ v ∈ visits, v.Whole

theorem tour_cons_iff {c : Call} {calls : List Call} {v : Visit} {visits : List Visit}
    {x : Exchange} {exchanges : List Exchange} :
    Tour (c :: calls) (v :: visits) (x :: exchanges) ↔
      v.call = c ∧ v.exchange = x ∧ v.Whole ∧ Tour calls visits exchanges := by
  constructor
  · rintro ⟨calls, exchanges, whole⟩
    obtain ⟨call, calls⟩ := List.cons.inj calls
    obtain ⟨exchange, exchanges⟩ := List.cons.inj exchanges
    exact ⟨call, exchange, whole v List.mem_cons_self, calls, exchanges,
      fun w mem => whole w (List.mem_cons_of_mem _ mem)⟩
  · rintro ⟨rfl, rfl, whole, rfl, rfl, wholes⟩
    exact ⟨rfl, rfl, List.forall_mem_cons.2 ⟨whole, wholes⟩⟩

/-- A tour of some calls is not empty. -/
theorem Tour.cons {c : Call} {calls : List Call} {visits : List Visit} {exchanges : List Exchange}
    (tour : Tour (c :: calls) visits exchanges) :
    ∃ v later x others, visits = v :: later ∧ exchanges = x :: others := by
  cases visits with
  | nil => cases tour.calls
  | cons v later => exact ⟨v, later, _, _, rfl, tour.exchanges.symm⟩

section Courses

variable {known : Endpoints} {before : List Visit} {log : List Roundtrip} {calls : List Call}
  {exchanges : List Exchange}

theorem course_cons (c : Call) (calls : List Call) (known : Endpoints) :
    ((store Talk.connection).course (c :: calls)).run known =
      ((store Talk.connection).answer c).run known >>= fun first =>
        ((store Talk.connection).course calls).run first.2 >>= fun later =>
          pure (⟨c, first.1⟩ :: later.1, later.2) := rfl

/-- Courses of the cluster are tours of steady searches without those for what was found before. -/
theorem runs_course_iff (knows : Knows known before) (whole : ∀ w ∈ before, w.Whole) :
    (∃ known', (((store Talk.connection).course calls).run known).Runs log (exchanges, known')) ↔
      ∃ visits, Tour calls visits exchanges ∧ (∀ w ∈ before, ∀ v ∈ visits, w.Steady v) ∧
        visits.Pairwise Steady ∧ (spared before visits).flatMap Visit.log = log := by
  induction calls generalizing known before log exchanges with
  | nil =>
    constructor
    · rintro ⟨known', ran⟩
      obtain ⟨rfl, eq⟩ := Talk.runs_pure_iff.1 ran
      obtain ⟨rfl, rfl⟩ := Prod.mk.inj eq
      exact ⟨[], ⟨rfl, rfl, List.forall_mem_nil _⟩, fun _ _ => List.forall_mem_nil _, .nil, rfl⟩
    · rintro ⟨visits, tour, -, -, rfl⟩
      obtain rfl : visits = [] := List.map_eq_nil_iff.1 tour.calls
      obtain rfl : exchanges = [] := tour.exchanges.symm
      exact ⟨known, .done _⟩
  | cons c calls ih =>
    simp only [course_cons, Talk.runs_bind_iff, Talk.runs_pure_iff]
    constructor
    · rintro ⟨known', first, _, ⟨answer, between⟩, rfl, ran, later, _, ⟨exchanges, after⟩, rfl,
        ran', rfl, eq⟩
      obtain ⟨rfl, rfl⟩ := Prod.mk.inj eq
      obtain ⟨v, whole', steady, rfl, exchange, rfl⟩ := (runs_answer_iff knows whole).1 ran
      obtain rfl : v.call = c := congrArg Exchange.call exchange
      have wholes : ∀ w ∈ before ++ [v], w.Whole :=
        List.forall_mem_append.2 ⟨whole, List.forall_mem_singleton.2 whole'⟩
      obtain ⟨visits, tour, across, pairs, rfl⟩ :=
        (ih (knows.after steady) wholes).1 ⟨_, ran'⟩
      simp only [List.mem_append, List.mem_singleton, or_imp, forall_and, forall_eq] at across
      refine ⟨v :: visits, tour_cons_iff.2 ⟨rfl, exchange, whole', tour⟩, fun w mem => ?_,
        List.pairwise_cons.2 ⟨across.2, pairs⟩, by simp [spared]⟩
      exact List.forall_mem_cons.2 ⟨steady w mem, across.1 w mem⟩
    · rintro ⟨visits, tour, across, pairs, rfl⟩
      obtain ⟨v, visits, x, exchanges, rfl, rfl⟩ := tour.cons
      obtain ⟨rfl, rfl, whole', tour⟩ := tour_cons_iff.1 tour
      obtain ⟨follows, pairs⟩ := List.pairwise_cons.1 pairs
      have steady : ∀ w ∈ before, w.Steady v := fun w mem => across w mem v List.mem_cons_self
      have wholes : ∀ w ∈ before ++ [v], w.Whole :=
        List.forall_mem_append.2 ⟨whole, List.forall_mem_singleton.2 whole'⟩
      have across : ∀ w ∈ before ++ [v], ∀ u ∈ visits, w.Steady u := by
        simp only [List.mem_append, List.mem_singleton, or_imp, forall_and, forall_eq]
        exact ⟨fun w mem u mem' => across w mem u (List.mem_cons_of_mem _ mem'), follows⟩
      obtain ⟨known', ran⟩ := (ih (knows.after steady) wholes).2 ⟨visits, tour, across, pairs, rfl⟩
      exact ⟨known', (v.spare before).log, _, (v.answer, _), rfl,
        (runs_answer_iff knows whole).2 ⟨v, whole', steady, rfl, rfl, rfl⟩, _, [], _,
        (List.append_nil _).symm, ran, rfl, rfl⟩

/-! ### Without a memory -/

/-- The store of the cluster if it forgot at once where a kind is served. -/
def searching {m : Type → Type} [Monad m] (send : Connection m) : Store m :=
  (store send).lift fun op => op.run' []

theorem runs_answer_searching_iff {c : Call} {answer : c.Answer} :
    ((searching Talk.connection).answer c).Runs log answer ↔
      ∃ v : Visit, v.Whole ∧ v.log = log ∧ v.exchange = ⟨c, answer⟩ := by
  have forgets : (searching Talk.connection).answer c =
      Prod.fst <$> ((store Talk.connection).answer c).run [] := by cases c <;> rfl
  rw [forgets, Talk.runs_map_iff]
  constructor
  · rintro ⟨⟨answer, known⟩, ran, rfl⟩
    obtain ⟨v, whole, eq, exchange, -⟩ := (runs_answer_search_iff rfl).1 ran
    exact ⟨v, whole, eq, exchange⟩
  · rintro ⟨v, whole, eq, exchange⟩
    exact ⟨(answer, _), (runs_answer_search_iff rfl).2 ⟨v, whole, eq, exchange, rfl⟩, rfl⟩

/-- Courses of a store that forgets are tours, with every search. -/
theorem runs_course_searching_iff :
    ((searching Talk.connection).course calls).Runs log exchanges ↔
      ∃ visits, Tour calls visits exchanges ∧ visits.flatMap Visit.log = log := by
  induction calls generalizing log exchanges with
  | nil =>
    constructor
    · intro ran
      obtain ⟨rfl, rfl⟩ := Talk.runs_pure_iff.1 ran
      exact ⟨[], ⟨rfl, rfl, List.forall_mem_nil _⟩, rfl⟩
    · rintro ⟨visits, tour, rfl⟩
      obtain rfl : visits = [] := List.map_eq_nil_iff.1 tour.calls
      obtain rfl : exchanges = [] := tour.exchanges.symm
      exact .done _
  | cons c calls ih =>
    rw [Store.course]
    simp only [Talk.runs_bind_iff, Talk.runs_pure_iff]
    constructor
    · rintro ⟨first, _, answer, rfl, ran, later, _, exchanges, rfl, ran', rfl, rfl⟩
      obtain ⟨v, whole, rfl, exchange⟩ := runs_answer_searching_iff.1 ran
      obtain rfl : v.call = c := congrArg Exchange.call exchange
      obtain ⟨visits, tour, rfl⟩ := ih.1 ran'
      exact ⟨v :: visits, tour_cons_iff.2 ⟨rfl, exchange, whole, tour⟩, by simp⟩
    · rintro ⟨visits, tour, rfl⟩
      obtain ⟨v, visits, x, exchanges, rfl, rfl⟩ := tour.cons
      obtain ⟨rfl, rfl, whole, tour⟩ := tour_cons_iff.1 tour
      exact ⟨v.log, _, v.answer, rfl, runs_answer_searching_iff.2 ⟨v, whole, rfl, rfl⟩, _, [], _,
        (List.append_nil _).symm, ih.2 ⟨visits, tour, rfl⟩, rfl, rfl⟩

end Courses

theorem steady_of_served {visits : List Visit} {served : GroupVersionKind → Result Endpoint}
    (same : ∀ v ∈ visits, v.found = served v.call.kind) : visits.Pairwise Steady := by
  refine List.pairwise_of_forall_mem_list fun w mem v mem' kind e found => ?_
  rw [same v mem', ← kind, ← same w mem, found]

/-- The courses of the cluster are those of a store that searches at every call, in which a search
that succeeded keeps succeeding in the same way, without the searches for what was found before: the
answers are the same, and so is what is sent about objects. This holds of all courses of a store
that searches, if the server always says the same of a kind. -/
theorem store_course (calls : List Call) (exchanges : List Exchange) :
    (∀ log, (∃ known,
        (((store Talk.connection).course calls).run []).Runs log (exchanges, known)) ↔
      ∃ visits, Tour calls visits exchanges ∧ visits.Pairwise Steady ∧
        (spared [] visits).flatMap Visit.log = log) ∧
    (∀ log, ((searching Talk.connection).course calls).Runs log exchanges ↔
      ∃ visits, Tour calls visits exchanges ∧ visits.flatMap Visit.log = log) ∧
    (∀ (visits : List Visit) (served : GroupVersionKind → Result Endpoint),
      Tour calls visits exchanges → (∀ v ∈ visits, v.found = served v.call.kind) →
      ∃ known, (((store Talk.connection).course calls).run []).Runs
        ((spared [] visits).flatMap Visit.log) (exchanges, known)) ∧
    ∀ visits, Tour calls visits exchanges → ∀ v ∈ visits, v.Proper := by
  have courses (log : List Roundtrip) :
      (∃ known, (((store Talk.connection).course calls).run []).Runs log (exchanges, known)) ↔
        ∃ visits, Tour calls visits exchanges ∧ visits.Pairwise Steady ∧
          (spared [] visits).flatMap Visit.log = log := by
    rw [runs_course_iff knows_nil (List.forall_mem_nil _)]
    refine exists_congr fun visits => and_congr_right fun _ => ?_
    exact and_iff_right (List.forall_mem_nil _)
  refine ⟨courses, fun log => runs_course_searching_iff, fun visits served tour same => ?_,
    fun visits tour v mem => (tour.whole v mem).proper⟩
  exact (courses _).2 ⟨visits, tour, steady_of_served same, rfl⟩

/-! ## An instance -/

section Instance

/-- A reply that holds a document. -/
def said (j : Json) : Except String Reply := .ok ⟨200, j.text⟩

/-- What a server replies that has the core group alone, with two kinds. -/
def coreReplies : List (Except String Reply) :=
  let resource (name kind : String) (namespaced : Bool) : Json :=
    .object [("name", .str name), ("singularName", .str ""), ("kind", .str kind),
      ("namespaced", .bool namespaced), ("verbs", .arr [])]
  [said (.object [("groups", .arr [])]),
    said (.object [("versions", .arr [.str "v1"]), ("serverAddressByClientCIDRs", .arr [])]),
    said (.object [("groupVersion", .str "v1"), ("resources",
      .arr [resource "configmaps" "ConfigMap" true, resource "namespaces" "Namespace" false])])]

/-- Settings are read twice, then without a namespace, then all of them, and at last the namespace
itself, as if it were in another one. -/
def someCalls : List Call :=
  let settings : GroupVersionKind := ⟨"", "v1", "ConfigMap"⟩
  [.get (.of settings (some "team") "web"), .get (.of settings (some "team") "web"),
    .get (.of settings none "web"), .list settings none,
    .get (.of ⟨"", "v1", "Namespace"⟩ (some "elsewhere") "team")]

/-- The first search fails, and every later request is replied to. -/
def someReplies : List (Except String Reply) :=
  let object (name : String) : Json := .object [("metadata", .object [("name", .str name)])]
  [.error "refused"] ++ coreReplies ++
    [said (object "web"), said (.object [("metadata", .object []), ("items", .arr [])])] ++
    coreReplies ++ [said (object "team")]

theorem someCalls_course :
    ∃ log exchanges known visits,
      (((store Talk.connection).course someCalls).run []).play someReplies =
          some (log, exchanges, known) ∧
        log.map (·.request.target.path) =
          ["/apis", "/apis", "/api", "/api/v1", "/api/v1/namespaces/team/configmaps/web",
            "/api/v1/configmaps", "/apis", "/api", "/api/v1", "/api/v1/namespaces/team"] ∧
        Tour someCalls visits exchanges ∧ visits.Pairwise Steady ∧
        (spared [] visits).flatMap Visit.log = log ∧ ∀ v ∈ visits, v.Proper := by
  have paths : ((((store Talk.connection).course someCalls).run []).play someReplies).map
      (·.1.map (·.request.target.path)) =
        some ["/apis", "/apis", "/api", "/api/v1", "/api/v1/namespaces/team/configmaps/web",
          "/api/v1/configmaps", "/apis", "/api", "/api/v1", "/api/v1/namespaces/team"] := by
    decide +kernel
  obtain ⟨⟨log, exchanges, known⟩, played, eq⟩ := Option.map_eq_some_iff.1 paths
  obtain ⟨courses, -, -, proper⟩ := store_course someCalls exchanges
  obtain ⟨visits, tour, steady, logged⟩ := (courses log).1 ⟨known, Talk.runs_of_play played⟩
  exact ⟨log, exchanges, known, visits, played, eq, tour, steady, logged, proper visits tour⟩

end Instance

end DesiredState.Cluster
