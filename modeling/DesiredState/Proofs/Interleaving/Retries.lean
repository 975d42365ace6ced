import DesiredState.Proofs.Backoff
import DesiredState.Proofs.Interleaving.StoredStatus
import DesiredState.Proofs.Interleaving.Transcripts
import DesiredState.Proofs.Object.Key
import Mathlib.Data.List.DropRight

/-!
# Delays of owners over many calls

The owners of a kind are reconciled and retried in any order, with any results. What a call does to
the table of failures is known from the pass that it came to (`next_iff`), and only the failures of
its own owner change (`failures_settle`), as keys without slashes have different texts. So the
failures of an owner are its retries since they were last forgotten (`Course.failures_eq`), its
delays grow with them, and the calls for other owners can be left out (`Course.own`).
-/

namespace DesiredState.Backoff

open Dialogue

variable {ω τ : Type}

/-! ## Calls for owners -/

/-- A call for an owner, with what it came to. -/
inductive Event (ω : Type) where
  /-- The owner of the key was reconciled. -/
  | visited (owner : ω) (pass : Pass)
  /-- The owner was reconciled. -/
  | reconciled (owner : ω) (pass : Pass)
  /-- The owner is to wait so long after a failure. -/
  | retried (owner : ω) (delay : Duration)

namespace Event

/-- The failures of the owner are forgotten: it is not there, or was reconciled well. -/
def forgets : Event ω → Bool
  | visited _ pass => !pass.found
  | reconciled _ pass => !pass.found || (pass.result matches .ok _)
  | retried .. => false

def delay? : Event ω → Option Duration
  | retried _ delay => some delay
  | visited .. | reconciled .. => none

theorem forgets_of_delay {x : Event ω} {d : Duration} (delayed : x.delay? = some d) :
    x.forgets = false := by
  cases x with
  | retried owner delay => rfl
  | _ => cases delayed

variable [Owner ω]

def key : Event ω → ObjectKey
  | visited owner _ | reconciled owner _ | retried owner _ => Owner.key owner

/-- What the call does to the failures. -/
def absorb (b : Backoff) : Event ω → Backoff
  | visited owner pass => if pass.found then b else b.reset (Owner.key owner).text
  | reconciled owner pass =>
    let visited := if pass.found then b else b.reset (Owner.key owner).text
    if pass.result matches .ok _ then visited.reset (Owner.key owner).text else visited
  | retried owner _ => b.fail (Owner.key owner).text

/-- The reconciler can come to this, whatever the failures are. -/
def Possible (r : Reconciler (StateT τ Dialogue) ω) : Event ω → Prop
  | visited owner pass | reconciled owner pass =>
    ∃ t u log, ((r.pass (Owner.key owner)).run t).Runs log (pass, u)
  | retried .. => True

variable (x : Event ω) (b : Backoff)

theorem base_settle : (x.absorb b).base = b.base := by
  cases x with
  | retried owner delay => rfl
  | _ =>
    simp only [absorb]
    split_ifs <;> rfl

theorem cap_settle : (x.absorb b).cap = b.cap := by
  cases x with
  | retried owner delay => rfl
  | _ =>
    simp only [absorb]
    split_ifs <;> rfl

/-- Only the failures of the owner itself change. -/
theorem failures_settle (name : String) :
    (x.absorb b).failures name =
      if name = x.key.text then
        if x.forgets then 0
        else if x.delay?.isSome then min (b.failures name + 1) largestCount
        else b.failures name
      else b.failures name := by
  cases x with
  | visited owner pass =>
    obtain ⟨result, found, attempts, statusWritten⟩ := pass
    cases found <;> simp [absorb, key, forgets, delay?, failures_reset]
  | reconciled owner pass =>
    obtain ⟨result, found, attempts, statusWritten⟩ := pass
    by_cases mine : name = (Owner.key owner).text <;> cases found <;> cases result <;>
      simp [absorb, key, forgets, delay?, failures_reset, mine]
  | retried owner delay =>
    by_cases mine : name = (Owner.key owner).text <;>
      simp [absorb, key, forgets, delay?, failures_fail, mine]

end Event

/-! ## Courses of calls -/

variable [Owner ω]

/-- What can happen next to a table of failures. The store may answer anything, and so the calls may
come to anything. -/
inductive Next (r : Reconciler (StateT τ Dialogue) ω) : Backoff → Event ω → Backoff → Prop where
  | visited {owner : ω} {pass : Pass} {b b' : Backoff} {t u : τ} {log : List Exchange}
      (ran : (((r.reconcileKey (Owner.key owner)).run b).run t).Runs log ((pass, b'), u)) :
      Next r b (.visited owner pass) b'
  | reconciled {owner : ω} {pass : Pass} {b b' : Backoff} {t u : τ} {log : List Exchange}
      (ran : (((r.reconcile owner).run b).run t).Runs log ((pass, b'), u)) :
      Next r b (.reconciled owner pass) b'
  | retried {owner : ω} {delay : Duration} {b b' : Backoff}
      (counted : Reconciler.retryDelay owner b = (delay, b')) : Next r b (.retried owner delay) b'

/-- Calls for owners one after the other. -/
inductive Course (r : Reconciler (StateT τ Dialogue) ω) (first : Backoff) :
    List (Event ω) → Backoff → Prop where
  | start : Course r first [] first
  | next {events : List (Event ω)} {x : Event ω} {b b' : Backoff}
      (before : Course r first events b) (next : Next r b x b') : Course r first (events ++ [x]) b'

variable {r : Reconciler (StateT τ Dialogue) ω} {first b b' : Backoff} {x : Event ω}
  {events : List (Event ω)} {key : ObjectKey}

/-- A call settles the failures by what it came to. Of these, only a delay depends on them. -/
theorem next_iff :
    Next r b x b' ↔
      x.Possible r ∧ (∀ d, x.delay? = some d → d = b.delay (b.failures x.key.text)) ∧
        b' = x.absorb b := by
  constructor
  · intro next
    cases next with
    | visited ran =>
      obtain ⟨passed, rfl⟩ := runs_reconcileKey_iff.1 ran
      exact ⟨⟨_, _, _, passed⟩, nofun, rfl⟩
    | reconciled ran =>
      obtain ⟨between, visited, rfl⟩ := runs_reconcile_iff.1 ran
      obtain ⟨passed, rfl⟩ := runs_reconcileKey_iff.1 visited
      exact ⟨⟨_, _, _, passed⟩, nofun, rfl⟩
    | retried counted =>
      obtain ⟨rfl, rfl⟩ := Prod.mk.inj counted
      exact ⟨trivial, fun d eq => (Option.some.inj eq).symm, rfl⟩
  · rintro ⟨possible, delayed, rfl⟩
    cases x with
    | visited owner pass =>
      obtain ⟨t, u, log, ran⟩ := possible
      exact .visited (runs_reconcileKey_iff.2 ⟨ran, rfl⟩)
    | reconciled owner pass =>
      obtain ⟨t, u, log, ran⟩ := possible
      exact .reconciled (runs_reconcile_iff.2 ⟨_, runs_reconcileKey_iff.2 ⟨ran, rfl⟩, rfl⟩)
    | retried owner delay =>
      rw [delayed delay rfl]
      exact .retried rfl

/-! ### Retries since the failures were forgotten -/

/-- The retries of an owner since its failures were last forgotten. -/
def retriesSince (key : ObjectKey) (events : List (Event ω)) : Nat :=
  (events.rtakeWhile fun x => !(x.key = key && x.forgets)).countP fun x =>
    x.key = key && x.delay?.isSome

theorem retriesSince_snoc (key : ObjectKey) (events : List (Event ω)) (x : Event ω) :
    retriesSince key (events ++ [x]) =
      if x.key = key then
        if x.forgets then 0
        else if x.delay?.isSome then retriesSince key events + 1
        else retriesSince key events
      else retriesSince key events := by
  unfold retriesSince
  rw [List.rtakeWhile_concat]
  by_cases mine : x.key = key
  · by_cases forgotten : x.forgets = true
    · simp [mine, forgotten]
    · by_cases delayed : x.delay?.isSome = true <;> simp [mine, forgotten, delayed]
  · simp [mine]

/-- As long as they are not forgotten, the retries become no fewer. -/
theorem retriesSince_le_append {more : List (Event ω)}
    (kept : ∀ x ∈ more, x.key = key → x.forgets = false) :
    retriesSince key events ≤ retriesSince key (events ++ more) := by
  induction more using List.reverseRecOn with
  | nil => rw [List.append_nil]
  | append_singleton more x ih =>
    have before := ih fun y mem => kept y (List.mem_append_left _ mem)
    have last := kept x (List.mem_append_right _ (List.mem_singleton_self x))
    rw [← List.append_assoc, retriesSince_snoc]
    by_cases mine : x.key = key
    · rw [if_pos mine, if_neg (by simp [last mine])]
      split <;> omega
    · rwa [if_neg mine]

namespace Course

theorem base_eq (course : Course r first events b) : b.base = first.base := by
  induction course with
  | start => rfl
  | next before next ih => rw [(next_iff.1 next).2.2, Event.base_settle, ih]

theorem cap_eq (course : Course r first events b) : b.cap = first.cap := by
  induction course with
  | start => rfl
  | next before next ih => rw [(next_iff.1 next).2.2, Event.cap_settle, ih]

/-- A call in the midst of a course meets the table that the calls before it leave. -/
theorem next_of_mem {earlier later : List (Event ω)} (course : Course r first events b)
    (eq : events = earlier ++ x :: later) :
    ∃ c c', Course r first earlier c ∧ Next r c x c' := by
  -- From the end of the course: the call is the last one, or among those before it.
  induction course generalizing later with
  | start => simp at eq
  | @next events y c c' before next ih =>
    rcases List.eq_nil_or_concat later with rfl | ⟨later, last, rfl⟩
    · obtain ⟨rfl, last⟩ := List.append_inj' eq rfl
      obtain rfl := List.singleton_inj.1 last
      exact ⟨c, c', before, next⟩
    · rw [List.concat_eq_append, ← List.cons_append, ← List.append_assoc] at eq
      obtain ⟨rfl, -⟩ := List.append_inj' eq rfl
      exact ih rfl

/-! ### Owners with keys that are told apart -/

section SlashFree

theorem gvk_key (x : Event ω) : x.key.gvk = Owner.gvk ω := by
  cases x <;> rfl

theorem text_eq_iff (kind : key.gvk = Owner.gvk ω) (free : key.SlashFree)
    (free' : x.key.SlashFree) : key.text = x.key.text ↔ x.key = key := by
  rw [ObjectKey.text_inj (kind.trans (gvk_key x).symm) free free']
  exact eq_comm

variable (kind : key.gvk = Owner.gvk ω) (free : key.SlashFree)

include kind free

/-- The failures of an owner are its retries since they were forgotten, up to the largest count. -/
theorem failures_eq (fresh : first.failures key.text = 0) (course : Course r first events b)
    (plain : ∀ x ∈ events, x.key.SlashFree) :
    b.failures key.text = min (retriesSince key events) largestCount := by
  induction course with
  | start => rw [fresh]; rfl
  | @next events x c c' before next ih =>
    obtain ⟨-, -, rfl⟩ := next_iff.1 next
    have earlier := ih fun y mem => plain y (List.mem_append_left _ mem)
    have last := plain x (List.mem_append_right _ (List.mem_singleton_self x))
    rw [Event.failures_settle, retriesSince_snoc]
    simp only [text_eq_iff kind free last, earlier]
    split_ifs <;> omega

/-- The calls for an owner could be made alone, and would come to the same. -/
theorem own (course : Course r first events b) (plain : ∀ x ∈ events, x.key.SlashFree) :
    ∃ c, Course r first (events.filter (·.key = key)) c ∧
      c.failures key.text = b.failures key.text := by
  induction course with
  | start => exact ⟨first, .start, rfl⟩
  | @next events x d d' before next ih =>
    obtain ⟨c, alone, same⟩ := ih fun y mem => plain y (List.mem_append_left _ mem)
    obtain ⟨possible, delayed, rfl⟩ := next_iff.1 next
    have last := plain x (List.mem_append_right _ (List.mem_singleton_self x))
    rw [List.filter_append]
    by_cases mine : x.key = key
    · -- The call meets the same failures of its owner, so it comes to the same delay.
      refine ⟨x.absorb c, ?_, ?_⟩
      · rw [List.filter_cons_of_pos (by simpa using mine), List.filter_nil]
        refine .next alone (next_iff.2 ⟨possible, fun delay eq => ?_, rfl⟩)
        rw [delayed delay eq, mine, same, Backoff.delay, Backoff.delay, before.base_eq,
          before.cap_eq, alone.base_eq, alone.cap_eq]
      · rw [Event.failures_settle, Event.failures_settle, same]
    · refine ⟨c, ?_, ?_⟩
      · rwa [List.filter_cons_of_neg (by simpa using mine), List.filter_nil, List.append_nil]
      · rw [same, Event.failures_settle, if_neg (mt (text_eq_iff kind free last).1 mine)]

/-- A delay is that for the retries since the failures were forgotten. -/
theorem delay_eq (fresh : first.failures key.text = 0) {earlier later : List (Event ω)}
    (course : Course r first (earlier ++ x :: later) b)
    (plain : ∀ y ∈ earlier ++ x :: later, y.key.SlashFree) (mine : x.key = key) {d : Duration}
    (delayed : x.delay? = some d) :
    d = first.delay (min (retriesSince key earlier) largestCount) := by
  obtain ⟨c, c', before, next⟩ := course.next_of_mem rfl
  have counted := (next_iff.1 next).2.1 d delayed
  rw [mine, before.failures_eq kind free fresh fun y mem => plain y (List.mem_append_left _ mem)]
    at counted
  rw [counted, Backoff.delay, Backoff.delay, before.base_eq, before.cap_eq]

end SlashFree

end Course

/-- The retries of one owner in the midst of other calls. -/
structure Regular (r : Reconciler (StateT τ Dialogue) ω) (base cap : Duration) (key : ObjectKey)
    (events : List (Event ω)) (b : Backoff) : Prop where
  /-- The failures are the retries since they were forgotten. -/
  failures : b.failures key.text = min (retriesSince key events) largestCount
  bounded : ∀ x ∈ events, x.key = key → ∀ d, x.delay? = some d → base ≤ d ∧ d ≤ max base cap
  /-- Between two delays that the failures are not forgotten between, the second is no shorter. -/
  rising : ∀ earlier x between y later d d', events = earlier ++ x :: between ++ y :: later →
    x.key = key → y.key = key → x.delay? = some d → y.delay? = some d' →
    (∀ z ∈ between, z.key = key → z.forgets = false) → d ≤ d'
  /-- Without the calls for others, the calls for the owner come to the same. -/
  alone : ∃ c, Course r (start base cap) (events.filter (·.key = key)) c ∧
    c.failures key.text = b.failures key.text

/-- Whatever the calls for owners come to, the retries of each owner are regular. -/
theorem course_regular {base cap : Duration} {owner : ω}
    (course : Course r (start base cap) events b) (plain : ∀ x ∈ events, x.key.SlashFree)
    (free : (Owner.key owner).SlashFree) : Regular r base cap (Owner.key owner) events b where
  failures := course.failures_eq rfl free rfl plain
  bounded x mem mine d delayed := by
    obtain ⟨earlier, later, rfl⟩ := List.append_of_mem mem
    rw [course.delay_eq rfl free rfl plain mine delayed]
    exact ⟨base_le_delay_start base cap _, delay_start_le base cap _⟩
  rising earlier x between y later d d' eq mine mine' delayed delayed' kept := by
    subst eq
    have fewer : retriesSince (Owner.key owner) earlier ≤
        retriesSince (Owner.key owner) (earlier ++ x :: between) := by
      refine retriesSince_le_append fun z mem own => ?_
      rcases List.mem_cons.1 mem with rfl | mem
      · exact Event.forgets_of_delay delayed
      · exact kept z mem own
    rw [course.delay_eq rfl free rfl plain mine' delayed']
    rw [List.append_assoc, List.cons_append] at course plain
    rw [course.delay_eq rfl free rfl plain mine delayed]
    exact delay_le (by omega)
  alone := course.own rfl free plain

/-! ## An instance -/

section Instance

open Situation

/-- A tenant of this name. -/
def tenantNamed (name : String) : Tenant :=
  ⟨{ Metadata.empty with name := some name, uid := some (name ++ "-uid") }, ⟨name, .none⟩, none⟩

/-- The team fails three times. Meanwhile the guild fails, is gone, and fails again. -/
def failing : List (Event Tenant) :=
  [.retried (tenantNamed "team") (.ofMillis 5), .retried (tenantNamed "guild") (.ofMillis 5),
    .retried (tenantNamed "team") (.ofMillis 10),
    .reconciled (tenantNamed "guild") .absent,
    .retried (tenantNamed "guild") (.ofMillis 5), .retried (tenantNamed "team") (.ofMillis 20)]

theorem Course.retry {d : Duration} (before : Course r first events b) (owner : ω)
    (counted : b.delay (b.failures (Owner.key owner).text) = d) :
    Course r first (events ++ [.retried owner d]) (b.fail (Owner.key owner).text) :=
  .next before (.retried (congrArg (·, b.fail (Owner.key owner).text) counted))

theorem slashFree_tenantNamed {name : String} (h : '/' ∉ name.toList) :
    (Owner.key (tenantNamed name)).SlashFree := ⟨h, nofun⟩

theorem failing_regular :
    (∀ x ∈ failing, x.key.SlashFree) ∧ (Owner.key (tenantNamed "team")).SlashFree ∧
      ∃ b, Course (Reconciler.standard (tenantProgram true)) .standard failing b ∧
        Regular (Reconciler.standard (tenantProgram true)) (.ofMillis 5) (.ofSeconds 300)
          (Owner.key (tenantNamed "team")) failing b := by
  have team : (Owner.key (tenantNamed "team")).SlashFree := slashFree_tenantNamed (by decide)
  have guild : (Owner.key (tenantNamed "guild")).SlashFree := slashFree_tenantNamed (by decide)
  have plain : ∀ x ∈ failing, x.key.SlashFree := by
    simp only [failing, List.forall_mem_cons]
    exact ⟨team, guild, team, guild, guild, team, List.forall_mem_nil _⟩
  have gone : (((Reconciler.standard (tenantProgram true)).pass
      (Owner.key (tenantNamed "guild"))).run ()).Runs [⟨.get _, .ok none⟩] (.absent, ()) :=
    .ask (.done _)
  have met : Course (Reconciler.standard (tenantProgram true)) .standard (failing.take 3) _ :=
    ((Course.start.retry (tenantNamed "team") (by decide +kernel)).retry (tenantNamed "guild")
      (by decide +kernel)).retry (tenantNamed "team") (by decide +kernel)
  have course : Course (Reconciler.standard (tenantProgram true)) .standard failing _ :=
    ((met.next (.reconciled (runs_reconcile_iff.2
      ⟨_, runs_reconcileKey_iff.2 ⟨gone, rfl⟩, rfl⟩))).retry (tenantNamed "guild")
        (by decide +kernel)).retry (tenantNamed "team") (by decide +kernel)
  exact ⟨plain, team, _, course, course_regular course plain team⟩

end Instance

end DesiredState.Backoff
