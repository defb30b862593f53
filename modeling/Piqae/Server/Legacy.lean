/-
Piqae/Server/Legacy.lean

Cancelling jobs through the legacy interface (`control-plane/src/compatibility.rs`):
they are read once, and those that no node had then are asked for one after the
other.  Every call of the repository is one transaction, and the server may do
anything else before it.

A request that finds its job accepted goes to the node, and the job is reported
all the same; and only the newest 500 jobs are read.
-/
import Piqae.Server.Jobs

namespace Piqae.Server.PostgresStore

open List

/-- `list_jobs` without a cursor: the newest jobs. -/
def listJobs (s : PostgresStore) (limit : Nat) : List (String × JobRow) :=
  (s.jobs.entries.insertionSort fun a b => b.2.createdAt < a.2.createdAt ∨
    (a.2.createdAt = b.2.createdAt ∧ b.1 ≤ a.1)).take (max 1 (min limit 500))

def cancellable (job : JobRow) : Bool :=
  job.state == .registered || job.state == .contentPending || job.state == .waitingForAgent

/-- A job as it was read, with its legacy id. -/
structure Candidate where
  id : Nat
  jobId : String
  job : JobRow

/-- A request for a cancellation, with the tables it finds. -/
structure Asked where
  candidate : Candidate
  now : DateTime
  store : PostgresStore

namespace Asked

variable (asked : Asked)

def request : Except StorageError (JobRow × PostgresStore) :=
  asked.store.requestJobCancellation asked.now asked.candidate.jobId

/-- Whether the job is reported; another error ends the call. -/
def answer : Except StorageError Bool :=
  match asked.request with
  | .ok _ => .ok true
  | .error .concurrentStateChange | .error .invalidTransition => .ok false
  | .error error => .error error

def accepted : Bool := asked.store.acceptances.contains asked.candidate.jobId

def findsCancellable : Bool := (asked.store.jobs.get? asked.candidate.jobId).any cancellable

/-- The tables after the request. -/
def left : PostgresStore := asked.store.committed asked.request

/-- The request has cancelled the job, which no node had accepted. -/
def cancels : Bool :=
  match asked.request with
  | .ok _ => !asked.accepted &&
    (asked.left.jobs.get? asked.candidate.jobId).any fun job => job.state == .cancelled
  | .error _ => false

end Asked

/-- A call, with the tables of legacy ids and printers and all that happens meanwhile. -/
structure Call where
  printers : Option (List String)
  /-- The ids asked for, with what happens before each is read. -/
  jobSet : Option (List (Nat × List ServerOp))
  /-- What happens before each request, and when the request is. -/
  turn : Nat → List ServerOp × DateTime
  digest : String → String
  decodeBase64 : String → Option String
  legacyId : String → Nat
  resolve : Nat → Option String
  printer : String → String

namespace Call

section

variable (c : Call) (s : PostgresStore)

/-- What the server does before a call of the repository. -/
abbrev others (ops : List ServerOp) : PostgresStore :=
  Run.exec (serve c.digest c.decodeBase64) s ops

def readJobs (s : PostgresStore) :
    List (Nat × List ServerOp) → Except StorageError (List Candidate × PostgresStore)
  | [] => .ok ([], s)
  | (id, ops) :: ids =>
    let s := c.others s ops
    match (c.resolve id).bind fun jobId => (s.jobs.get? jobId).map (Candidate.mk id jobId) with
    | none => .error .notFound
    | some candidate => (readJobs s ids).map fun read => (candidate :: read.1, read.2)

def candidates : Except StorageError (List Candidate × PostgresStore) :=
  match c.jobSet with
  | some ids => c.readJobs s ids
  | none => .ok ((s.listJobs 500).map fun e => ⟨c.legacyId e.1, e.1, e.2⟩, s)

def selects (candidate : Candidate) : Bool :=
  (c.printers.all fun printers => printers.contains (c.printer candidate.jobId)) &&
    cancellable candidate.job

/-- The loop of `cancel_matching_jobs` over the jobs it does not pass over: what it
returns, and what it has asked for. -/
def cancelEach (s : PostgresStore) (k : Nat) :
    List Candidate → Except StorageError (List Nat) × List Asked
  | [] => (.ok [], [])
  | candidate :: rest =>
    let asked : Asked := ⟨candidate, (c.turn k).2, c.others s (c.turn k).1⟩
    match asked.answer with
    | .error error => (.error error, [asked])
    | .ok reported =>
      let call := cancelEach asked.left (k + 1) rest
      (call.1.map fun ids => if reported then candidate.id :: ids else ids, asked :: call.2)

def cancelMatchingJobs : Except StorageError (List Nat) × List Asked :=
  match c.candidates s with
  | .error error => (.error error, [])
  | .ok (candidates, s) => c.cancelEach s 0 (candidates.filter c.selects)

end

variable {c : Call} {s s' : PostgresStore} {jobId : String} {candidates : List Candidate}

theorem contains_of_keepsJobs {drawn : List String} (h : KeepsJobs drawn s s')
    (hjob : s.jobs.contains jobId = true) : s'.jobs.contains jobId = true := by
  obtain ⟨job, hjob⟩ := Option.isSome_iff_exists.mp hjob
  obtain ⟨job', hjob', -⟩ := h jobId job hjob
  exact Option.isSome_iff_exists.mpr ⟨job', hjob'⟩

theorem contains_others {ops : List ServerOp} (hjob : s.jobs.contains jobId = true) :
    (c.others s ops).jobs.contains jobId = true := by
  induction ops generalizing s with
  | nil => exact hjob
  | cons op ops ih => exact ih (contains_of_keepsJobs (keepsJobs_serve _ _ s op) hjob)

theorem contains_readJobs {ids : List (Nat × List ServerOp)}
    (h : c.readJobs s ids = .ok (candidates, s'))
    (hjob : s.jobs.contains jobId = true ∨ ∃ candidate ∈ candidates, candidate.jobId = jobId) :
    s'.jobs.contains jobId = true := by
  induction ids generalizing s candidates with
  | nil =>
    cases h
    simpa using hjob
  | cons entry ids ih =>
    rw [readJobs] at h
    split at h
    · cases h
    next candidate hread =>
    obtain ⟨⟨rest, _⟩, hrest, hok⟩ := Except.map_eq_ok h
    cases hok
    obtain ⟨id, -, hfound⟩ := Option.bind_eq_some_iff.mp hread
    obtain ⟨job, hget, rfl⟩ := Option.map_eq_some_iff.mp hfound
    rcases hjob with hs | ⟨other, hmem, rfl⟩
    · exact ih hrest (.inl (contains_others hs))
    rcases mem_cons.mp hmem with rfl | hmem
    · exact ih hrest (.inl (Option.isSome_iff_exists.mpr ⟨job, hget⟩))
    · exact ih hrest (.inr ⟨other, hmem, rfl⟩)

/-- A request whose job no node has accepted reports what it cancels. -/
theorem answer_of_free {asked : Asked}
    (hjob : asked.store.jobs.contains asked.candidate.jobId = true)
    (hfree : asked.accepted = false) :
    asked.answer = .ok asked.cancels ∧
      (asked.findsCancellable = true → asked.cancels = true) := by
  obtain ⟨job, hjob⟩ := Option.isSome_iff_exists.mp hjob
  have hsto : asked.store.acceptances.contains asked.candidate.jobId = false := hfree
  cases hst : job.state <;>
    simp [Asked.answer, Asked.cancels, Asked.findsCancellable, Asked.left, Asked.request,
      committed, cancellable, requestJobCancellation, hjob, hst, hfree, hsto,
      validateTransition, JobState.canTransitionTo, JobState.successors, closeReservations,
      putJob, SortedMap.get?_modify_self]

theorem cancelEach_exact {k : Nat} {call : Except StorageError (List Nat) × List Asked}
    (hcall : c.cancelEach s k candidates = call)
    (hjobs : ∀ candidate ∈ candidates, s.jobs.contains candidate.jobId = true)
    (hfree : ∀ asked ∈ call.2, asked.accepted = false) :
    call.1 = .ok ((call.2.filter Asked.cancels).map (·.candidate.id)) ∧
      ∀ candidate ∈ candidates, ∃ asked ∈ call.2, asked.candidate = candidate ∧
        (asked.findsCancellable = true → asked.cancels = true) := by
  induction candidates generalizing s k call with
  | nil =>
    cases hcall
    exact ⟨rfl, fun _ hmem => absurd hmem not_mem_nil⟩
  | cons candidate rest ih =>
    obtain ⟨hjob, hjobs⟩ := forall_mem_cons.mp hjobs
    rw [cancelEach] at hcall
    generalize hasked : Asked.mk candidate _ _ = asked at hcall
    have hc : asked.candidate = candidate := by rw [← hasked]
    have hthere : ∀ {jobId}, s.jobs.contains jobId = true →
        asked.store.jobs.contains jobId = true := by
      rw [← hasked]
      exact contains_others
    have hhead : asked.accepted = false := by
      apply hfree
      rw [← hcall]
      split <;> exact mem_cons_self
    -- the request is answered, and the other jobs are in the tables that it leaves
    obtain ⟨hans, hcan⟩ := answer_of_free (hc ▸ hthere hjob) hhead
    rw [hans] at hcall
    subst hcall
    have hkept : KeepsJobs [] asked.store asked.left :=
      .committed fun _ _ => keepsJobs_requestJobCancellation
    obtain ⟨hres, hrest⟩ := ih rfl
      (fun other hmem => contains_of_keepsJobs hkept (hthere (hjobs other hmem)))
      fun other hmem => hfree other (mem_cons_of_mem _ hmem)
    refine ⟨?_, forall_mem_cons.mpr ⟨⟨asked, mem_cons_self, hc, hcan⟩, fun other hmem => ?_⟩⟩
    · dsimp only
      rw [hres, ← hc]
      cases h : asked.cancels <;> simp [Except.map, h]
    · obtain ⟨later, hin, hother⟩ := hrest other hmem
      exact ⟨later, mem_cons_of_mem _ hin, hother⟩

/-- **Legacy cancellation**: if no more than 500 jobs are listed and no request finds
its job accepted, then a call that reads its jobs returns the legacy ids of the jobs
it has cancelled, which every selected job is that still waits when it is asked for. -/
theorem legacy_cancellation_exact (c : Call) (s : PostgresStore)
    (call : Except StorageError (List Nat) × List Asked) (hcall : c.cancelMatchingJobs s = call)
    (hlisted : c.jobSet = none → s.jobs.entries.length ≤ 500)
    (hfree : ∀ asked ∈ call.2, asked.accepted = false) :
    match c.candidates s with
    | .error error => call = (.error error, [])
    | .ok (candidates, _) => ∃ ids, call.1 = .ok ids ∧
      ids = (call.2.filter Asked.cancels).map (·.candidate.id) ∧
      (∀ candidate ∈ candidates, c.selects candidate = true →
        (∀ asked ∈ call.2, asked.candidate = candidate → asked.findsCancellable = true) →
          candidate.id ∈ ids) ∧
      (c.jobSet = none → ∀ jobId job, s.jobs.get? jobId = some job →
        ⟨c.legacyId jobId, jobId, job⟩ ∈ candidates) := by
  unfold cancelMatchingJobs at hcall
  cases hread : c.candidates s with
  | error error =>
    rw [hread] at hcall
    exact hcall.symm
  | ok read =>
    obtain ⟨candidates, s'⟩ := read
    rw [hread] at hcall
    unfold Call.candidates at hread
    have hjobs : ∀ candidate ∈ candidates.filter c.selects,
        s'.jobs.contains candidate.jobId = true := by
      intro candidate hmem
      replace hmem := (mem_filter.mp hmem).1
      split at hread
      · exact contains_readJobs hread (.inr ⟨candidate, hmem, rfl⟩)
      · cases hread
        obtain ⟨e, he, rfl⟩ := mem_map.mp hmem
        exact SortedMap.contains_iff.mpr ⟨e.2, (mem_insertionSort _).mp (mem_of_mem_take he)⟩
    obtain ⟨hres, hasked⟩ := cancelEach_exact hcall hjobs hfree
    refine ⟨_, hres, rfl, fun candidate hmem hselects hwaits => ?_, fun hnone => ?_⟩
    · obtain ⟨asked, hin, rfl, hcan⟩ :=
        hasked candidate (mem_filter.mpr ⟨hmem, hselects⟩)
      exact mem_map_of_mem (mem_filter.mpr ⟨hin, hcan (hwaits asked hin rfl)⟩)
    · rw [hnone] at hread
      cases hread
      intro jobId job hjob
      refine mem_map.mpr ⟨(jobId, job), ?_, rfl⟩
      rw [listJobs, take_of_length_le (by simpa using hlisted hnone)]
      exact (mem_insertionSort _).mpr (SortedMap.get?_eq_some_iff.mp hjob)

/-- A node has a lease of the job. -/
def leasedJob : List ServerOp :=
  [.request (.enrolAgent "agent"),
    .request (.createCloudJob "job" "agent" none .uri .registered 1 1000),
    .transitionJob 2 "job" .waitingForAgent,
    .request (.claimJobs 3 "agent" [("job", "lease", "token")])]

/-- All jobs are cancelled, with what happens before each request. -/
def cancelAll (turn : Nat → List ServerOp) : Call :=
  ⟨none, none, fun k => (turn k, 5), id, fun _ => none, fun jobId => if jobId = "job" then 7 else 8,
    fun _ => none, id⟩

/-- The newer of two jobs is released before it is asked for, and the other one expires. -/
def released : Call := cancelAll fun
  | 0 => [.transitionJob 4 "next" .waitingForAgent]
  | _ => [.transitionJob 5 "job" .expired]

theorem legacy_cancellation_exact_undisturbed :
    (released.cancelMatchingJobs (released.others empty (leasedJob ++
      [.request (.createCloudJob "next" "agent" none .uri .registered 3 1000)]))).1 = .ok [8] := by
  obtain ⟨ids, hres, rfl, -⟩ := legacy_cancellation_exact released
    (released.others empty (leasedJob ++
      [.request (.createCloudJob "next" "agent" none .uri .registered 3 1000)])) _ rfl
    (by decide +kernel) (by decide +kernel)
  rw [hres]
  exact congrArg _ (by decide +kernel)

/-- The node accepts the job before it is asked for, and it is reported. -/
theorem accepted_job_reported :
    let c := cancelAll fun _ =>
      [.request (.acceptAgentJob 4 ⟨"agent", "job", "lease", "token", none, 1, none⟩)]
    let call := c.cancelMatchingJobs (c.others empty leasedJob)
    call.1.toOption = some [7] ∧
      call.2.map (fun asked => (asked.accepted, asked.cancels)) = [(true, false)] := by
  decide +kernel

end Call

end Piqae.Server.PostgresStore
