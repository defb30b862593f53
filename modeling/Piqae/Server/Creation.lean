/-
Piqae/Server/Creation.lean

The request handler that creates a job (`create_job_impl`,
`control-plane/src/api.rs`): the job is registered with one call to the
repository and put into the queue of its node with another, and the handler may
stop in between.

A request that is repeated then finds its job by the idempotency key or by the
envelope, and is answered at once, whatever state the job is in.  As long as this
does not happen before the job was queued, every job that a request was answered
with is in the queue of its node, or further.
-/
import Piqae.Server.Requests

namespace Piqae.Server

/-- The tables, the handlers at work, and what has been answered. -/
structure JobApi where
  tables : RequestStore
  /-- The jobs whose handler is between its two calls. -/
  handling : List String
  /-- The jobs that were created and that no handler has queued. -/
  unqueued : List String
  /-- The jobs that requests were answered with. -/
  acknowledged : List String

inductive ApiOp
  /-- A request, up to the end of `create_cloud_job`. -/
  | createJob (request : CreateJob)
  /-- The handler of a new job goes on; `published` says whether the event of the
  job can be published, without which the request fails. -/
  | queueJob (now : DateTime) (jobId : String) (published : Bool)
  /-- The handler of a new job stops. -/
  | stop (jobId : String)
  | server (op : ServerOp)

/-- The handler registers its job. -/
def CreateJob.registered (request : CreateJob) : CreateJob := { request with state := .registered }

namespace JobApi

def initial : JobApi := ⟨⟨.empty, .empty, .empty⟩, [], [], []⟩

def createJob (a : JobApi) (request : CreateJob) : JobApi :=
  match a.tables.createCloudJob request.registered with
  | .error _ => a
  -- the wake hints of a job that exists are repaired, its state is not
  | .ok (.existing jobId _, tables) =>
    { a with tables := tables, acknowledged := jobId :: a.acknowledged }
  | .ok (.created jobId _, tables) =>
    { a with
      tables := tables
      handling := jobId :: a.handling
      unqueued := jobId :: a.unqueued }

def queueJob (a : JobApi) (now : DateTime) (jobId : String) (published : Bool) : JobApi :=
  if jobId ∈ a.handling then
    let handling := a.handling.filter (· ≠ jobId)
    match a.tables.toPostgresStore.transitionJob now jobId .waitingForAgent with
    | .error _ => { a with handling := handling }
    | .ok (_, store) =>
      { tables := { a.tables with toPostgresStore := store }
        handling := handling
        unqueued := a.unqueued.filter (· ≠ jobId)
        acknowledged := if published then jobId :: a.acknowledged else a.acknowledged }
  else a

section Machine

variable (digest : String → String) (decodeBase64 : String → Option String)

def step (a : JobApi) : ApiOp → JobApi
  | .createJob request => a.createJob request
  | .queueJob now jobId published => a.queueJob now jobId published
  | .stop jobId => { a with handling := a.handling.filter (· ≠ jobId) }
  | .server op => { a with
    tables.toPostgresStore := a.tables.toPostgresStore.serve digest decodeBase64 op }

abbrev run (ops : List ApiOp) : JobApi := Run.exec (step digest decodeBase64) initial ops

end Machine

/-! ### Jobs that requests stand for -/

/-- A key or an envelope stands for the job. -/
def Named (s : RequestStore) (jobId : String) : Prop :=
  (∃ key row, s.idempotencyRequests.get? key = some row ∧ row.resourceId = jobId) ∨
    ∃ envelopeId row, s.consumedEnvelopes.get? envelopeId = some row ∧ row.jobId = jobId

variable {s s' : RequestStore} {request : CreateJob} {jobId : String} {job : JobRow}

theorem named_of_earlierJob (h : s.earlierJob request = .ok (some (jobId, job))) :
    Named s jobId ∧ s.jobs.get? jobId = some job := by
  unfold RequestStore.earlierJob at h
  split at h
  · cases h
  · next found hk =>
    cases h
    unfold RequestStore.keyedJob at hk
    split at hk
    · cases hk
    next key _ =>
    unfold RequestStore.findIdempotentJob at hk
    split at hk
    · cases hk
    next row hrow =>
    split at hk
    · cases hk
    split_ifs at hk
    split at hk
    · cases hk
    next hjob =>
    cases hk
    exact ⟨.inl ⟨key, row, hrow, rfl⟩, hjob⟩
  · unfold RequestStore.sealedJob at h
    split at h
    · cases h
    unfold RequestStore.findConsumingJob at h
    split at h
    · cases h
    next row hrow =>
    split at h
    · cases h
    next hjob =>
    split_ifs at h
    cases h
    exact ⟨.inr ⟨_, row, hrow, rfl⟩, hjob⟩

/-- A call that creates a job gives its name to the job, and to no other. -/
theorem named_of_creates (h : RequestStore.Creates request s s') (hnamed : Named s' jobId) :
    jobId = request.jobId ∨ Named s jobId := by
  rcases hnamed with ⟨key, row, hrow, rfl⟩ | ⟨envelopeId, row, hrow, rfl⟩
  · by_cases hkey : request.idempotencyKey = some key
    · rw [(h.recorded key hkey).2] at hrow
      cases hrow
      exact .inl rfl
    · rw [h.others key hkey] at hrow
      exact .inr (.inl ⟨key, row, hrow, rfl⟩)
  · rw [h.envelopes, RequestStore.consumeEnvelope] at hrow
    split at hrow
    · exact .inr (.inr ⟨envelopeId, row, hrow, rfl⟩)
    next manifest _ =>
    by_cases heq : envelopeId = manifest.envelopeId
    · subst heq
      rw [SortedMap.get?_insert_self] at hrow
      cases hrow
      exact .inl rfl
    · rw [SortedMap.get?_insert_ne heq] at hrow
      exact .inr (.inr ⟨envelopeId, row, hrow, rfl⟩)

/-! ### Acknowledged jobs -/

/-- A job that a request was answered with is in the queue of its node, or
further. -/
def Deliverable (a : JobApi) : Prop :=
  ∀ jobId ∈ a.acknowledged, ∃ job, a.tables.jobs.get? jobId = some job ∧ job.state.isQueued = true

/-- No request is repeated before its job has been queued. -/
def Unhurried (a : JobApi) : ApiOp → Prop
  | .createJob request => ∀ jobId job, a.tables.earlierJob request.registered =
      .ok (some (jobId, job)) → jobId ∉ a.unqueued
  | _ => True

/-- What a request can find is queued, or waits for its handler. -/
structure Tracked (a : JobApi) : Prop where
  deliverable : a.Deliverable
  named : ∀ jobId job, Named a.tables jobId → a.tables.jobs.get? jobId = some job →
    job.state.isQueued = true ∨ jobId ∈ a.unqueued
  /-- Every name is that of a job. -/
  present : ∀ jobId, Named a.tables jobId → ∃ job, a.tables.jobs.get? jobId = some job

theorem tracked_initial : Tracked initial where
  deliverable _ h := by cases h
  named jobId job h := by
    rcases h with ⟨key, row, hrow, -⟩ | ⟨envelopeId, row, hrow, -⟩ <;> cases hrow
  present jobId h := by
    rcases h with ⟨key, row, hrow, -⟩ | ⟨envelopeId, row, hrow, -⟩ <;> cases hrow

variable {a : JobApi}

/-- The jobs go on while others use the tables. -/
theorem Tracked.keepsJobs (h : Tracked a) {drawn : List String} {store : PostgresStore}
    (hkept : PostgresStore.KeepsJobs drawn a.tables.toPostgresStore store) :
    Tracked { a with tables.toPostgresStore := store } := by
  refine ⟨fun jobId hmem => ?_, fun jobId job' hnamed hjob' => ?_, fun jobId hnamed => ?_⟩
  · obtain ⟨job, hjob, hq⟩ := h.deliverable jobId hmem
    obtain ⟨job', hjob', hcont⟩ := hkept jobId job hjob
    exact ⟨job', hjob', hcont.queued hq⟩
  · obtain ⟨job, hjob⟩ := h.present jobId hnamed
    obtain ⟨found, hfound, hcont⟩ := hkept jobId job hjob
    cases hfound.symm.trans hjob'
    exact (h.named jobId job hnamed hjob).imp_left hcont.queued
  · obtain ⟨job, hjob⟩ := h.present jobId hnamed
    obtain ⟨job', hjob', -⟩ := hkept jobId job hjob
    exact ⟨job', hjob'⟩

theorem Tracked.createJob (h : Tracked a) (hop : a.Unhurried (.createJob request)) :
    Tracked (a.createJob request) := by
  unfold JobApi.createJob
  split
  · exact h
  · next jobId job tables hcall =>
    rcases RequestStore.createCloudJob_ok hcall with ⟨_, _, heq, rfl, hearl⟩ | ⟨heq, -⟩
    · cases heq
      obtain ⟨hnamed, hjob⟩ := named_of_earlierJob hearl
      refine ⟨List.forall_mem_cons.mpr ⟨?_, h.deliverable⟩, h.named, h.present⟩
      exact ⟨job, hjob, (h.named _ job hnamed hjob).resolve_right (hop _ job hearl)⟩
    · cases heq
  · next jobId job tables hcall =>
    rcases RequestStore.createCloudJob_ok hcall with ⟨_, _, heq, -⟩ | ⟨heq, -, hcr⟩
    · cases heq
    cases heq
    have hkept := h.keepsJobs hcr.kept
    refine ⟨hkept.deliverable, fun id found hnamed hfound => ?_, fun id hnamed => ?_⟩
    · rcases named_of_creates hcr hnamed with rfl | hnamed
      · exact .inr List.mem_cons_self
      · exact (hkept.named id found hnamed hfound).imp_right (List.mem_cons_of_mem _)
    · rcases named_of_creates hcr hnamed with rfl | hnamed
      · exact ⟨_, hcr.job⟩
      · exact hkept.present id hnamed

theorem Tracked.queueJob (h : Tracked a) {now : DateTime} {published : Bool} :
    Tracked (a.queueJob now jobId published) := by
  unfold JobApi.queueJob
  split
  · dsimp only
    split
    · exact { h with }
    · next row store htr =>
      have hkeeps : PostgresStore.KeepsJobs [] _ store :=
        PostgresStore.keepsJobs_transitionJob htr
      have hkept := h.keepsJobs hkeeps
      -- the job is in the queue now
      have hq : ∃ job, store.jobs.get? jobId = some job ∧ job.state.isQueued = true := by
        unfold PostgresStore.transitionJob at htr
        split at htr
        · cases htr
        next job hjob =>
        split at htr
        · cases htr
        cases htr
        refine ⟨job.advance .waitingForAgent now, ?_, rfl⟩
        rw [PostgresStore.putJob, SortedMap.get?_modify_self, hjob]
        rfl
      refine ⟨fun id hmem => ?_, fun id job hnamed hjob => ?_, hkept.present⟩
      · have hmem' : id = jobId ∨ id ∈ a.acknowledged := by
          split_ifs at hmem
          · exact List.mem_cons.mp hmem
          · exact .inr hmem
        rcases hmem' with rfl | hmem'
        · exact hq
        · exact hkept.deliverable id hmem'
      · by_cases heq : id = jobId
        · subst heq
          obtain ⟨found, hfound, hst⟩ := hq
          cases hfound.symm.trans hjob
          exact .inl hst
        · refine (hkept.named id job hnamed hjob).imp_right fun hmem => ?_
          exact List.mem_filter.mpr ⟨hmem, by simpa using heq⟩
  · exact h

theorem Tracked.step (digest : String → String) (decodeBase64 : String → Option String)
    (h : Tracked a) {op : ApiOp} (hop : a.Unhurried op) :
    Tracked (a.step digest decodeBase64 op) := by
  cases op with
  | createJob request => exact h.createJob hop
  | queueJob => exact h.queueJob
  | stop jobId => exact { h with }
  | server op =>
    exact h.keepsJobs (PostgresStore.keepsJobs_serve digest decodeBase64 _ op)

/-- **An acknowledged job is deliverable**: if no request is repeated before its
job has been queued, then every job that a request was answered with is waiting
for its node or further, and a node can claim it while it waits. -/
theorem acknowledged_job_deliverable (digest : String → String)
    (decodeBase64 : String → Option String) (ops : List ApiOp)
    (h : Run.Meets (step digest decodeBase64) Unhurried initial ops) :
    ∀ jobId ∈ (run digest decodeBase64 ops).acknowledged,
      ∃ job, (run digest decodeBase64 ops).tables.jobs.get? jobId = some job ∧
        job.state.isQueued = true ∧ ∀ now, job.state = .waitingForAgent → now < job.expiresAt →
          (∀ leaseUntil ∈ job.leaseUntil, leaseUntil < now) →
            PostgresStore.claimable now job.agentId job = true := by
  have htracked : Tracked (run digest decodeBase64 ops) :=
    Run.Meets.invariant (fun _ _ ha hop => ha.step digest decodeBase64 hop) tracked_initial h
  intro jobId hmem
  obtain ⟨job, hjob, hq⟩ := htracked.deliverable jobId hmem
  refine ⟨job, hjob, hq, fun now hwait hexpires hlease => ?_⟩
  simp only [PostgresStore.claimable, hwait, beq_self_eq_true, Bool.true_or, Bool.and_true,
    Bool.true_and, Bool.and_eq_true, decide_eq_true_eq]
  refine ⟨hexpires, ?_⟩
  cases huntil : job.leaseUntil with
  | none => rfl
  | some leaseUntil => simpa using hlease leaseUntil huntil

/-- The request is repeated when its job is queued. -/
def patient : List ApiOp :=
  [.createJob (Requests.sample "job-1" 0 "a"), .queueJob 1 "job-1" true,
    .createJob (Requests.sample "job-2" 1 "a")]

/-- The handler stops before it has queued its job, and the request is repeated. -/
def interrupted : List ApiOp :=
  [.createJob (Requests.sample "job-1" 0 "a"), .stop "job-1",
    .createJob (Requests.sample "job-2" 1 "a")]

theorem acknowledged_job_deliverable_patient :
    Run.Meets (step id fun _ => none) Unhurried initial patient ∧
      "job-1" ∈ (run id (fun _ => none) patient).acknowledged ∧
      ∃ job, (run id (fun _ => none) patient).tables.jobs.get? "job-1" = some job ∧
        job.state.isQueued = true := by
  have hnone : (run id (fun _ => none) (patient.take 2)).unqueued = [] := by decide +kernel
  have hmeets : Run.Meets (step id fun _ => none) Unhurried initial patient := by
    refine ⟨fun jobId job h => ?_, trivial, fun jobId job _ hmem => ?_, trivial⟩
    · exact absurd h nofun
    · exact absurd (hnone ▸ hmem) List.not_mem_nil
  have hmem : "job-1" ∈ (run id (fun _ => none) patient).acknowledged := by decide +kernel
  obtain ⟨job, hjob, hq, -⟩ :=
    acknowledged_job_deliverable id (fun _ => none) patient hmeets "job-1" hmem
  exact ⟨hmeets, hmem, job, hjob, hq⟩

/-- The second request is answered with a job that nobody queues. -/
theorem acknowledged_job_stays_registered :
    "job-1" ∈ (run id (fun _ => none) interrupted).acknowledged ∧
      ((run id (fun _ => none) interrupted).tables.jobs.get? "job-1").map JobRow.state =
        some .registered ∧ (run id (fun _ => none) interrupted).handling = [] := by
  decide +kernel

end JobApi

end Piqae.Server
