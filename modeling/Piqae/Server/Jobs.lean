/-
Piqae/Server/Jobs.lean

What becomes of the row of a job.

Whatever the server does, a job stays in its table, one that has come to the
queue of its node never goes back before it, and a job is under a new lease only
after it was claimed (`KeepsJobs`).  There is one lemma for each operation, and
`keepsJobs_serve` for all of them.
-/
import Piqae.Server.Leases
import Piqae.Server.Acceptance

namespace Piqae

/-- The job has come to the queue of its node, or further. -/
def JobState.isQueued : JobState → Bool
  | registered | contentPending => false
  | _ => true

theorem JobState.isQueued_of_canTransitionTo {state next : JobState}
    (h : state.canTransitionTo next = true) (hst : state.isQueued = true) :
    next.isQueued = true := by
  have hall : ∀ next ∈ state.successors, next.isQueued = true := by
    revert hst
    cases state <;> decide
  exact hall next (by simpa [canTransitionTo] using h)

namespace Server

/-- What a job's lease is made of. -/
def JobRow.leaseFields (job : JobRow) : Option String × Option String × Option DateTime :=
  (job.leaseId, job.leaseTokenHash, job.leaseUntil)

/-- A job goes on: it stays its node's and queued, and its lease is over, the same,
or newly drawn. -/
structure JobRow.Continues (drawn : List String) (job job' : JobRow) : Prop where
  agent : job'.agentId = job.agentId
  queued : job.state.isQueued = true → job'.state.isQueued = true
  lease : job'.leaseId = none ∨ job'.leaseFields = job.leaseFields ∨
    ∃ leaseId ∈ drawn, job'.leaseId = some leaseId

theorem JobRow.Continues.refl (drawn : List String) (job : JobRow) : job.Continues drawn job :=
  ⟨rfl, id, .inr (.inl rfl)⟩

variable {job : JobRow}

theorem JobRow.Continues.trans {drawn : List String} {job' job'' : JobRow}
    (h : job.Continues drawn job') (h' : job'.Continues drawn job'') :
    job.Continues drawn job'' := by
  refine ⟨h'.agent.trans h.agent, h'.queued ∘ h.queued, ?_⟩
  rcases h'.lease with hnone | hsame | hnew
  · exact .inl hnone
  · rw [hsame, show job''.leaseId = job'.leaseId from congrArg Prod.fst hsame]
    exact h.lease
  · exact .inr (.inr hnew)

/-- A step along the lifecycle. -/
theorem JobRow.continues_of_validateTransition {drawn : List String} {next : JobState}
    {now : DateTime} (h : validateTransition job.state next = .ok ()) :
    job.Continues drawn (job.advance next now) := by
  refine ⟨rfl, JobState.isQueued_of_canTransitionTo ?_, .inr (.inl rfl)⟩
  unfold validateTransition at h
  split_ifs at h with hcan
  exact hcan

namespace PostgresStore

variable {s s' s'' : PostgresStore} {now : DateTime} {digest : String → String}
  {drawn : List String} {jobId agentId : String} {lease : JobLease} {next : DeliveryAttemptState}
  {attempt : DeliveryAttempt} {event : JobEvent} {row : JobRow} {job : JobRow}
  {attemptId : String} {item : NativeHandoffEvidence} {evidence : List NativeHandoffEvidence}
  {request : Acceptance}

/-- Every job goes on. -/
def KeepsJobs (drawn : List String) (s s' : PostgresStore) : Prop :=
  ∀ jobId job, s.jobs.get? jobId = some job →
    ∃ job', s'.jobs.get? jobId = some job' ∧ job.Continues drawn job'

theorem KeepsJobs.of_jobs_eq (h : s'.jobs = s.jobs) : KeepsJobs drawn s s' := by
  intro jobId job hjob
  rw [← h] at hjob
  exact ⟨job, hjob, .refl drawn job⟩

theorem KeepsJobs.refl (s : PostgresStore) : KeepsJobs drawn s s := .of_jobs_eq rfl

theorem KeepsJobs.trans (h : KeepsJobs drawn s s') (h' : KeepsJobs drawn s' s'') :
    KeepsJobs drawn s s'' := by
  intro jobId job hjob
  obtain ⟨job', hjob', hcont⟩ := h jobId job hjob
  obtain ⟨job'', hjob'', hcont'⟩ := h' jobId job' hjob'
  exact ⟨job'', hjob'', hcont.trans hcont'⟩

/-- One row is written. -/
theorem keepsJobs_putJob {f : JobRow → JobRow}
    (h : ∀ job, s.jobs.get? jobId = some job → job.Continues drawn (f job)) :
    KeepsJobs drawn s (s.putJob jobId f) := by
  intro id job hjob
  rw [putJob, SortedMap.get?_modify]
  by_cases heq : id = jobId
  · subst heq
    exact ⟨f job, by simp [hjob], h job hjob⟩
  · exact ⟨job, by simp [heq, hjob], .refl drawn job⟩

/-- A row that is known is replaced. -/
theorem keepsJobs_replaceJob {job' : JobRow} (hjob : s.jobs.get? jobId = some job)
    (h : job.Continues drawn job') : KeepsJobs drawn s (s.putJob jobId fun _ => job') := by
  refine keepsJobs_putJob fun found hfound => ?_
  rw [hjob] at hfound
  cases hfound
  exact h

theorem KeepsJobs.committed {α : Type} {result : Except StorageError (α × PostgresStore)}
    (h : ∀ a s', result = .ok (a, s') → KeepsJobs drawn s s') :
    KeepsJobs drawn s (s.committed result) := by
  rcases result with error | ⟨a, s'⟩
  · exact .refl s
  · exact h a s' rfl

/-! ### Creating and leasing -/

theorem keepsJobs_createCloudJob {destinationRoute : Option (String × String)}
    {content : ContentSource} {state : JobState} {createdAt expiresAt : DateTime}
    (h : s.createCloudJob jobId agentId destinationRoute content state createdAt expiresAt =
      .ok s') : KeepsJobs drawn s s' := by
  unfold createCloudJob at h
  split_ifs at h with _ hcont
  cases h
  intro id job hjob
  have hne : id ≠ jobId := by
    rintro rfl
    simp [SortedMap.contains, hjob] at hcont
  exact ⟨job, by rw [SortedMap.get?_insert_ne hne, hjob], .refl drawn job⟩

theorem keepsJobs_claimJob {leaseId leaseToken : String}
    (h : s.claimJob now digest agentId jobId leaseId leaseToken = some (lease, s'))
    (hdrawn : leaseId ∈ drawn) : KeepsJobs drawn s s' := by
  unfold claimJob at h
  split at h
  · cases h
  split_ifs at h
  cases h
  exact keepsJobs_putJob fun job _ => ⟨rfl, id, .inr (.inr ⟨leaseId, hdrawn, rfl⟩)⟩

theorem keepsJobs_claimJobs {rows : List (String × String × String)}
    (hdrawn : ∀ row ∈ rows, row.2.1 ∈ drawn) :
    KeepsJobs drawn s (s.claimJobs now digest agentId rows) := by
  induction rows generalizing s with
  | nil => exact .refl s
  | cons row rows ih =>
    have hrows := fun row' hrow' => hdrawn row' (List.mem_cons_of_mem row hrow')
    rw [claimJobs, List.foldl_cons]
    cases hclaim : s.claimJob now digest agentId row.1 row.2.1 row.2.2 with
    | none => exact ih hrows
    | some claimed =>
      exact (keepsJobs_claimJob hclaim (hdrawn row List.mem_cons_self)).trans (ih hrows)

theorem keepsJobs_releaseAgentLease (h : s.releaseAgentLease now digest agentId lease = .ok s') :
    KeepsJobs drawn s s' := by
  unfold releaseAgentLease at h
  split at h
  · cases h
  split_ifs at h
  cases h
  exact keepsJobs_putJob fun job _ => ⟨rfl, id, .inl rfl⟩

/-! ### Attempts -/

theorem keepsJobs_beginDeliveryAttempt {token : String} {request : NewDeliveryAttempt}
    {started : StartedDeliveryAttempt}
    (h : s.beginDeliveryAttempt now digest token request = .ok (started, s')) :
    KeepsJobs drawn s s' := by
  obtain ⟨-, -, -, -, -, -, hjobs, -⟩ := beginDeliveryAttempt_ok h
  have hput : KeepsJobs drawn s (s.directed request) :=
    keepsJobs_putJob fun job _ => ⟨rfl, id, .inr (.inl rfl)⟩
  exact hput.trans (.of_jobs_eq hjobs)

theorem jobs_transitionDeliveryAttempt {generation : Nat} {fencingToken : String}
    (h : s.transitionDeliveryAttempt now digest attemptId generation fencingToken next =
      .ok (attempt, s')) : s'.jobs = s.jobs := by
  unfold transitionDeliveryAttempt at h
  split at h
  · cases h
  split_ifs at h <;> cases h <;> rfl

theorem jobs_moveFrom {state : DeliveryAttemptState} :
    (s.moveFrom now digest state attemptId attempt item next).2.jobs = s.jobs := by
  unfold moveFrom
  split_ifs
  · split
    · next h => exact jobs_transitionDeliveryAttempt h
    · rfl
  · rfl

theorem jobs_ingestNativeHandoff :
    (s.ingestNativeHandoff now digest agentId item).2.jobs = s.jobs := by
  unfold ingestNativeHandoff
  split
  · rfl
  split
  · next h => exact (congrArg (fun r => r.2.jobs) h).symm.trans jobs_moveFrom
  next moved s₁ h =>
  have hfst : s₁.jobs = s.jobs := (congrArg (fun r => r.2.jobs) h).symm.trans jobs_moveFrom
  split
  · next h' => exact ((congrArg (fun r => r.2.jobs) h').symm.trans jobs_moveFrom).trans hfst
  · next h' => exact ((congrArg (fun r => r.2.jobs) h').symm.trans jobs_moveFrom).trans hfst

theorem jobs_ingestItems : (ingestItems now digest agentId s evidence).2.jobs = s.jobs := by
  induction evidence generalizing s with
  | nil => rfl
  | cons item evidence ih =>
    have hitem : (s.ingestNativeHandoff now digest agentId item).2.jobs = s.jobs :=
      jobs_ingestNativeHandoff
    unfold ingestItems
    split
    · next h => exact (congrArg (fun r => r.2.jobs) h).symm.trans hitem
    · next h => exact ih.trans ((congrArg (fun r => r.2.jobs) h).symm.trans hitem)

theorem jobs_ingestNativeHandoffs :
    (s.ingestNativeHandoffs now digest agentId evidence).2.jobs = s.jobs := by
  unfold ingestNativeHandoffs
  split_ifs
  · rfl
  · exact jobs_ingestItems

/-! ### Events, acceptances and cancellations -/

theorem keepsJobs_applyAgentEvent {row : Option JobRow}
    (h : s.applyAgentEvent agentId event = .ok (row, s')) : KeepsJobs drawn s s' := by
  unfold applyAgentEvent at h
  split_ifs at h
  · cases h
    exact .refl s
  split at h
  · cases h
  next job hjob =>
  split_ifs at h
  split at h
  · cases h
  next hval =>
  cases h
  exact keepsJobs_replaceJob hjob (JobRow.continues_of_validateTransition hval)

theorem keepsJobs_receiveEvent {project : Bool}
    (h : s.receiveEvent agentId event = .ok (project, s')) : KeepsJobs drawn s s' := by
  unfold receiveEvent at h
  split at h
  · next happ =>
    cases h
    exact keepsJobs_applyAgentEvent happ
  · next happ =>
    cases h
    exact keepsJobs_applyAgentEvent happ
  · cases h
    exact .refl s
  · cases h

theorem jobs_projectAttempt {routeId : String}
    (h : s.projectAttempt now agentId jobId routeId next = .ok (attempt, s')) :
    s'.jobs = s.jobs := by
  unfold projectAttempt at h
  split_ifs at h
  · unfold markPostSpoolerAttemptUncertain at h
    split at h
    · cases h
    split_ifs at h
    cases h
    rfl
  · unfold transitionPostSpoolerAttempt at h
    split_ifs at h
    split at h
    · cases h
    split_ifs at h
    cases h
    rfl

theorem jobs_reconcilePostSpoolerEvent {attempt : Option DeliveryAttempt}
    (h : s.reconcilePostSpoolerEvent now agentId event = .ok (attempt, s')) : s'.jobs = s.jobs := by
  unfold reconcilePostSpoolerEvent at h
  split at h
  · cases h
    rfl
  split at h
  · cases h
  split at h
  · cases h
  split_ifs at h
  · cases h
    rfl
  split at h
  · cases h
  next hproj =>
  cases h
  exact jobs_projectAttempt hproj

theorem keepsJobs_syncEvent : KeepsJobs drawn s (s.syncEvent now agentId event).2 := by
  unfold syncEvent
  split
  · exact .refl s
  · next hreceive => exact keepsJobs_receiveEvent hreceive
  · next hreceive =>
    have hkept : KeepsJobs drawn s _ := keepsJobs_receiveEvent hreceive
    split
    · exact hkept
    · next hrec => exact hkept.trans (.of_jobs_eq (jobs_reconcilePostSpoolerEvent hrec))

theorem keepsJobs_requestJobCancellation (h : s.requestJobCancellation now jobId = .ok (row, s')) :
    KeepsJobs drawn s s' := by
  unfold requestJobCancellation at h
  split at h
  · cases h
  next job hjob =>
  split at h
  · cases h
  split_ifs at h <;> cases h
  · exact keepsJobs_replaceJob hjob ⟨rfl, fun _ => rfl, .inr (.inl rfl)⟩
  · exact keepsJobs_replaceJob hjob ⟨rfl, fun _ => rfl, .inl rfl⟩

theorem keepsJobs_writeAcceptance {connectorGeneration : Int} {attemptId : Option String}
    (hjob : s.jobs.get? request.jobId = some job) :
    KeepsJobs drawn s (s.writeAcceptance now digest request job connectorGeneration attemptId) := by
  have hput : KeepsJobs drawn s (s.putJob request.jobId fun _ => job.accepted) :=
    keepsJobs_replaceJob hjob ⟨rfl, fun _ => rfl, .inl rfl⟩
  cases attemptId <;> exact hput

theorem keepsJobs_acceptAgentJob {decodeBase64 : String → Option String}
    (h : s.acceptAgentJob now digest decodeBase64 request = .ok (row, s')) :
    KeepsJobs drawn s s' := by
  unfold acceptAgentJob at h
  split_ifs at h
  split at h
  · cases h
  next job hjob =>
  split_ifs at h
  obtain ⟨attempt, -, hsto⟩ := Except.bind_eq_ok h
  have hins : ∀ result, s.insertAcceptance now digest decodeBase64 request job
      (s.connectorGeneration request.agentId) attempt = .ok result →
        KeepsJobs drawn s result.2 := by
    intro result hres
    unfold insertAcceptance at hres
    split at hres
    · cases hres
    split at hres
    · cases hres
    split_ifs at hres
    cases hres
    exact keepsJobs_writeAcceptance hjob
  unfold storeAcceptance at hsto
  split at hsto
  · split_ifs at hsto
    · unfold repeatAcceptance at hsto
      split_ifs at hsto
      cases hsto
      exact .of_jobs_eq rfl
    · exact hins _ hsto
  · exact hins _ hsto

/-! ### The server of its own accord -/

theorem keepsJobs_transitionJob {next : JobState}
    (h : s.transitionJob now jobId next = .ok (row, s')) : KeepsJobs drawn s s' := by
  unfold transitionJob at h
  split at h
  · cases h
  next job hjob =>
  split at h
  · cases h
  next hval =>
  cases h
  exact keepsJobs_replaceJob hjob (JobRow.continues_of_validateTransition hval)

theorem jobs_supersedePreHandoffDeliveryAttempts
    (h : s.supersedePreHandoffDeliveryAttempts now jobId = some s') : s'.jobs = s.jobs := by
  unfold supersedePreHandoffDeliveryAttempts at h
  dsimp only at h
  split_ifs at h
  cases h
  rfl

theorem keepsJobs_leavePreHandoff {leave : JobRow → JobRow} {outcome : PreHandoffTransitionOutcome}
    (hleave : ∀ job, (leave job).agentId = job.agentId ∧ (leave job).state.isQueued = true)
    (h : s.leavePreHandoff now digest agentId lease leave = .ok (outcome, s')) :
    KeepsJobs drawn s s' := by
  unfold leavePreHandoff at h
  split at h
  · cases h
  split_ifs at h
  split at h
  · cases h
    exact .refl s
  next hsup =>
  cases h
  have hfst : KeepsJobs drawn s _ :=
    .of_jobs_eq (jobs_supersedePreHandoffDeliveryAttempts hsup)
  exact hfst.trans
    (keepsJobs_putJob fun job _ => ⟨(hleave job).1, fun _ => (hleave job).2, .inl rfl⟩)

theorem keepsJobs_expireJobBeforeHandoff {updateRequired : Bool} :
    KeepsJobs drawn s (s.expireJobBeforeHandoff now jobId updateRequired) := by
  unfold expireJobBeforeHandoff
  split
  · exact .refl s
  split_ifs
  · split
    · exact .refl s
    · next hsup =>
      have hfst : KeepsJobs drawn s _ :=
        .of_jobs_eq (jobs_supersedePreHandoffDeliveryAttempts hsup)
      exact hfst.trans (keepsJobs_putJob fun job _ => ⟨rfl, fun _ => rfl, .inl rfl⟩)
  · exact .refl s

theorem keepsJobs_expireJobsBeforeHandoff {rows : List (String × Bool)} :
    KeepsJobs drawn s (s.expireJobsBeforeHandoff now rows) := by
  induction rows generalizing s with
  | nil => exact .refl s
  | cons row rows ih => exact keepsJobs_expireJobBeforeHandoff.trans ih

/-! ### All of them -/

theorem keepsJobs_step (digest : String → String) (decodeBase64 : String → Option String)
    (s : PostgresStore) (op : ControlPlaneOp) :
    KeepsJobs (ServerOp.request op).drawn s (step digest decodeBase64 s op) := by
  cases op with
  | createCloudJob =>
    simp only [step]
    split
    · next h => exact keepsJobs_createCloudJob h
    · exact .refl s
  | claimJobs =>
    exact keepsJobs_claimJobs fun row hrow => List.mem_map_of_mem (f := fun row => row.2.1) hrow
  | beginDeliveryAttempt =>
    exact .committed fun _ _ => keepsJobs_beginDeliveryAttempt
  | acceptAgentJob => exact .committed fun _ _ => keepsJobs_acceptAgentJob
  | ingestNativeHandoffs => exact .of_jobs_eq jobs_ingestNativeHandoffs
  | syncEvent => exact keepsJobs_syncEvent
  | requestJobCancellation =>
    exact .committed fun _ _ => keepsJobs_requestJobCancellation
  | _ => exact .of_jobs_eq rfl

theorem keepsJobs_serve (digest : String → String) (decodeBase64 : String → Option String)
    (s : PostgresStore) (op : ServerOp) :
    KeepsJobs op.drawn s (serve digest decodeBase64 s op) := by
  cases op with
  | request op => exact keepsJobs_step digest decodeBase64 s op
  | transitionJob => exact .committed fun _ _ => keepsJobs_transitionJob
  | releaseAgentLease =>
    simp only [serve]
    split
    · next h => exact keepsJobs_releaseAgentLease h
    · exact .refl s
  | expireJobsBeforeHandoff => exact keepsJobs_expireJobsBeforeHandoff
  | _ =>
    exact .committed fun _ _ => keepsJobs_leavePreHandoff fun _ => ⟨rfl, rfl⟩

theorem KeepsJobs.mono {drawn' : List String} (hsub : drawn ⊆ drawn') (h : KeepsJobs drawn s s') :
    KeepsJobs drawn' s s' := by
  intro jobId job hjob
  obtain ⟨job', hjob', hcont⟩ := h jobId job hjob
  refine ⟨job', hjob', { hcont with lease := hcont.lease.imp_right (.imp_right ?_) }⟩
  rintro ⟨leaseId, hmem, heq⟩
  exact ⟨leaseId, hsub hmem, heq⟩

/-- **No job is lost**: after every run, from any store, each job goes on, and a lease it
did not have was drawn in the run. -/
theorem jobs_kept (digest : String → String) (decodeBase64 : String → Option String)
    (s : PostgresStore) (ops : List ServerOp) :
    KeepsJobs (ops.flatMap ServerOp.drawn) s (Run.exec (serve digest decodeBase64) s ops) := by
  induction ops generalizing s with
  | nil => exact .refl s
  | cons op ops ih =>
    -- the first operation draws some of the ids, the rest of the run the others
    rw [List.flatMap_cons]
    exact ((keepsJobs_serve digest decodeBase64 s op).mono (List.subset_append_left ..)).trans
      ((ih _).mono (List.subset_append_right ..))

end PostgresStore

end Server

end Piqae
