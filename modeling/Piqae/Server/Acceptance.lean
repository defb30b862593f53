/-
Piqae/Server/Acceptance.lean

When a job that is offered to a node can be accepted by it.  `claim_jobs` leases
jobs that wait for their node and jobs that failed and may be retried, and
`begin_delivery_attempt` begins an attempt for either; the acceptance that
follows is written once for each job, and only while the job waits.
-/
import Piqae.Server.Projection

namespace Piqae.Server

open SortedMap

namespace PostgresStore

variable {s s' : PostgresStore} {now : DateTime} {digest : String → String} {jobId : String}

/-! ### Leasing -/

theorem claimJob_eq_some {agentId leaseId leaseToken : String} {lease : JobLease}
    (h : s.claimJob now digest agentId jobId leaseId leaseToken = some (lease, s')) :
    ∃ job, s.jobs.get? jobId = some job ∧ claimable now agentId job = true ∧
      lease = ⟨jobId, leaseId, leaseToken, now + leaseDuration⟩ ∧
      s'.acceptances = s.acceptances ∧
      s'.jobs.get? jobId = some { job with
        leaseId := some leaseId
        leaseTokenHash := some (digest leaseToken)
        leaseUntil := some (now + leaseDuration) } := by
  unfold claimJob at h
  split at h
  · cases h
  next job hjob =>
  split_ifs at h with hcl
  cases h
  refine ⟨job, hjob, hcl, rfl, rfl, ?_⟩
  rw [putJob, get?_modify_self, hjob]
  rfl

/-! ### Beginning -/

theorem retireActive_frame (h : s.retireActive now jobId = .ok s') :
    s'.jobs = s.jobs ∧ s'.acceptances = s.acceptances := by
  unfold retireActive at h
  split at h
  · split_ifs at h
    cases h
    exact ⟨rfl, rfl⟩
  · split at h
    · split_ifs at h
      cases h
      exact ⟨rfl, rfl⟩
    · cases h
      exact ⟨rfl, rfl⟩

/-- The job is for the destination of the attempt. -/
def directed (s : PostgresStore) (request : NewDeliveryAttempt) : PostgresStore :=
  s.putJob request.jobId fun job => { job with destinationId := some request.destinationId }

/-- A granted attempt has passed the check of the older jobs; and what it leaves. -/
theorem beginDeliveryAttempt_ok {token : String} {request : NewDeliveryAttempt}
    {started : StartedDeliveryAttempt}
    (h : s.beginDeliveryAttempt now digest token request = .ok (started, s')) :
    ∃ job, ∃ generation : Nat, s.jobs.get? request.jobId = some job ∧
      olderEligibleJob ((s.directed request).supersedeStale now request.destinationId) now
        request.destinationId request.jobId job.createdAt = false ∧
      (generation : Int) ≤ i64Max ∧ s'.acceptances = s.acceptances ∧
      s'.jobs = (s.directed request).jobs ∧
      started = ⟨MemoryState.newAttempt now request generation (digest token),
        MemoryState.newReservation now request generation, token⟩ ∧
      s'.attempts.get? request.attemptId = some started.attempt ∧
      s'.reservations.get? request.reservationId = some ⟨started.reservation, digest token⟩ := by
  unfold beginDeliveryAttempt at h
  split at h
  · cases h
  split_ifs at h
  split at h
  · cases h
  next job hjob =>
  dsimp only at h
  split_ifs at h with _ _ _ holder
  obtain ⟨retired, hret, hins⟩ := Except.bind_eq_ok h
  obtain ⟨hjobs, hacceptances⟩ := retireActive_frame hret
  unfold insertAttempt at hins
  split_ifs at hins with hrg
  cases hins
  refine ⟨job, _, hjob, Bool.not_eq_true _ ▸ holder, not_lt.mp hrg, hacceptances, hjobs, rfl,
    ?_, ?_⟩
  · exact SortedMap.get?_insert_self
  · exact SortedMap.get?_insert_self

/-! ### Accepting -/

/-- The call succeeds, and leaves the job accepted. -/
def LeavesAccepted (jobId : String) (result : Except StorageError (JobRow × PostgresStore)) :
    Prop :=
  ∃ row s', result = .ok (row, s') ∧
    ∃ job, s'.jobs.get? jobId = some job ∧ job.state = .agentAccepted

theorem not_leavesAccepted_error {error : StorageError} : ¬LeavesAccepted jobId (.error error) := by
  rintro ⟨_, _, h, -⟩
  cases h

/-- Nothing was done with a job in between: its rows are the same. -/
structure SameJob (jobId : String) (s s' : PostgresStore) : Prop where
  job : s'.jobs.get? jobId = s.jobs.get? jobId
  acceptance : s'.acceptances.get? jobId = s.acceptances.get? jobId
  attempts : ∀ id attempt, attempt.jobId = jobId → s.attempts.get? id = some attempt →
    s'.attempts.get? id = some attempt
  reservations : ∀ id row, row.jobId = jobId → s.reservations.get? id = some row →
    s'.reservations.get? id = some row

theorem SameJob.refl (jobId : String) (s : PostgresStore) : SameJob jobId s s :=
  ⟨rfl, rfl, fun _ _ _ h => h, fun _ _ _ h => h⟩

section Granted

variable {begun : DateTime} {token : String} {granted : NewDeliveryAttempt} {generation : Nat}
  {request : Acceptance} {job : JobRow} {decodeBase64 : String → Option String}
  -- the attempt and the reservation granted, and what proves them
  (hrg : (generation : Int) ≤ i64Max)
  (hatt : s.attempts.get? granted.attemptId =
    some (MemoryState.newAttempt begun granted generation (digest token)))
  (hres : s.reservations.get? granted.reservationId =
    some ⟨MemoryState.newReservation begun granted generation, digest token⟩)
  (hjobId : request.jobId = granted.jobId)
  (hproof : request.proof = some ⟨granted.reservationId, generation, token⟩)
  (hdest : job.destinationId = some granted.destinationId)
  -- the job under its lease
  (hjob : s.jobs.get? request.jobId = some job) (hlid : job.leaseId = some request.leaseId)
  (htok : job.leaseTokenHash = some (digest request.leaseToken))
  (huntil : ∃ leaseUntil, job.leaseUntil = some leaseUntil ∧ now < leaseUntil)
  (hdig : ∀ expected, s.expectedSha256 digest decodeBase64 job.content = .ok (some expected) →
    ∃ actual, request.contentSha256 = some actual ∧ sameDigest actual expected = true)
  {connectorGeneration : Int} {attemptId : String} {attempt : DeliveryAttempt}

include hrg hatt hres hjobId hproof hdest in
/-- The proof of a granted attempt holds as long as the route is the node's. -/
theorem acceptanceAttempt_granted :
    s.acceptanceAttempt digest request job =
      if (s.routes.get? granted.routeId).any (fun route => route.agentId == request.agentId) then
        .ok (some (granted.attemptId,
          MemoryState.newAttempt begun granted generation (digest token)))
      else .error .concurrentStateChange := by
  have hall : (s.routes.get? granted.routeId).all (fun route => route.agentId != request.agentId) =
      !(s.routes.get? granted.routeId).any (fun route => route.agentId == request.agentId) := by
    cases s.routes.get? granted.routeId <;> rfl
  have hid : (MemoryState.newReservation begun granted generation).attemptId = granted.attemptId :=
    rfl
  unfold acceptanceAttempt provenAttempt
  simp only [hdest, hproof, hres, not_lt.mpr hrg, if_false, hid, hatt]
  cases hown : (s.routes.get? granted.routeId).any (fun route => route.agentId == request.agentId)
  all_goals
    rw [hown] at hall
    simp [MemoryState.newAttempt, MemoryState.newReservation, hjobId, hall, Except.map]

include hjob in
theorem get?_writeAcceptance {attemptId : Option String} :
    (s.writeAcceptance now digest request job connectorGeneration attemptId).jobs.get?
      request.jobId = some job.accepted := by
  have hput : (s.putJob request.jobId fun _ => job.accepted).jobs.get? request.jobId =
      some job.accepted := by
    rw [putJob, get?_modify_self, hjob]
    rfl
  cases attemptId <;> exact hput

include hjob hlid htok huntil hdig in
theorem leavesAccepted_insertAcceptance_iff (hst : attempt.state = .routeLeased) :
    LeavesAccepted request.jobId (s.insertAcceptance now digest decodeBase64 request job
        connectorGeneration (some (attemptId, attempt))) ↔
      (s.expectedSha256 digest decodeBase64 job.content).isOk = true ∧
        (job.state = .waitingForAgent ∨ job.state = .agentDownloading) ∧
        (request.localSequence : Int) ≤ i64Max ∧ s.acceptances.get? request.jobId = none := by
  obtain ⟨leaseUntil, huntil, hlive⟩ := huntil
  unfold insertAcceptance
  rw [if_neg (by simp [hlid, htok, huntil, hlive])]
  split
  · next error herr => simp [herr, not_leavesAccepted_error, Except.isOk, Except.toBool]
  next expected hexp =>
  rw [if_neg, hexp]
  · simp only [Except.isOk, Except.toBool, true_and]
    split_ifs with hwait hrg hrow hmoved
    · simp only [Bool.not_eq_true', Bool.or_eq_false_iff, beq_eq_false_iff_ne] at hwait
      simp [not_leavesAccepted_error, hwait]
    · simp [not_leavesAccepted_error, hrg]
    · obtain ⟨row, hrow⟩ := contains_iff.mp hrow
      simp [not_leavesAccepted_error, get?_eq_some_iff.mpr hrow]
    · simp [hst] at hmoved
    · refine iff_of_true ⟨_, _, rfl, _, get?_writeAcceptance hjob, rfl⟩ ⟨?_, not_lt.mp hrg, ?_⟩
      · simpa [or_iff_not_imp_left] using hwait
      · exact contains_eq_false_iff.mp (by simpa using hrow)
  · -- the digest is the true one
    rcases expected with - | expected
    · simp
    · obtain ⟨actual, hactual, hsame⟩ := hdig expected hexp
      simp [hactual, hsame]

include hdest in
/-- A stored acceptance cannot be repeated on a job whose attempt is still leased. -/
theorem not_leavesAccepted_repeatAcceptance {stored : JobAcceptanceRow}
    (hst : attempt.state = .routeLeased) :
    ¬LeavesAccepted request.jobId (s.repeatAcceptance digest request job connectorGeneration
      (some (attemptId, attempt)) stored) := by
  unfold repeatAcceptance
  rw [if_pos (by simp [hdest, hst] : (job.destinationId.isSome &&
    (some (attemptId, attempt)).all fun e => e.2.state ≠ .queuedLocal) = true)]
  split_ifs <;> exact not_leavesAccepted_error

include hjob hdest hlid htok huntil hdig in
theorem leavesAccepted_storeAcceptance_iff (hst : attempt.state = .routeLeased) :
    LeavesAccepted request.jobId (s.storeAcceptance now digest decodeBase64 request job
        connectorGeneration (some (attemptId, attempt))) ↔
      LeavesAccepted request.jobId (s.insertAcceptance now digest decodeBase64 request job
        connectorGeneration (some (attemptId, attempt))) := by
  unfold storeAcceptance
  split
  · split_ifs
    · next stored hsto hsame =>
      rw [leavesAccepted_insertAcceptance_iff hjob hlid htok huntil hdig hst, hsto]
      simpa using not_leavesAccepted_repeatAcceptance hdest hst
    · rfl
  · rfl

include hrg hatt hres hjobId hproof hdest hjob hlid htok huntil hdig in
/-- Acceptance of a job under its lease and the proof of the attempt granted for it. -/
theorem leavesAccepted_acceptAgentJob_iff (hagentId : job.agentId = request.agentId) :
    LeavesAccepted request.jobId (s.acceptAgentJob now digest decodeBase64 request) ↔
      ((s.expectedSha256 digest decodeBase64 job.content).isOk = true ∧
        (job.state = .waitingForAgent ∨ job.state = .agentDownloading) ∧
        (request.localSequence : Int) ≤ i64Max ∧ s.acceptances.get? request.jobId = none) ∧
      (s.agents.get? request.agentId).any (fun agent => !agent.revoked) = true ∧
      0 < s.connectorGeneration request.agentId ∧
      (s.routes.get? granted.routeId).any (fun route => route.agentId == request.agentId) =
        true := by
  have hall : (s.agents.get? request.agentId).all (fun agent => agent.revoked) =
      !(s.agents.get? request.agentId).any (fun agent => !agent.revoked) := by
    cases s.agents.get? request.agentId <;> simp
  unfold acceptAgentJob
  split_ifs with hrev hconn
  · rw [hall, Bool.not_eq_true'] at hrev
    simp [not_leavesAccepted_error, hrev]
  · simp [not_leavesAccepted_error, not_lt.mpr hconn]
  rw [hall, Bool.not_eq_true', Bool.not_eq_false] at hrev
  simp only [hrev, not_le.mp hconn, true_and, hjob, hagentId, ne_eq, not_true_eq_false,
    if_false]
  rw [acceptanceAttempt_granted hrg hatt hres hjobId hproof hdest]
  cases hown :
    (s.routes.get? granted.routeId).any (fun route => route.agentId == request.agentId)
  · simp only [Bool.false_eq_true, if_false, and_false, iff_false]
    exact not_leavesAccepted_error
  · simp only [if_true, and_true]
    exact (leavesAccepted_storeAcceptance_iff hdest hjob hlid htok huntil hdig rfl).trans
      (leavesAccepted_insertAcceptance_iff hjob hlid htok huntil hdig rfl)

end Granted

/-- **Which offered jobs can be accepted**: a job is leased to a node, an attempt
is granted on a route, and the node accepts under the lease and the proof, with
the job's true digest, while the lease runs; other calls may run in between as
long as they leave the job's rows alone.  It works out exactly for a job that was
waiting, has never been accepted, and whose node, connector, route and content
are still there. -/
theorem offered_job_accepted_iff (decodeBase64 : String → Option String)
    (s s₁ s₁' s₂ s₂' : PostgresStore) (claimed begun accepted : DateTime)
    (agentId leaseId leaseToken token : String) (lease : JobLease)
    (granted : NewDeliveryAttempt) (started : StartedDeliveryAttempt)
    (contentSha256 : Option String) (localSequence : Nat)
    (hclaim : s.claimJob claimed digest agentId granted.jobId leaseId leaseToken = some (lease, s₁))
    (hquiet₁ : SameJob granted.jobId s₁ s₁')
    (hbegin : s₁'.beginDeliveryAttempt begun digest token granted = .ok (started, s₂))
    (hquiet₂ : SameJob granted.jobId s₂ s₂') (hlease : accepted < lease.leaseUntil)
    (hdigest : ∀ job expected, s₂'.jobs.get? granted.jobId = some job →
      s₂'.expectedSha256 digest decodeBase64 job.content = .ok (some expected) →
        ∃ actual, contentSha256 = some actual ∧ sameDigest actual expected = true) :
    LeavesAccepted granted.jobId (s₂'.acceptAgentJob accepted digest decodeBase64
        ⟨agentId, granted.jobId, lease.leaseId, lease.leaseToken, contentSha256, localSequence,
          some ⟨granted.reservationId, started.attempt.generation, started.fencingToken⟩⟩) ↔
      (∃ job, s.jobs.get? granted.jobId = some job ∧ job.state = .waitingForAgent ∧
        (s₂'.expectedSha256 digest decodeBase64 job.content).isOk = true) ∧
      s.acceptances.get? granted.jobId = none ∧
      (s₂'.agents.get? agentId).any (fun agent => !agent.revoked) = true ∧
      0 < s₂'.connectorGeneration agentId ∧
      (s₂'.routes.get? granted.routeId).any (fun route => route.agentId == agentId) = true ∧
      (localSequence : Int) ≤ i64Max := by
  obtain ⟨job, hjob, hcl, rfl, hacc₁, hjob₁⟩ := claimJob_eq_some hclaim
  obtain ⟨job₂, generation, hjob₁', -, hrg, hacc₂, hjobs, rfl, hatt, hres⟩ :=
    beginDeliveryAttempt_ok hbegin
  have hjob₂ := hquiet₂.job
  rw [hjobs, directed, putJob, get?_modify_self, hjob₁'] at hjob₂
  rw [hquiet₁.job, hjob₁] at hjob₁'
  cases hjob₁'
  simp only [claimable, Bool.and_eq_true, Bool.or_eq_true, beq_iff_eq] at hcl
  obtain ⟨⟨⟨hagentId, hoffered⟩, -⟩, -⟩ := hcl
  have hnot : job.state ≠ .agentDownloading := by
    rcases hoffered with h | h <;> rw [h] <;> decide
  have hacc : s₂'.acceptances.get? granted.jobId = s.acceptances.get? granted.jobId := by
    rw [hquiet₂.acceptance, hacc₂, hquiet₁.acceptance, hacc₁]
  refine (leavesAccepted_acceptAgentJob_iff hrg (hquiet₂.attempts _ _ rfl hatt)
    (hquiet₂.reservations _ _ rfl hres) rfl rfl rfl hjob₂ rfl rfl ⟨_, rfl, hlease⟩
    (fun expected => hdigest _ expected hjob₂) hagentId).trans ?_
  simp only [hjob, hacc, hnot, or_false, Option.some.injEq, exists_eq_left']
  tauto

/-! ### Samples -/

namespace Sample

/-- A job for the printer `labels` that waits for its node. -/
def waiting : List ControlPlaneOp :=
  [.enrolAgent "front-node",
    .upsertRoute "front" ⟨"labels", "front-node", some "queue", true, false⟩,
    .createCloudJob "job" "front-node" (some ("labels", "front")) .uri .waitingForAgent 0 1000]

/-- A job that failed on its node before the handoff, and may be retried. -/
def retryable : List ControlPlaneOp :=
  accepted ++ handoff .rejectedBeforeHandoff ::
    reports [("1", .queuedLocal), ("2", .failedRetryable)]

def offer : NewDeliveryAttempt := ⟨"attempt-2", "fence-2", "job", "labels", "front", 100⟩

/-- The offer of a job to its node, and the acceptance that answers it. -/
def claim : ControlPlaneOp := .claimJobs 6 "front-node" [("job", "lease-2", "lease-token-2")]

def beginOffer : ControlPlaneOp := .beginDeliveryAttempt 7 "fence-token-2" offer

def answer (generation : Nat) : Acceptance :=
  ⟨"front-node", "job", "lease-2", "lease-token-2", none, 2,
    some ⟨"fence-2", generation, "fence-token-2"⟩⟩

def lease : JobLease := ⟨"job", "lease-2", "lease-token-2", 6 + leaseDuration⟩

def started (generation : Nat) : StartedDeliveryAttempt :=
  ⟨MemoryState.newAttempt 7 offer generation "fence-token-2",
    MemoryState.newReservation 7 offer generation, "fence-token-2"⟩

end Sample

open Sample

theorem offered_job_accepted_iff_waiting :
    LeavesAccepted "job" ((tables (waiting ++ [claim, beginOffer]))
      |>.acceptAgentJob 8 id some (answer 1)) := by
  have h := @offered_job_accepted_iff id some (tables waiting)
    (tables (waiting ++ [claim]))
    (tables (waiting ++ [claim]))
    (tables (waiting ++ [claim, beginOffer]))
    (tables (waiting ++ [claim, beginOffer])) 6 7 8 "front-node"
    "lease-2" "lease-token-2" "fence-token-2" lease offer (started 1) none 2
    (by decide +kernel) (.refl _ _) (by decide +kernel) (.refl _ _) (by decide +kernel)
    (by
      intro job expected hjob hexp
      have hcnt : ((tables (waiting ++ [claim, beginOffer])).jobs.get?
          "job").map (fun job => job.content) = some .uri := by decide +kernel
      rw [show "job" = offer.jobId from rfl, hjob] at hcnt
      have huri : job.content = .uri := Option.some.inj hcnt
      rw [huri] at hexp
      cases hexp)
  refine h.mpr ⟨⟨⟨"front-node", some "labels", .uri, .waitingForAgent, 0, 1000, none, none, none,
    none⟩, ?_⟩, ?_⟩ <;> decide +kernel

/-- A job that failed before the handoff is offered again, and its node cannot
accept it: the acceptance of the first attempt is still stored. -/
theorem retried_job_not_accepted :
    (tables retryable).claimJob 6 id "front-node" "job" "lease-2" "lease-token-2" =
        some (lease, tables (retryable ++ [claim])) ∧
      (tables (retryable ++ [claim])).beginDeliveryAttempt 7 id
        "fence-token-2" offer = .ok (started 2,
          tables (retryable ++ [claim, beginOffer])) ∧
      (tables (retryable ++ [claim, beginOffer])).acceptAgentJob 8 id
        some (answer 2) = .error .idempotencyConflict := by
  decide +kernel

end PostgresStore

end Piqae.Server
