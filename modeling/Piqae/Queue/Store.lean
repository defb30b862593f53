/-
Piqae/Queue/Store.lean

The node's durable queue (`agent-storage/src/lib.rs`): the tables of jobs,
events, cloud acceptance intents, route proofs, native reconciliation and local
handoff resolutions, and the operations on them.

Every function here is one SQLite statement or transaction, so it happens as a
whole or not at all; the functions of the source that make several of them are
programs (`Piqae.Node.Program`).  That a statement can fail for reasons of the
database itself is part of the program's input there.
-/
import Piqae.Job.Lifecycle
import Piqae.Queue.Ledger

namespace Piqae

inductive StorageError
  | database
  | jobNotFound (jobId : String)
  | jobConflict (jobId : String)
  | invalidLocalEvent (message : String)
  | eventSequence (jobId : String) (expected actual : Nat)
deriving DecidableEq, Repr

/-! ### Rows -/

inductive ContentKind
  | pdf
  | raw
deriving DecidableEq, Repr

/-- A job as it is handed to the queue. -/
structure AcceptedJob where
  jobId : String
  submissionId : String
  printerId : String
  printerNativeId : String
  title : String
  contentSha256 : String
  contentPath : String
  contentKind : ContentKind
  optionsJson : String
  expiresUnixMs : Option Int
  acceptedUnixMs : Int
  cloudManaged : Bool
deriving DecidableEq, Repr

/-- The immutable execution facts pinned with a job. -/
structure PinnedFacts where
  targetId : Option String
  bindingId : Option String
  profileId : Option String
  profileRevision : Option Nat
  stockId : Option String
  loadedMediaSnapshotJson : Option String
  profileSnapshotJson : Option String
  printerNativeBinding : Option String
deriving DecidableEq, Repr

structure JobPersistenceFacts where
  pinned : PinnedFacts
  routeConnectorId : Option String
deriving DecidableEq, Repr

/-- A row of the table of jobs. -/
structure LocalJob where
  accepted : AcceptedJob
  pinned : PinnedFacts
  /-- The connector that owns the job's route; absent on a local job. -/
  routeConnectorId : Option String
  printerSequence : Nat
  state : LocalState
  nextAttemptUnixMs : Option Int
  attemptCount : Nat
  nativeJobId : Option String
deriving DecidableEq, Repr

namespace LocalJob

def jobId (job : LocalJob) : String := job.accepted.jobId

def cloudManaged (job : LocalJob) : Bool := job.accepted.cloudManaged

end LocalJob

structure JobEvent where
  jobId : String
  jobSequence : Nat
  state : JobState
  reason : Option String
  message : Option String
deriving DecidableEq, Repr

structure CloudRouteProof where
  reservationId : String
  generation : Nat
  fencingToken : String
deriving DecidableEq, Repr

structure CloudAcceptIntent where
  leaseId : String
  leaseToken : String
  leaseExpiresUnixMs : Int
  contentSha256 : String
  localSequence : Nat
  proof : CloudRouteProof
  remoteAcceptConfirmed : Bool
deriving DecidableEq, Repr

/-- The restart-safe schedule of observations of a native job. -/
structure ReconciliationRow where
  nextObserveUnixMs : Int
  uncertaintyDeadlineUnixMs : Int
  attemptCount : Nat
  lastNativeState : Option String
  lastErrorCode : Option String
  cancelRequested : Bool
deriving DecidableEq, Repr

inductive LocalHandoffResolution
  | releaseForRetry
  | confirmAccepted
deriving DecidableEq, Repr

structure AgentStore where
  jobs : SortedMap String LocalJob
  printerSequences : SortedMap String Nat
  /-- The events of all jobs in the order of the outbox. -/
  events : List JobEvent
  intents : SortedMap String CloudAcceptIntent
  proofs : SortedMap String CloudRouteProof
  reconciliation : SortedMap String ReconciliationRow
  /-- Operator decisions by ambiguity id. -/
  resolutions : SortedMap String (String × LocalHandoffResolution)
  settings : QueueSettings
deriving DecidableEq

namespace AgentStore

/-- A database after its schema was applied. -/
def empty : AgentStore := ⟨.empty, .empty, [], .empty, .empty, .empty, .empty, .empty⟩

variable (s : AgentStore)

/-! ### Events -/

def getJob (jobId : String) : Option LocalJob := s.jobs.get? jobId

/-- The sequence number the next event of a job gets. -/
def nextSequence (jobId : String) : Nat :=
  ((s.events.filter (·.jobId == jobId)).map (·.jobSequence)).foldl max 0 + 1

def appendEventTx (jobId : String) (state : JobState) (reason message : Option String) :
    AgentStore :=
  { s with events := s.events ++ [⟨jobId, s.nextSequence jobId, state, reason, message⟩] }

/-- Write a row over the one of its job. -/
def putJob (job : LocalJob) : AgentStore := { s with jobs := s.jobs.insert job.jobId job }

/-- Move a job that satisfies a guard to a state and record the event of it. -/
def moveJob (jobId : String) (guard : LocalJob → Bool) (state : JobState)
    (reason message : Option String) (update : LocalJob → LocalJob) (refusal : StorageError) :
    Except StorageError AgentStore :=
  match s.getJob jobId with
  | none => .error refusal
  | some job =>
    if guard job then
      .ok ((s.appendEventTx jobId state reason message).putJob
        (update { job with state := .known state }))
    else .error refusal

def appendEvent (jobId : String) (expectedSequence : Nat) (state : JobState)
    (reason message : Option String) : Except StorageError AgentStore :=
  if expectedSequence ≠ s.nextSequence jobId then
    .error (.eventSequence jobId expectedSequence (s.nextSequence jobId))
  else s.moveJob jobId (fun _ => true) state reason message id (.jobNotFound jobId)

/-! ### Acceptance -/

def acceptedJobMatches (existing : LocalJob) (offered : AcceptedJob) : Bool :=
  existing.accepted.submissionId == offered.submissionId
    && existing.accepted.printerId == offered.printerId
    && existing.accepted.printerNativeId == offered.printerNativeId
    && existing.accepted.title == offered.title
    && existing.accepted.contentSha256 == offered.contentSha256
    && existing.accepted.contentKind == offered.contentKind
    && existing.accepted.optionsJson == offered.optionsJson
    && existing.accepted.expiresUnixMs == offered.expiresUnixMs
    && existing.accepted.cloudManaged == offered.cloudManaged

/-- Insert a new job behind the others of its printer. -/
def insertJob (job : AcceptedJob) (facts : JobPersistenceFacts) (state : LocalState) :
    AgentStore × LocalJob :=
  let printerSequence := (s.printerSequences.get? job.printerId).getD 1
  let row : LocalJob :=
    { accepted := job
      pinned := facts.pinned
      routeConnectorId := facts.routeConnectorId
      printerSequence := printerSequence
      state := state
      nextAttemptUnixMs := none
      attemptCount := 0
      nativeJobId := none }
  ({ s with
    printerSequences := s.printerSequences.insert job.printerId (printerSequence + 1) }.putJob
    row, row)

/-- Accept responsibility for a job; the delivery of the same job again changes
nothing. -/
def acceptJobWithFacts (job : AcceptedJob) (facts : JobPersistenceFacts) :
    Except StorageError AgentStore :=
  match s.getJob job.jobId with
  | some existing =>
    if acceptedJobMatches existing job && existing.routeConnectorId == facts.routeConnectorId
        && existing.pinned == facts.pinned then .ok s
    else .error (.jobConflict job.jobId)
  | none =>
    .ok ((s.insertJob job facts (.known .queuedLocal)).1.appendEventTx job.jobId .queuedLocal none
      (some "Job is durable in the local queue"))

/-- A lease with the fencing proof of its route. -/
structure CloudLease where
  leaseId : String
  leaseToken : String
  leaseExpiresUnixMs : Int
  proof : CloudRouteProof
deriving DecidableEq, Repr

def cloudAcceptEvidenceMatches (intent : CloudAcceptIntent) (job : LocalJob) (lease : CloudLease) :
    Bool :=
  intent.leaseId == lease.leaseId && intent.leaseToken == lease.leaseToken
    && intent.contentSha256 == job.accepted.contentSha256
    && intent.localSequence == job.printerSequence && intent.proof == lease.proof

/-- Record the intent to accept a lease and the proof of its route.  An intent
the authority has confirmed is not replaced by another lease. -/
def upsertCloudAcceptIntent (job : LocalJob) (lease : CloudLease) :
    Except StorageError AgentStore :=
  let existing := s.intents.get? job.jobId
  if existing.any (fun intent =>
      intent.remoteAcceptConfirmed && !cloudAcceptEvidenceMatches intent job lease) then
    .error (.jobConflict job.jobId)
  else if lease.proof.generation > i64Max then
    .error (.invalidLocalEvent "route generation exceeds durable storage bounds")
  else
    .ok { s with
      intents := s.intents.insert job.jobId
        { leaseId := lease.leaseId
          leaseToken := lease.leaseToken
          leaseExpiresUnixMs := lease.leaseExpiresUnixMs
          contentSha256 := job.accepted.contentSha256
          localSequence := job.printerSequence
          proof := lease.proof
          remoteAcceptConfirmed := existing.any (·.remoteAcceptConfirmed) }
      proofs := s.proofs.insert job.jobId lease.proof }

/-- Prepare a cloud job and its acceptance without making the job runnable. -/
def prepareCloudJobWithFacts (job : AcceptedJob) (lease : CloudLease)
    (facts : JobPersistenceFacts) : Except StorageError AgentStore :=
  if !job.cloudManaged || lease.leaseToken.isEmpty || lease.proof.reservationId.isEmpty
      || lease.proof.generation == 0 || lease.proof.fencingToken.isEmpty then
    .error (.invalidLocalEvent
      "cloud acceptance requires a managed job, lease, and route reservation proof")
  else match s.getJob job.jobId with
  | some existing =>
    let same := acceptedJobMatches existing job && existing.pinned == facts.pinned
      && (existing.routeConnectorId == facts.routeConnectorId
        || existing.routeConnectorId.isNone || existing.state == .known .failedRetryable)
    if !same then .error (.jobConflict job.jobId)
    else if existing.state = .cloudAcceptPending ∨ existing.state = .known .failedRetryable then
      let replacesConsumedAttempt := existing.state = .known .failedRetryable
      let pending := { existing with
        state := .cloudAcceptPending
        routeConnectorId := facts.routeConnectorId
        nextAttemptUnixMs := none }
      let prepared := s.putJob pending
      (if replacesConsumedAttempt
        then { prepared with intents := prepared.intents.erase job.jobId }
        else prepared).upsertCloudAcceptIntent pending lease
    else if s.proofs.get? job.jobId = some lease.proof then .ok s
    else .error (.invalidLocalEvent
      ("cloud job " ++ job.jobId ++ " is already in local state " ++ existing.state.text))
  | none =>
    let (inserted, row) := s.insertJob job facts .cloudAcceptPending
    inserted.upsertCloudAcceptIntent row lease

/-- Note that the authority has accepted a prepared intent. -/
def confirmCloudAccept (jobId : String) : Except StorageError AgentStore :=
  match s.intents.get? jobId with
  | none => .error (.invalidLocalEvent
      ("cloud job " ++ jobId ++ " has no acceptance intent to confirm"))
  | some intent =>
    .ok { s with intents := s.intents.insert jobId { intent with remoteAcceptConfirmed := true } }

/-- Make a confirmed cloud job runnable. -/
def activateCloudJob (jobId : String) : Except StorageError AgentStore :=
  match s.getJob jobId with
  | none => .error (.jobNotFound jobId)
  | some job =>
    if job.state = .known .queuedLocal then .ok s
    else if job.state ≠ .cloudAcceptPending then
      .error (.invalidLocalEvent
        ("cloud job " ++ jobId ++ " cannot activate from " ++ job.state.text))
    else if !(s.intents.get? jobId).any (·.remoteAcceptConfirmed) then
      .error (.invalidLocalEvent
        ("cloud job " ++ jobId ++ " has no remotely confirmed acceptance intent"))
    else
      let queued := (s.putJob { job with state := .known .queuedLocal }).appendEventTx jobId
        .queuedLocal none (some "Job is durable in the local queue")
      .ok { queued with intents := queued.intents.erase jobId }

/-- Roll a prepared acceptance back, without an event. -/
def abandonCloudAccept (jobId : String) : Except StorageError AgentStore :=
  match s.getJob jobId with
  | none => .error (.jobNotFound jobId)
  | some job =>
    if job.state = .known .cancelled then .ok s
    else if job.state ≠ .cloudAcceptPending then
      .error (.invalidLocalEvent
        ("cloud job " ++ jobId ++ " cannot abandon from " ++ job.state.text))
    else
      .ok ({ s with
        proofs := s.proofs.erase jobId
        intents := s.intents.erase jobId }.putJob { job with state := .known .cancelled })

/-- Withdraw an intent that the authority has not confirmed. -/
def quarantinePreparedCloudAccept (jobId : String) : AgentStore :=
  match s.intents.get? jobId with
  | some intent =>
    if intent.remoteAcceptConfirmed then s
    else
      let withdrawn := { s with intents := s.intents.erase jobId }
      match s.getJob jobId with
      | some job =>
        if job.state = .cloudAcceptPending
        then withdrawn.putJob { job with state := .known .cancelled } else withdrawn
      | none => withdrawn
  | none => s

/-- Withdraw an intent, and the job with it if it is still pending. -/
def withdrawIntent (jobId : String) : AgentStore :=
  let withdrawn := { s with intents := s.intents.erase jobId }
  match s.getJob jobId with
  | some job =>
    if job.state = .cloudAcceptPending
    then withdrawn.putJob { job with state := .known .cancelled } else withdrawn
  | none => withdrawn

/-- Is an intent of before route proofs were kept? -/
def proofless (intent : CloudAcceptIntent) : Bool :=
  intent.proof.reservationId.isEmpty || intent.proof.generation == 0
    || intent.proof.fencingToken.isEmpty

/-- Withdraw every intent without a route proof. -/
def quarantineInvalidCloudAccepts : AgentStore :=
  ((s.intents.entries.filter fun entry => proofless entry.2).map Prod.fst).foldl withdrawIntent s

def pendingCloudAccepts : List (String × CloudAcceptIntent) := s.intents.entries

def cloudRouteProof (jobId : String) : Option CloudRouteProof := s.proofs.get? jobId

/-! ### Native handoff -/

/-- Record the native acceptance of a spool intent and the schedule of its
observations. -/
def recordNativeAcceptance (jobId nativeJobId : String) (nextObserve deadline : Int) :
    Except StorageError AgentStore := do
  let accepted ← s.moveJob jobId (·.state = .known .spoolIntent) .acceptedBySpooler none
    (some "Operating system accepted the job") ({ · with nativeJobId := some nativeJobId })
    (.jobNotFound jobId)
  let row : ReconciliationRow := match accepted.reconciliation.get? jobId with
    | none => ⟨nextObserve, deadline, 0, none, none, false⟩
    | some row => { row with
        nextObserveUnixMs := nextObserve, uncertaintyDeadlineUnixMs := deadline }
  return { accepted with
    reconciliation := accepted.reconciliation.insert jobId row
    proofs := accepted.proofs.erase jobId }

/-- Record a failure before handoff and defer the next attempt of a local job. -/
def recordLocalRetryableFailure (jobId reason message : String) (nextAttempt : Int) :
    Except StorageError AgentStore :=
  s.moveJob jobId (fun job => job.state = .known .spoolIntent && !job.cloudManaged)
    .failedRetryable (some reason) (some message)
    (fun job => { job with
      nextAttemptUnixMs := some nextAttempt, attemptCount := job.attemptCount + 1 })
    (.invalidLocalEvent ("job " ++ jobId ++ " cannot record a local retryable failure"))

def recordLocalHandoffUncertainty (jobId : String) : Except StorageError AgentStore :=
  s.moveJob jobId (fun job => job.state = .known .spoolIntent && !job.cloudManaged)
    .deliveryUncertain (some "ambiguous_handoff")
    (some "Native handoff outcome is uncertain after restart") id
    (.invalidLocalEvent ("job " ++ jobId ++ " has no local spool intent to quarantine"))

def localHandoffResolution (jobId ambiguityId : String) : Option LocalHandoffResolution :=
  (s.resolutions.get? ambiguityId).bind fun (job, resolution) =>
    if job = jobId then some resolution else none

/-- Resolve a local uncertainty under an ambiguity id that no resolution has. -/
def resolveUncertainLocalHandoff (jobId ambiguityId : String)
    (resolution : LocalHandoffResolution) (state : JobState) (reason message : String)
    (update : LocalJob → LocalJob) (refusal : String) : Except StorageError AgentStore := do
  let moved ← s.moveJob jobId
    (fun job => job.state = .known .deliveryUncertain && !job.cloudManaged)
    state (some reason) (some message) update (.invalidLocalEvent refusal)
  if moved.resolutions.contains ambiguityId then .error .database
  else return { moved with
    resolutions := moved.resolutions.insert ambiguityId (jobId, resolution) }

def releaseUncertainLocalHandoffForRetry (jobId ambiguityId : String) (nextAttempt : Int) :
    Except StorageError AgentStore :=
  s.resolveUncertainLocalHandoff jobId ambiguityId .releaseForRetry .failedRetryable
    "ambiguous_handoff_released" "Local operator released the uncertain handoff for retry"
    (fun job => { job with
      nextAttemptUnixMs := some nextAttempt, attemptCount := job.attemptCount + 1 })
    ("local job " ++ jobId ++ " has no uncertainty to release")

def confirmUncertainLocalHandoffAccepted (jobId ambiguityId : String) :
    Except StorageError AgentStore :=
  s.resolveUncertainLocalHandoff jobId ambiguityId .confirmAccepted .deliveryUncertain
    "ambiguous_handoff_confirmed" "Local operator confirmed native acceptance" id
    ("local job " ++ jobId ++ " has no uncertainty to confirm")

/-- The states to which a cloud spool intent is recovered. -/
inductive HandoffRecovery
  | failedRetryable
  | deliveryUncertain
deriving DecidableEq, Repr

def HandoffRecovery.state : HandoffRecovery → JobState
  | failedRetryable => .failedRetryable
  | deliveryUncertain => .deliveryUncertain

def recordCloudHandoffRecovery (jobId : String) (recovery : HandoffRecovery)
    (reason message : String) : Except StorageError AgentStore := do
  let recovered ← s.moveJob jobId (fun job => job.state = .known .spoolIntent && job.cloudManaged)
    recovery.state (some reason) (some message) id
    (.invalidLocalEvent ("cloud job " ++ jobId ++ " has no spool intent to reconcile"))
  return match recovery with
    | .failedRetryable => { recovered with proofs := recovered.proofs.erase jobId }
    | .deliveryUncertain => recovered

/-- The transaction of `release_uncertain_cloud_handoff_for_retry`. -/
def releaseUncertainCloudHandoffForRetry (jobId : String) : Except StorageError AgentStore := do
  let released ← s.moveJob jobId
    (fun job => job.state = .known .deliveryUncertain && job.cloudManaged)
    .failedRetryable (some "ambiguous_handoff_released")
    (some "Authority released the uncertain handoff for a fresh offer") id
    (.invalidLocalEvent ("cloud job " ++ jobId ++ " has no uncertainty to release"))
  return { released with proofs := released.proofs.erase jobId }

/-- Whether a job is a cloud job whose handoff is uncertain. -/
def cloudUncertain (jobId : String) : Bool :=
  (s.getJob jobId).any fun job => job.cloudManaged && job.state = .known .deliveryUncertain

/-- Drop the proof of a handoff that the coordinator has recorded as uncertain. -/
def finalizeUncertainCloudHandoffRecovery (jobId : String) : Except StorageError AgentStore :=
  if s.cloudUncertain jobId then .ok { s with proofs := s.proofs.erase jobId }
  else .error (.invalidLocalEvent
    ("cloud job " ++ jobId ++ " has no uncertain handoff proof to finalize"))

def routeOwnerInvalid (connectorId : String) : Bool :=
  connectorId.isEmpty || connectorId.utf8ByteSize > 128
    || connectorId.toList.any (fun c => c.val < 32 || (127 ≤ c.val && c.val < 160))

/-- Give an ownerless cloud job the connector that owns its route. -/
def backfillCloudRouteOwner (jobId connectorId : String) : Except StorageError AgentStore :=
  if routeOwnerInvalid connectorId then
    .error (.invalidLocalEvent "route connector owner is invalid")
  else match s.getJob jobId with
    | some job =>
      if job.cloudManaged && job.routeConnectorId.isNone then
        .ok (s.putJob { job with routeConnectorId := some connectorId })
      else if job.cloudManaged && job.routeConnectorId = some connectorId then .ok s
      else .error (.invalidLocalEvent
        ("cloud job " ++ jobId ++ " cannot backfill route ownership"))
    | none => .error (.invalidLocalEvent
        ("cloud job " ++ jobId ++ " cannot backfill route ownership"))

/-! ### Observation of native jobs -/

structure ReconciliationItem where
  job : LocalJob
  uncertaintyDeadlineUnixMs : Int
  attemptCount : Nat
  cancelRequested : Bool
deriving DecidableEq, Repr

/-- The states of a job that the operating system has and that is observed. -/
def observedStates : List LocalState :=
  [.known .acceptedBySpooler, .known .spooling, .known .printing, .known .blocked,
    .known .cancelRequested]

def recordReconciliationAttempt (jobId nativeState : String) (errorCode : Option String)
    (nextObserve : Int) : Except StorageError AgentStore :=
  match s.reconciliation.get? jobId with
  | none => .error (.jobNotFound jobId)
  | some row => .ok { s with
      reconciliation := s.reconciliation.insert jobId
        { row with
          nextObserveUnixMs := nextObserve
          attemptCount := row.attemptCount + 1
          lastNativeState := some nativeState
          lastErrorCode := errorCode
          cancelRequested := false } }

def finishReconciliation (jobId : String) : AgentStore :=
  { s with reconciliation := s.reconciliation.erase jobId }

/-- The last statement of `request_cancel`. -/
def scheduleCancel (jobId : String) (observed : Int) : AgentStore :=
  match s.reconciliation.get? jobId with
  | none => s
  | some row => { s with
      reconciliation := s.reconciliation.insert jobId
        { row with cancelRequested := true, nextObserveUnixMs := observed } }

/-! ### Inventories -/

/-- The rows that satisfy a predicate, oldest first. -/
def selectJobs (predicate : LocalJob → Bool) : List LocalJob :=
  (s.jobs.values.filter predicate).insertionSort fun a b =>
    a.accepted.acceptedUnixMs < b.accepted.acceptedUnixMs ∨
      (a.accepted.acceptedUnixMs = b.accepted.acceptedUnixMs ∧ a.jobId ≤ b.jobId)

/-- At most 512 of them, or a refusal. -/
def boundedJobs (predicate : LocalJob → Bool) (refusal : String) :
    Except StorageError (List LocalJob) :=
  let jobs := s.selectJobs predicate
  if jobs.length > 512 then .error (.invalidLocalEvent refusal) else .ok jobs

/-- Cloud jobs of before the exact owner of a route was kept. -/
def cloudJobsMissingRouteOwner : Except StorageError (List LocalJob) :=
  s.boundedJobs
    (fun job => job.cloudManaged && job.routeConnectorId.isNone
      && job.state ∈ [.cloudAcceptPending, .known .queuedLocal, .known .preparing,
        .known .rendering, .known .spoolIntent, .known .failedRetryable])
    "ownerless cloud job inventory exceeds reconciliation bounds"

/-- Cloud jobs whose handoff still has a route proof to reconcile. -/
def cloudHandoffRecoveryCandidates : Except StorageError (List LocalJob) :=
  s.boundedJobs
    (fun job => job.cloudManaged && s.proofs.contains job.jobId
      && job.state ∈ [.known .spoolIntent, .known .deliveryUncertain])
    "cloud spool intent inventory exceeds reconciliation bounds"

/-- A job that waits for the engine. -/
def waiting (job : LocalJob) : Bool :=
  (job.state = .known .queuedLocal || (job.state = .known .failedRetryable && !job.cloudManaged))
    && (!job.cloudManaged || job.routeConnectorId.isSome)

/-- The states in which a job keeps its printer from the jobs behind it. -/
def occupyingStates : List LocalState :=
  [.known .preparing, .known .rendering, .known .spoolIntent, .known .acceptedBySpooler,
    .known .spooling, .known .printing]

/-- The head of each idle printer's queue, if it may run now. -/
def runnableHeads (now : Int) : List LocalJob :=
  s.selectJobs fun job =>
    waiting job
      && job.nextAttemptUnixMs.all (· ≤ now)
      && job.accepted.expiresUnixMs.all (now < ·)
      && s.jobs.values.all (fun active =>
        active.accepted.printerId ≠ job.accepted.printerId || active.state ∉ occupyingStates)
      && s.jobs.values.all (fun head =>
        head.accepted.printerId ≠ job.accepted.printerId || !waiting head
          || job.printerSequence ≤ head.printerSequence)

/-- The waiting jobs whose deadline has elapsed. -/
def expiredWaiting (now : Int) : List String :=
  (s.jobs.values.filter fun job =>
    job.state ∈ [.known .queuedLocal, .known .failedRetryable]
      && job.accepted.expiresUnixMs.any (· ≤ now)).map (·.jobId)

def dueReconciliations (now : Int) (limit : Nat) : List ReconciliationItem :=
  let due := s.reconciliation.entries.filterMap fun entry =>
    (s.getJob entry.1).bind fun job =>
      if entry.2.nextObserveUnixMs ≤ now && job.state ∈ observedStates then
        some (entry.2.nextObserveUnixMs, job, entry.2)
      else none
  ((due.insertionSort fun a b => a.1 < b.1 ∨ (a.1 = b.1 ∧ a.2.1.jobId ≤ b.2.1.jobId)).take
    (max 1 (min limit 100))).map fun (_, job, row) =>
      ⟨job, row.uncertaintyDeadlineUnixMs, row.attemptCount, row.cancelRequested⟩

end AgentStore

end Piqae
