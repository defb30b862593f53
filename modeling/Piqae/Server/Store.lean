/-
Piqae/Server/Store.lean

The job side of the control plane over PostgreSQL (`storage-postgres/src/lib.rs`,
`storage-postgres/src/destination_topology.rs`): jobs and their leases, node
acceptances, and delivery attempts under the fence of their destination, as the
rows of one workspace and environment.

A method runs in one transaction that takes the row locks it needs first, so it
is one function of the tables; an error rolls the transaction back, so a failed
method returns only the error.  Clock, random identifiers and tokens are inputs.
`digest` is SHA-256; the hexadecimal and the binary form the columns hold are not
told apart.
-/
import Piqae.Server.Attempts
import Piqae.Job.Lifecycle

namespace Piqae.Server

/-! ### Rows -/

structure AgentRow where
  revoked : Bool
deriving DecidableEq, Repr

structure NodeConnectorRow where
  revoked : Bool
  admissionGeneration : Int
deriving DecidableEq, Repr

structure UploadRow where
  complete : Bool
  expectedSha256 : String
deriving DecidableEq, Repr

inductive ContentSource
  | upload (uploadId : String)
  | encryptedUpload (uploadId : String)
  | base64 (data : String)
  | uri
deriving DecidableEq, Repr

structure JobRow where
  agentId : String
  destinationId : Option String
  content : ContentSource
  state : JobState
  createdAt : DateTime
  expiresAt : DateTime
  finalAt : Option DateTime
  leaseId : Option String
  leaseTokenHash : Option String
  leaseUntil : Option DateTime
deriving DecidableEq, Repr

/-- A job in its next state, with the instant a terminal state sets. -/
def JobRow.advance (job : JobRow) (next : JobState) (occurredAt : DateTime) : JobRow :=
  { job with state := next, finalAt := if next.isTerminal then some occurredAt else job.finalAt }

/-- A job its node has accepted; the lease is over. -/
def JobRow.accepted (job : JobRow) : JobRow :=
  { job with state := .agentAccepted, leaseId := none, leaseTokenHash := none, leaseUntil := none }

structure JobAcceptanceRow where
  agentId : String
  leaseId : String
  leaseTokenHash : Option String
  contentSha256 : Option String
  localSequence : Nat
  routeReservationId : Option String
  routeGeneration : Option Nat
  routeFencingTokenHash : Option String
  connectorGeneration : Option Int
deriving DecidableEq, Repr

structure PrinterRouteRow where
  destinationId : String
  agentId : String
  localRouteKey : Option String
  enabled : Bool
  retired : Bool
deriving DecidableEq, Repr

structure RouteReservationRow extends RouteReservation where
  fencingTokenHash : String
deriving DecidableEq, Repr

structure PostgresStore where
  agents : SortedMap String AgentRow
  connectors : SortedMap String NodeConnectorRow
  uploads : SortedMap String UploadRow
  routes : SortedMap String PrinterRouteRow
  jobs : SortedMap String JobRow
  acceptances : SortedMap String JobAcceptanceRow
  attempts : SortedMap String DeliveryAttempt
  reservations : SortedMap String RouteReservationRow
  /-- The attempts an operator has decided on. -/
  resolutions : List String
  /-- The events received from a node. -/
  receipts : List (String × String)
deriving DecidableEq

structure JobLease where
  jobId : String
  leaseId : String
  leaseToken : String
  leaseUntil : DateTime
deriving DecidableEq, Repr

structure DeliveryAttemptProof where
  reservationId : String
  generation : Nat
  fencingToken : String
deriving DecidableEq, Repr

/-- An event of a job, as a node reports it. -/
structure JobEvent where
  id : String
  jobId : String
  state : JobState
  occurredAt : DateTime
deriving DecidableEq, Repr

namespace PostgresStore

def empty : PostgresStore :=
  ⟨.empty, .empty, .empty, .empty, .empty, .empty, .empty, .empty, [], []⟩

variable (s : PostgresStore) (now : DateTime) (digest : String → String)

def putJob (jobId : String) (f : JobRow → JobRow) : PostgresStore :=
  { s with jobs := s.jobs.modify jobId f }

def putAttempt (attemptId : String) (f : DeliveryAttempt → DeliveryAttempt) : PostgresStore :=
  { s with attempts := s.attempts.modify attemptId f }

/-- Close the active reservations that satisfy `p`. -/
def closeReservations (p : RouteReservation → Bool) (state : ReservationState) : PostgresStore :=
  { s with
    reservations := s.reservations.mapValues fun _ row =>
      if p row.toRouteReservation && row.state == .active then
        { row with state := state, releasedAt := some now }
      else row }

/-! ### Creating a job -/

/-- `create_cloud_job`, for a request that was not made before: a job for a
destination names a usable route to it. -/
def createCloudJob (jobId agentId : String) (destinationRoute : Option (String × String))
    (content : ContentSource) (state : JobState) (createdAt expiresAt : DateTime) :
    Except StorageError PostgresStore :=
  if destinationRoute.any fun destinationRoute =>
      (s.routes.get? destinationRoute.2).all fun route =>
        route.destinationId != destinationRoute.1 || route.agentId != agentId ||
          !route.enabled || route.retired then
    .error .notFound
  else if s.jobs.contains jobId then .error .database
  else .ok { s with
    jobs := s.jobs.insert jobId
      ⟨agentId, destinationRoute.map Prod.fst, content, state, createdAt, expiresAt, none, none,
        none, none⟩ }

/-! ### Leasing a job -/

/-- Half a minute. -/
def leaseDuration : Int := 30 * 10 ^ 9

def claimable (agentId : String) (job : JobRow) : Bool :=
  job.agentId == agentId && (job.state == .waitingForAgent || job.state == .failedRetryable) &&
    decide (now < job.expiresAt) && job.leaseUntil.all fun leaseUntil => decide (leaseUntil < now)

/-- Lease one row of `claim_jobs`, under the identifier and token drawn for it. -/
def claimJob (agentId jobId leaseId leaseToken : String) : Option (JobLease × PostgresStore) :=
  match s.jobs.get? jobId with
  | none => none
  | some job =>
    if claimable now agentId job then
      some (⟨jobId, leaseId, leaseToken, now + leaseDuration⟩, s.putJob jobId fun job => { job with
        leaseId := some leaseId
        leaseTokenHash := some (digest leaseToken)
        leaseUntil := some (now + leaseDuration) })
    else none

/-- `claim_jobs`, which leaves out rows that another transaction has locked: the
rows it gets, with what is drawn for each, are inputs. -/
def claimJobs (agentId : String) (rows : List (String × String × String)) : PostgresStore :=
  rows.foldl (fun s row =>
    match s.claimJob now digest agentId row.1 row.2.1 row.2.2 with
    | some (_, s) => s
    | none => s) s

/-! ### Beginning a delivery attempt -/

/-- The attempt of the highest generation among those that satisfy `p`. -/
def latestWhere (p : DeliveryAttempt → Bool) : Option (String × DeliveryAttempt) :=
  s.attempts.findEntry? fun _ attempt => p attempt &&
    s.attempts.values.all fun other => !p other || decide (other.generation ≤ attempt.generation)

def latestAttempt (jobId : String) : Option (String × DeliveryAttempt) :=
  s.latestWhere fun attempt => attempt.jobId == jobId

def hasUnresolvedUncertainty (destinationId : String) : Bool :=
  s.attempts.entries.any fun e => e.2.destinationId == destinationId &&
    e.2.state == .deliveryUncertain && !s.resolutions.contains e.1

/-- Retire the leases for a destination that ran out before a node accepted. -/
def supersedeStale (destinationId : String) : PostgresStore :=
  let isStale := fun attempt : DeliveryAttempt => attempt.destinationId == destinationId &&
    attempt.state == .routeLeased && attempt.finalAt.isNone && decide (attempt.leaseUntil ≤ now)
  let staleAttemptIds := (s.attempts.entries.filter fun e => isStale e.2).map Prod.fst
  let s := { s with
    attempts := s.attempts.mapValues fun _ attempt =>
      if isStale attempt then attempt.advance .superseded now else attempt }
  s.closeReservations now (fun reservation => staleAttemptIds.contains reservation.attemptId)
    .superseded

/-- The states of an attempt in which its job no longer waits for the destination. -/
def passed : DeliveryAttemptState → Bool
  | .acceptedBySpooler | .printingReported => true
  | state => state.isFinal

/-- An older job of the destination is to be begun first. -/
def olderEligibleJob (destinationId jobId : String) (createdAt : DateTime) : Bool :=
  s.jobs.entries.any fun e => e.2.destinationId == some destinationId && e.1 != jobId &&
    (decide (e.2.createdAt < createdAt) || e.2.createdAt == createdAt && decide (e.1 < jobId)) &&
    (e.2.state == .waitingForAgent || e.2.state == .failedRetryable) &&
    decide (now < e.2.expiresAt) &&
    match s.latestAttempt e.1 with
    | none => true
    | some (_, attempt) => !passed attempt.state

def retireActive (jobId : String) : Except StorageError PostgresStore :=
  match s.attempts.findEntry? fun _ attempt => attempt.jobId == jobId && attempt.finalAt.isNone with
  | some (id, active) =>
    if active.state ≠ .routeLeased || decide (now < active.leaseUntil) then
      .error .concurrentStateChange
    else
      .ok ((s.putAttempt id fun attempt => attempt.advance .superseded now).closeReservations now
        (fun reservation => reservation.attemptId == id) .superseded)
  | none =>
    match s.latestAttempt jobId with
    | some (_, attempt) =>
      if attempt.state = .deliveryUncertain then .error .concurrentStateChange else .ok s
    | none => .ok s

def nextGeneration (jobId : String) : Nat :=
  (((s.attempts.values.filter fun attempt => attempt.jobId == jobId).map
    fun attempt => attempt.generation).max?.getD 0) + 1

/-- The insertions, under the unique indexes of the two tables. -/
def insertAttempt (token : String) (request : NewDeliveryAttempt) (generation : Nat) :
    Except StorageError (StartedDeliveryAttempt × PostgresStore) :=
  if i64Max < generation then .error .database
  else if s.attempts.contains request.attemptId || s.reservations.contains request.reservationId ||
      s.reservations.values.any fun row => row.attemptId == request.attemptId ||
        row.state == .active && (row.routeId == request.routeId ||
          row.destinationId == request.destinationId || row.jobId == request.jobId) then
    .error .concurrentStateChange
  else
    let attempt := MemoryState.newAttempt now request generation (digest token)
    let reservation := MemoryState.newReservation now request generation
    .ok (⟨attempt, reservation, token⟩, { s with
      attempts := s.attempts.insert request.attemptId attempt
      reservations := s.reservations.insert request.reservationId ⟨reservation, digest token⟩ })

def beginnable : JobState → Bool
  | .registered | .contentPending | .waitingForAgent | .failedRetryable => true
  | _ => false

def beginDeliveryAttempt (token : String) (request : NewDeliveryAttempt) :
    Except StorageError (StartedDeliveryAttempt × PostgresStore) :=
  match s.routes.get? request.routeId with
  | none => .error .notFound
  | some route =>
    if route.destinationId ≠ request.destinationId then .error .notFound
    else if (s.agents.get? route.agentId).all fun agent => agent.revoked then .error .notFound
    else if !route.enabled || route.retired then .error .notFound
    else
      match s.jobs.get? request.jobId with
      | none => .error .notFound
      | some job =>
        if job.finalAt.isSome || !decide (now < job.expiresAt) || !beginnable job.state then
          .error .concurrentStateChange
        else if job.destinationId.any fun id => id != request.destinationId then
          .error .concurrentStateChange
        else
          let s := s.putJob request.jobId fun job =>
            { job with destinationId := some request.destinationId }
          if s.hasUnresolvedUncertainty request.destinationId then .error .concurrentStateChange
          else
            let s := s.supersedeStale now request.destinationId
            if s.olderEligibleJob now request.destinationId request.jobId job.createdAt then
              .error .concurrentStateChange
            else do
              let s ← s.retireActive now request.jobId
              s.insertAttempt now digest token request (s.nextGeneration request.jobId)

/-! ### Moving an attempt along -/

def transitionDeliveryAttempt (attemptId : String) (generation : Nat) (fencingToken : String)
    (next : DeliveryAttemptState) : Except StorageError (DeliveryAttempt × PostgresStore) :=
  match s.attempts.get? attemptId with
  | none => .error .notFound
  | some attempt =>
    if i64Max < generation || attempt.generation ≠ generation ||
        attempt.digest ≠ digest fencingToken || !validAttemptTransition attempt.state next then
      .error .concurrentStateChange
    else
      let result := attempt.transition next now
      let s := s.putAttempt attemptId fun _ => result
      .ok (result, if next.isFinal || next = .acceptedBySpooler then
        s.closeReservations now (fun reservation => reservation.attemptId == attemptId)
          (MemoryState.closingState next)
      else s)

/-- The attempt leaves the post-spooler states it is in. -/
def settleAttempt (attemptId : String) (attempt : DeliveryAttempt) (next : DeliveryAttemptState) :
    DeliveryAttempt × PostgresStore :=
  let result := attempt.advance next now
  (result, (s.putAttempt attemptId fun _ => result).closeReservations now
    (fun reservation => reservation.attemptId == attemptId) .released)

def transitionPostSpoolerAttempt (jobId agentId routeId : String) (next : DeliveryAttemptState) :
    Except StorageError (DeliveryAttempt × PostgresStore) :=
  if !(next == .printingReported || next == .completedReported || next == .failed ||
      next == .deliveryUncertain) then
    .error .invalidTransition
  else if (s.routes.get? routeId).all fun route => route.agentId != agentId then .error .notFound
  else
    match s.latestWhere fun attempt => attempt.jobId == jobId && attempt.routeId == routeId with
    | none => .error .notFound
    | some (attemptId, attempt) =>
      if !validAttemptTransition attempt.state next ||
          !MemoryState.postSpooler attempt.state then
        .error .concurrentStateChange
      else .ok (s.settleAttempt now attemptId attempt next)

def markPostSpoolerAttemptUncertain (jobId : String) :
    Except StorageError (DeliveryAttempt × PostgresStore) :=
  match s.latestAttempt jobId with
  | none => .error .notFound
  | some (attemptId, attempt) =>
    if !MemoryState.postSpooler attempt.state then .error .concurrentStateChange
    else .ok (s.settleAttempt now attemptId attempt .deliveryUncertain)

/-! ### Events of a job -/

/-- Apply an event a node reports; one that has been received before is left. -/
def applyAgentEvent (agentId : String) (reported : JobEvent) :
    Except StorageError (Option JobRow × PostgresStore) :=
  if s.receipts.contains (agentId, reported.id) then .ok (none, s)
  else
    match s.jobs.get? reported.jobId with
    | none => .error .notFound
    | some job =>
      if job.agentId ≠ agentId then .error .notFound
      else
        match validateTransition job.state reported.state with
        | .error _ => .error .invalidTransition
        | .ok () =>
          let job := job.advance reported.state reported.occurredAt
          .ok (some job, { s.putJob reported.jobId fun _ => job with
            receipts := (agentId, reported.id) :: s.receipts })

/-- Ask for a job to be cancelled; one that no node has accepted is at once. -/
def requestJobCancellation (jobId : String) : Except StorageError (JobRow × PostgresStore) :=
  match s.jobs.get? jobId with
  | none => .error .notFound
  | some job =>
    match validateTransition job.state .cancelRequested with
    | .error _ => .error .invalidTransition
    | .ok () =>
      if s.acceptances.contains jobId then
        let job := { job with state := JobState.cancelRequested }
        .ok (job, s.putJob jobId fun _ => job)
      else
        let job := { job with
          state := JobState.cancelled
          finalAt := job.finalAt <|> some now
          leaseId := none
          leaseTokenHash := none
          leaseUntil := none }
        let s := s.putJob jobId fun _ => job
        let s := { s with
          attempts := s.attempts.mapValues fun _ attempt =>
            if attempt.jobId == jobId && attempt.finalAt.isNone then
              attempt.advance .cancelled now
            else attempt }
        .ok (job, s.closeReservations now (fun reservation => reservation.jobId == jobId)
          .cancelled)

/-! ### Accepting a job -/

/-- The generation of the node's connector; nothing is accepted from one that has
been revoked. -/
def connectorGeneration (agentId : String) : Int :=
  match s.connectors.get? agentId with
  | none => 1
  | some connector => if connector.revoked then 0 else connector.admissionGeneration

/-- The digest the job's content must have, where the server knows it. -/
def expectedSha256 (decodeBase64 : String → Option String) :
    ContentSource → Except StorageError (Option String)
  | .upload uploadId | .encryptedUpload uploadId =>
    match s.uploads.get? uploadId with
    | none => .error .notFound
    | some upload => if upload.complete then .ok (some upload.expectedSha256) else .error .notFound
  | .base64 data =>
    match decodeBase64 data with
    | none => .error (.invalidData "invalid base64")
    | some bytes => .ok (some (digest bytes))
  | .uri => .ok none

/-- Equality of hexadecimal texts in either case. -/
def sameDigest (actual expected : String) : Bool :=
  actual.toList.map Char.toLower == expected.toList.map Char.toLower

/-- The attempt a proof is for: fenced by an active reservation on one of the
node's routes, and not handed to the spooler yet. -/
def provenAttempt (agentId jobId destinationId : String) (proof : DeliveryAttemptProof) :
    Except StorageError (String × DeliveryAttempt) :=
  if i64Max < proof.generation then .error .concurrentStateChange
  else
    match s.reservations.get? proof.reservationId with
    | none => .error .concurrentStateChange
    | some reservation =>
      match s.attempts.get? reservation.attemptId with
      | none => .error .concurrentStateChange
      | some attempt =>
        if reservation.jobId ≠ jobId || reservation.generation ≠ proof.generation ||
            reservation.fencingTokenHash ≠ digest proof.fencingToken ||
            attempt.generation ≠ proof.generation ||
            attempt.digest ≠ digest proof.fencingToken || attempt.jobId ≠ jobId ||
            attempt.destinationId ≠ destinationId || reservation.state ≠ .active ||
            (s.routes.get? attempt.routeId).all fun route => route.agentId != agentId then
          .error .concurrentStateChange
        else if !(attempt.state == .routeLeased || attempt.state == .acceptedByNode ||
            attempt.state == .queuedLocal) then
          .error .concurrentStateChange
        else .ok (reservation.attemptId, attempt)

/-- What a node sends to accept a job. -/
structure Acceptance where
  agentId : String
  jobId : String
  leaseId : String
  leaseToken : String
  contentSha256 : Option String
  localSequence : Nat
  proof : Option DeliveryAttemptProof
deriving DecidableEq, Repr

def Acceptance.row (digest : String → String) (request : Acceptance) (connectorGeneration : Int) :
    JobAcceptanceRow where
  agentId := request.agentId
  leaseId := request.leaseId
  leaseTokenHash := some (digest request.leaseToken)
  contentSha256 := request.contentSha256
  localSequence := request.localSequence
  routeReservationId := request.proof.map fun proof => proof.reservationId
  routeGeneration := request.proof.map fun proof => proof.generation
  routeFencingTokenHash := request.proof.map fun proof => digest proof.fencingToken
  connectorGeneration := some connectorGeneration

/-- An acceptance that is stored already must be repeated exactly. -/
def repeatAcceptance (request : Acceptance) (job : JobRow) (connectorGeneration : Int)
    (attempt : Option (String × DeliveryAttempt)) (stored : JobAcceptanceRow) :
    Except StorageError (JobRow × PostgresStore) :=
  if stored.leaseId ≠ request.leaseId || stored.contentSha256 ≠ request.contentSha256 ||
      (stored.localSequence : Int) ≠ min (request.localSequence : Int) i64Max then
    .error .idempotencyConflict
  else if request.proof.any fun proof => i64Max < proof.generation then
    .error .concurrentStateChange
  else if stored.routeReservationId ≠ request.proof.map (fun proof => proof.reservationId) ||
      stored.routeGeneration ≠ request.proof.map (fun proof => proof.generation) ||
      stored.routeFencingTokenHash ≠ request.proof.map (fun proof => digest proof.fencingToken) ||
      stored.connectorGeneration ≠ some connectorGeneration then
    .error .idempotencyConflict
  else if stored.leaseTokenHash.any fun hash => hash != digest request.leaseToken then
    .error .idempotencyConflict
  else if stored.leaseTokenHash.isNone && job.state ≠ .agentAccepted then
    .error .idempotencyConflict
  else if job.destinationId.isSome && attempt.all fun e => e.2.state ≠ .queuedLocal then
    .error .idempotencyConflict
  else
    let stored := { stored with leaseTokenHash := some (digest request.leaseToken) }
    .ok (job, { s with acceptances := s.acceptances.insert request.jobId stored })

/-- The rows of a first acceptance: the job has no lease any more, and its attempt
is the node's. -/
def writeAcceptance (request : Acceptance) (job : JobRow) (connectorGeneration : Int)
    (attemptId : Option String) : PostgresStore :=
  let s := s.putJob request.jobId fun _ => job.accepted
  let s := { s with acceptances :=
    s.acceptances.insert request.jobId (request.row digest connectorGeneration) }
  match attemptId with
  | none => s
  | some attemptId => s.putAttempt attemptId fun attempt => { attempt with
    state := .queuedLocal
    acceptedAt := attempt.acceptedAt <|> some now
    updatedAt := now }

/-- The first acceptance of a job, under its lease. -/
def insertAcceptance (decodeBase64 : String → Option String) (request : Acceptance) (job : JobRow)
    (connectorGeneration : Int) (attempt : Option (String × DeliveryAttempt)) :
    Except StorageError (JobRow × PostgresStore) :=
  if job.leaseId ≠ some request.leaseId ||
      job.leaseTokenHash ≠ some (digest request.leaseToken) ||
      job.leaseUntil.all (fun leaseUntil => decide (leaseUntil ≤ now)) then
    .error .concurrentStateChange
  else
    match s.expectedSha256 digest decodeBase64 job.content with
    | .error error => .error error
    | .ok expected =>
      if expected.any fun expected =>
          !request.contentSha256.any fun actual => sameDigest actual expected then
        .error (.invalidData "accepted content digest does not match the job")
      else if !(job.state == .waitingForAgent || job.state == .agentDownloading) then
        .error .invalidTransition
      else if i64Max < request.localSequence then
        .error (.invalidData "local sequence overflow")
      -- the row of another node: the primary key is the job
      else if s.acceptances.contains request.jobId then .error .database
      else if attempt.any fun e =>
          !(e.2.state == .routeLeased || e.2.state == .acceptedByNode) then
        .error .concurrentStateChange
      else .ok (job.accepted, s.writeAcceptance now digest request job connectorGeneration
        (attempt.map Prod.fst))

def storeAcceptance (decodeBase64 : String → Option String) (request : Acceptance) (job : JobRow)
    (connectorGeneration : Int) (attempt : Option (String × DeliveryAttempt)) :
    Except StorageError (JobRow × PostgresStore) :=
  match s.acceptances.get? request.jobId with
  | some stored =>
    if stored.agentId = request.agentId then
      s.repeatAcceptance digest request job connectorGeneration attempt stored
    else s.insertAcceptance now digest decodeBase64 request job connectorGeneration attempt
  | none => s.insertAcceptance now digest decodeBase64 request job connectorGeneration attempt

/-- The attempt an acceptance rests on: jobs bound to a destination need one. -/
def acceptanceAttempt (request : Acceptance) (job : JobRow) :
    Except StorageError (Option (String × DeliveryAttempt)) :=
  match job.destinationId, request.proof with
  | some destinationId, some proof =>
    (s.provenAttempt digest request.agentId request.jobId destinationId proof).map some
  | some _, none => .error
    (.invalidData "destination-routed jobs require an atomic delivery-attempt proof")
  | none, some _ => .error .concurrentStateChange
  | none, none => .ok none

def acceptAgentJob (decodeBase64 : String → Option String) (request : Acceptance) :
    Except StorageError (JobRow × PostgresStore) :=
  if (s.agents.get? request.agentId).all fun agent => agent.revoked then .error .notFound
  else if s.connectorGeneration request.agentId ≤ 0 then .error .notFound
  else
    match s.jobs.get? request.jobId with
    | none => .error .notFound
    | some job =>
      if job.agentId ≠ request.agentId then .error .notFound
      else do
        let attempt ← s.acceptanceAttempt digest request job
        s.storeAcceptance now digest decodeBase64 request job
          (s.connectorGeneration request.agentId) attempt

end PostgresStore

end Piqae.Server
