/-
Piqae/Server/Leases.lean

What the server does with a job before a node has it: its move to the queue
(`transition_job`), the release of its lease, the transitions that end a lease
because the job cannot be offered, and expiry (`storage-postgres/src/lib.rs`).

The last three first retire the job's route leases; an attempt that a node has
taken over stops them.
-/
import Piqae.Server.ControlPlane

namespace Piqae.Server

namespace PostgresStore

variable (s : PostgresStore) (now : DateTime) (digest : String → String)

/-- Move a job along the lifecycle: `transition_job`, for the server itself. -/
def transitionJob (jobId : String) (next : JobState) :
    Except StorageError (JobRow × PostgresStore) :=
  match s.jobs.get? jobId with
  | none => .error .notFound
  | some job =>
    match validateTransition job.state next with
    | .error _ => .error .invalidTransition
    | .ok () =>
      let job := job.advance next now
      .ok (job, s.putJob jobId fun _ => job)

/-! ### Leases -/

/-- The job is under this very lease, and the lease has not run out. -/
def leased (agentId : String) (lease : JobLease) (job : JobRow) : Bool :=
  job.agentId == agentId && job.leaseId == some lease.leaseId &&
    job.leaseTokenHash == some (digest lease.leaseToken) &&
    job.leaseUntil.any fun leaseUntil => decide (now < leaseUntil)

def releaseAgentLease (agentId : String) (lease : JobLease) : Except StorageError PostgresStore :=
  match s.jobs.get? lease.jobId with
  | none => .error .concurrentStateChange
  | some job =>
    if leased now digest agentId lease job then
      .ok (s.putJob lease.jobId fun job =>
        { job with leaseId := none, leaseTokenHash := none, leaseUntil := none })
    else .error .concurrentStateChange

/-! ### Ending a lease before the handoff -/

/-- Retire the route leases of a job, unless a node has one of its attempts. -/
def supersedePreHandoffDeliveryAttempts (jobId : String) : Option PostgresStore :=
  let isActive := fun attempt : DeliveryAttempt => attempt.jobId == jobId && attempt.finalAt.isNone
  if s.attempts.values.any fun attempt =>
      isActive attempt && attempt.state != .routeLeased then none
  else
    let attemptIds := (s.attempts.entries.filter fun e => isActive e.2).map Prod.fst
    let s := { s with
      attempts := s.attempts.mapValues fun _ attempt =>
        if isActive attempt then attempt.advance .superseded now else attempt }
    some (s.closeReservations now (fun reservation => attemptIds.contains reservation.attemptId)
      .superseded)

inductive PreHandoffTransitionOutcome
  | transitioned
  | unsafeLocalResponsibility
deriving DecidableEq, Repr

/-- Take a leased job out of the queue, with what becomes of it. -/
def leavePreHandoff (agentId : String) (lease : JobLease) (leave : JobRow → JobRow) :
    Except StorageError (PreHandoffTransitionOutcome × PostgresStore) :=
  match s.jobs.get? lease.jobId with
  | none => .error .concurrentStateChange
  | some job =>
    if leased now digest agentId lease job &&
        (job.state == .waitingForAgent || job.state == .failedRetryable) then
      match s.supersedePreHandoffDeliveryAttempts now lease.jobId with
      | none => .ok (.unsafeLocalResponsibility, s)
      | some s => .ok (.transitioned, s.putJob lease.jobId fun job =>
        { leave job with leaseId := none, leaseTokenHash := none, leaseUntil := none })
    else .error .concurrentStateChange

def blockAgentLeaseForNodeUpdate (agentId : String) (lease : JobLease) :
    Except StorageError (PreHandoffTransitionOutcome × PostgresStore) :=
  s.leavePreHandoff now digest agentId lease fun job => { job with state := .blocked }

def failAgentLeaseBeforeHandoff (agentId : String) (lease : JobLease) :
    Except StorageError (PreHandoffTransitionOutcome × PostgresStore) :=
  s.leavePreHandoff now digest agentId lease fun job =>
    { job with state := .failedTerminal, finalAt := some now }

/-! ### Expiry -/

def expirable : JobState → Bool
  | .registered | .contentPending | .waitingForAgent | .failedRetryable | .blocked => true
  | _ => false

/-- One row of `expire_jobs_before_handoff`.  Only a job that the server itself has
blocked for an update of its node (`updateRequired`) expires while it is blocked. -/
def expireJobBeforeHandoff (jobId : String) (updateRequired : Bool) : PostgresStore :=
  match s.jobs.get? jobId with
  | none => s
  | some job =>
    if job.finalAt.isNone && !decide (now < job.expiresAt) && expirable job.state &&
        !s.acceptances.contains jobId && (job.state != .blocked || updateRequired) then
      match s.supersedePreHandoffDeliveryAttempts now jobId with
      | none => s
      | some s => s.putJob jobId fun job => { job with
        state := .expired
        finalAt := some now
        leaseId := none
        leaseTokenHash := none
        leaseUntil := none }
    else s

/-- `expire_jobs_before_handoff`, which leaves out rows that another transaction
has locked: the rows it gets are inputs. -/
def expireJobsBeforeHandoff (rows : List (String × Bool)) : PostgresStore :=
  rows.foldl (fun s row => s.expireJobBeforeHandoff now row.1 row.2) s

end PostgresStore

/-! ### The machine -/

/-- A request to the server, or what it does of its own accord. -/
inductive ServerOp
  | request (op : ControlPlaneOp)
  | transitionJob (now : DateTime) (jobId : String) (next : JobState)
  | releaseAgentLease (now : DateTime) (agentId : String) (lease : JobLease)
  | blockAgentLeaseForNodeUpdate (now : DateTime) (agentId : String) (lease : JobLease)
  | failAgentLeaseBeforeHandoff (now : DateTime) (agentId : String) (lease : JobLease)
  | expireJobsBeforeHandoff (now : DateTime) (rows : List (String × Bool))
deriving DecidableEq

/-- The identifiers drawn for leases. -/
def ServerOp.drawn : ServerOp → List String
  | request (.claimJobs _ _ rows) => rows.map fun row => row.2.1
  | _ => []

namespace PostgresStore

variable (digest : String → String) (decodeBase64 : String → Option String)

def serve (s : PostgresStore) : ServerOp → PostgresStore
  | .request op => step digest decodeBase64 s op
  | .transitionJob now jobId next => s.committed (s.transitionJob now jobId next)
  | .releaseAgentLease now agentId lease =>
    match s.releaseAgentLease now digest agentId lease with
    | .ok s => s
    | .error _ => s
  | .blockAgentLeaseForNodeUpdate now agentId lease =>
    s.committed (s.blockAgentLeaseForNodeUpdate now digest agentId lease)
  | .failAgentLeaseBeforeHandoff now agentId lease =>
    s.committed (s.failAgentLeaseBeforeHandoff now digest agentId lease)
  | .expireJobsBeforeHandoff now rows => s.expireJobsBeforeHandoff now rows

end PostgresStore

end Piqae.Server
