/-
Piqae/Server/ControlPlane.lean

What the control plane does with a node's sync (`control-plane/src/api.rs`,
`control-plane/src/destination_topology.rs`): the evidence of native handoffs
moves delivery attempts, and every job event the server applies is projected on
the job's latest attempt.

These are several transactions in a row, so a failure keeps what the earlier ones
have done.
-/
import Piqae.Server.Store

namespace Piqae.Server

inductive AppError
  | storage (error : StorageError)
  | invalid (code message : String)
  | conflict (code message : String)
deriving DecidableEq, Repr

inductive NativeHandoffOutcome
  | accepted
  | rejectedBeforeHandoff
  | ambiguous
deriving DecidableEq, Repr

structure NativeHandoffEvidence where
  sequence : Nat
  jobId : String
  routeId : Option String
  localRouteKey : String
  reservationId : String
  fencingGeneration : Nat
  fencingToken : String
  outcome : NativeHandoffOutcome
deriving DecidableEq, Repr

def NativeHandoffOutcome.attemptState : NativeHandoffOutcome → DeliveryAttemptState
  | accepted => .acceptedBySpooler
  | rejectedBeforeHandoff => .failed
  | ambiguous => .deliveryUncertain

namespace PostgresStore

variable (s : PostgresStore) (now : DateTime) (digest : String → String)

/-! ### Native handoffs -/

def getDeliveryAttemptByReservation (reservationId : String) :
    Except StorageError (String × DeliveryAttempt) :=
  match s.reservations.get? reservationId with
  | none => .error .notFound
  | some reservation =>
    match s.attempts.get? reservation.attemptId with
    | none => .error .notFound
    | some attempt => .ok (reservation.attemptId, attempt)

/-- The attempt of an item of evidence, on the route it names. -/
def evidencedAttempt (agentId : String) (item : NativeHandoffEvidence) :
    Except AppError (String × DeliveryAttempt) :=
  match item.routeId with
  | none => .error (.conflict "route_fence_required"
    "Native handoff evidence must carry its server route reservation.")
  | some routeId =>
    match s.routes.get? routeId with
    | none => .error (.storage .notFound)
    | some route =>
      if route.agentId ≠ agentId || route.localRouteKey ≠ some item.localRouteKey then
        .error (.conflict "stale_route_fence"
          "Native handoff evidence does not identify the authorized route.")
      else
        match s.getDeliveryAttemptByReservation item.reservationId with
        | .error error => .error (.storage error)
        | .ok (attemptId, attempt) =>
          if attempt.jobId ≠ item.jobId || attempt.routeId ≠ routeId ||
              attempt.generation ≠ item.fencingGeneration then
            .error (.conflict "stale_route_fence"
              "Native handoff evidence was fenced by a newer delivery attempt.")
          else .ok (attemptId, attempt)

/-- Move the attempt along, if it is in the state given. -/
def moveFrom (state : DeliveryAttemptState) (attemptId : String) (attempt : DeliveryAttempt)
    (item : NativeHandoffEvidence) (next : DeliveryAttemptState) :
    Except StorageError DeliveryAttempt × PostgresStore :=
  if attempt.state = state then
    match s.transitionDeliveryAttempt now digest attemptId item.fencingGeneration
        item.fencingToken next with
    | .ok (attempt, s) => (.ok attempt, s)
    | .error error => (.error error, s)
  else (.ok attempt, s)

def ingestNativeHandoff (agentId : String) (item : NativeHandoffEvidence) :
    Except AppError Unit × PostgresStore :=
  match s.evidencedAttempt agentId item with
  | .error error => (.error error, s)
  | .ok (attemptId, attempt) =>
    match s.moveFrom now digest .queuedLocal attemptId attempt item .handingToSpooler with
    | (.error error, s) => (.error (.storage error), s)
    | (.ok attempt, s) =>
      match s.moveFrom now digest .handingToSpooler attemptId attempt item
          item.outcome.attemptState with
      | (.error error, s) => (.error (.storage error), s)
      | (.ok _, s) => (.ok (), s)

def ingestItems (agentId : String) (s : PostgresStore) :
    List NativeHandoffEvidence → Except AppError Unit × PostgresStore
  | [] => (.ok (), s)
  | item :: evidence =>
    match s.ingestNativeHandoff now digest agentId item with
    | (.error error, s) => (.error error, s)
    | (.ok (), s) => ingestItems agentId s evidence

/-- Evidence is taken in order, up to the first item that is refused. -/
def ingestNativeHandoffs (agentId : String) (evidence : List NativeHandoffEvidence) :
    Except AppError Unit × PostgresStore :=
  if 1000 < evidence.length ||
      (evidence.zip evidence.tail).any fun pair => decide (pair.2.sequence ≤ pair.1.sequence) then
    (.error (.invalid "invalid_handoff_evidence"
      "Native handoff evidence must be bounded and strictly ordered."), s)
  else ingestItems now digest agentId s evidence

/-! ### Job events -/

/-- The state of the attempt that a job event reports. -/
def projectedState : JobState → Option DeliveryAttemptState
  | .spooling | .printing | .blocked => some .printingReported
  | .completedReported => some .completedReported
  | .failedTerminal => some .failed
  | .expired => some .cancelled
  | .cancelled | .deliveryUncertain => some .deliveryUncertain
  | _ => none

/-- The attempt shows what the event reports. -/
def alreadyProjected (next current : DeliveryAttemptState) : Bool :=
  match next with
  | .printingReported => current == .printingReported || current == .completedReported
  | .completedReported => current == .completedReported
  | .failed => current == .failed
  | .deliveryUncertain => current == .deliveryUncertain
  | _ => false

/-- Move the latest attempt to the state an event reports. -/
def projectAttempt (agentId jobId routeId : String) (next : DeliveryAttemptState) :
    Except StorageError (DeliveryAttempt × PostgresStore) :=
  if next = .deliveryUncertain then s.markPostSpoolerAttemptUncertain now jobId
  else s.transitionPostSpoolerAttempt now jobId agentId routeId next

def reconcilePostSpoolerEvent (agentId : String) (event : JobEvent) :
    Except AppError (Option DeliveryAttempt × PostgresStore) :=
  match projectedState event.state with
  | none => .ok (none, s)
  | some next =>
    match s.latestAttempt event.jobId with
    | none => .error (.storage .notFound)
    | some (_, current) =>
      match s.routes.get? current.routeId with
      | none => .error (.storage .notFound)
      | some route =>
        if route.agentId ≠ agentId then
          .error (.conflict "stale_route_event"
            "The authenticated node does not own this delivery route.")
        else if alreadyProjected next current.state || current.state.isFinal then
          .ok (some current, s)
        else
          match s.projectAttempt now agentId event.jobId current.routeId next with
          | .error error => .error (.storage error)
          | .ok (attempt, s) => .ok (some attempt, s)

/-- Apply a reported event, and whether it is to be projected: it is when it was
applied, and when it was received before and the job is still in its state. -/
def receiveEvent (agentId : String) (event : JobEvent) : Except AppError (Bool × PostgresStore) :=
  match s.applyAgentEvent agentId event with
  | .ok (some _, s) => .ok (true, s)
  | .ok (none, s) => .ok ((s.jobs.get? event.jobId).any fun job => job.state == event.state, s)
  | .error .concurrentStateChange => .ok (false, s)
  | .error error => .error (.storage error)

def syncEvent (agentId : String) (event : JobEvent) : Except AppError Unit × PostgresStore :=
  match s.receiveEvent agentId event with
  | .error error => (.error error, s)
  | .ok (false, s) => (.ok (), s)
  | .ok (true, s) =>
    match s.reconcilePostSpoolerEvent now agentId event with
    | .error error => (.error error, s)
    | .ok (_, s) => (.ok (), s)

end PostgresStore

/-! ### The machine -/

/-- A request to the control plane. -/
inductive ControlPlaneOp
  | enrolAgent (agentId : String)
  | upsertRoute (routeId : String) (route : PrinterRouteRow)
  | storeUpload (uploadId : String) (upload : UploadRow)
  | createCloudJob (jobId agentId : String) (destinationRoute : Option (String × String))
      (content : ContentSource) (state : JobState) (createdAt expiresAt : DateTime)
  | claimJobs (now : DateTime) (agentId : String) (rows : List (String × String × String))
  | beginDeliveryAttempt (now : DateTime) (token : String) (request : NewDeliveryAttempt)
  | acceptAgentJob (now : DateTime) (request : PostgresStore.Acceptance)
  | ingestNativeHandoffs (now : DateTime) (agentId : String)
      (evidence : List NativeHandoffEvidence)
  | syncEvent (now : DateTime) (agentId : String) (event : JobEvent)
  | requestJobCancellation (now : DateTime) (jobId : String)
deriving DecidableEq

namespace PostgresStore

/-- Enrol a node: its row, and a connector that is not revoked. -/
def enrolAgent (s : PostgresStore) (agentId : String) : PostgresStore :=
  let connector := match s.connectors.get? agentId with
    | none => ⟨false, 1⟩
    | some connector => if connector.revoked then ⟨false, connector.admissionGeneration + 1⟩
      else connector
  { s with
    agents := s.agents.insert agentId ⟨false⟩
    connectors := s.connectors.insert agentId connector }

variable (digest : String → String) (decodeBase64 : String → Option String)

/-- The tables after a transaction: as it leaves them, or as they were. -/
def committed {α : Type} (s : PostgresStore) (result : Except StorageError (α × PostgresStore)) :
    PostgresStore :=
  match result with
  | .ok (_, s) => s
  | .error _ => s

def step (s : PostgresStore) : ControlPlaneOp → PostgresStore
  | .enrolAgent agentId => s.enrolAgent agentId
  | .upsertRoute routeId route => { s with routes := s.routes.insert routeId route }
  | .storeUpload uploadId upload => { s with uploads := s.uploads.insert uploadId upload }
  | .createCloudJob jobId agentId destinationRoute content state createdAt expiresAt =>
    match s.createCloudJob jobId agentId destinationRoute content state createdAt expiresAt with
    | .ok s => s
    | .error _ => s
  | .claimJobs now agentId rows => s.claimJobs now digest agentId rows
  | .beginDeliveryAttempt now token request =>
    s.committed (s.beginDeliveryAttempt now digest token request)
  | .acceptAgentJob now request =>
    s.committed (s.acceptAgentJob now digest decodeBase64 request)
  | .ingestNativeHandoffs now agentId evidence =>
    (s.ingestNativeHandoffs now digest agentId evidence).2
  | .syncEvent now agentId event => (s.syncEvent now agentId event).2
  | .requestJobCancellation now jobId => s.committed (s.requestJobCancellation now jobId)

abbrev run (l : List ControlPlaneOp) : PostgresStore :=
  Run.exec (step digest decodeBase64) empty l

end PostgresStore

end Piqae.Server
