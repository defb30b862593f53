/-
Piqae/Node/Reconcile.lean

Reconciliation of the two durable files after a restart
(`reconcile_authoritative_route_state` and `reconcile_local_route_state` of the
agent), and the operator's resolution of a local ambiguity.
-/
import Piqae.Node.Engine

namespace Piqae

namespace Reconcile

open Prog

/-- `finish` of the live coordinator. -/
def finish (W : Worker) (connectorId jobId : String) (reservation : RouteReservation)
    (outcome : NativeHandoffOutcome) : Prog (Fallible Unit) :=
  coordinate .plain fun i c =>
    c.finish W.enc connectorId jobId reservation outcome none i.now i.first

/-- Release a cloud job whose handoff is uncertain; a job that is released
already stays as it is. -/
def releaseUncertainCloudHandoffForRetry (milestones : List Milestone) (jobId : String) :
    Prog Unit := do
  let job ← read (·.getJob jobId)
  if job.any fun job => job.cloudManaged && job.state = .known .failedRetryable then return ()
  else
    write .within milestones fun store =>
      (store.releaseUncertainCloudHandoffForRetry jobId).map fun store => ((), store)

/-! ### Authoritative routes -/

/-- What the coordinator knows about a candidate.  An intent with a fence and
without evidence is journaled as ambiguous: the native process may have
accepted the job before it could return. -/
def evidenceOf (W : Worker) (connectorId : String) (observedAt : DateTime)
    (authoritative : List (String × RouteReservation)) (jobId : String)
    (proof : Option CloudRouteProof) : Prog (Option AuthoritativeHandoffResolution) := do
  let recorded ← consult (fun c => proof.bind fun proof =>
    c.document.authoritativeHandoffForProof connectorId jobId proof.reservationId
      proof.generation proof.fencingToken) none
  match recorded with
  | some resolution => return some resolution
  | none =>
    match authoritative.find? fun entry => entry.1 == jobId && proof.all fun proof =>
        entry.2.matchesCloudProof proof.reservationId proof.generation proof.fencingToken with
    | none => return none
    | some (_, reservation) => do
      orFail (finish W connectorId jobId reservation .ambiguous)
      return some ⟨.ambiguous, none, observedAt⟩

/-- Adopt the evidence of a spool intent. -/
def recoverSpoolIntent (jobId : String) :
    Option AuthoritativeHandoffResolution → Prog Unit
  | some ⟨.accepted, some nativeJobId, handoffAt⟩ =>
    update (·.recordNativeAcceptance jobId nativeJobId
      (handoffAt.timestampMillis + Engine.reconciliationIntervalMs)
      (handoffAt.timestampMillis + Engine.uncertaintyAfterMs))
  | some ⟨.rejectedBeforeHandoff, _, _⟩ =>
    update (·.recordCloudHandoffRecovery jobId .failedRetryable
      "authoritative_rejected_before_handoff"
      "Authoritative native handoff was rejected; awaiting a new server offer")
  | some _ =>
    update (·.recordCloudHandoffRecovery jobId .deliveryUncertain "ambiguous_handoff"
      "Native handoff outcome is uncertain after restart")
  | none =>
    update (·.recordCloudHandoffRecovery jobId .deliveryUncertain
      "route_fence_recovery_incomplete"
      "Native handoff proof could not be reconciled after restart")

/-- Adopt the evidence of an uncertain handoff. -/
def recoverUncertain (jobId : String) : Option AuthoritativeHandoffResolution → Prog Unit
  | some ⟨.rejectedBeforeHandoff, _, _⟩ => releaseUncertainCloudHandoffForRetry [] jobId
  | some ⟨.accepted, _, _⟩ => update (·.finalizeUncertainCloudHandoffRecovery jobId)
  | _ => return ()

def recoverHandoff (W : Worker) (connectorId : String) (observedAt : DateTime)
    (authoritative : List (String × RouteReservation)) (job : LocalJob) : Prog Unit := do
  if job.routeConnectorId ≠ some connectorId then return ()
  else
    let proof ← read (·.cloudRouteProof job.jobId)
    let resolution ← evidenceOf W connectorId observedAt authoritative job.jobId proof
    if job.state = .known .deliveryUncertain then recoverUncertain job.jobId resolution
    else recoverSpoolIntent job.jobId resolution

/-- Does the queue still hold the job a reservation was prepared for? -/
def durable (intents : List (String × CloudAcceptIntent)) (jobId : String)
    (reservation : RouteReservation) : LocalState → Bool
  | .cloudAcceptPending => intents.any fun entry => entry.1 == jobId &&
      reservation.matchesCloudProof entry.2.proof.reservationId entry.2.proof.generation
        entry.2.proof.fencingToken
  | .known state => state ∈ [.queuedLocal, .preparing, .rendering, .spoolIntent,
      .acceptedBySpooler, .spooling, .printing, .blocked, .deliveryUncertain]

def settleReservation (W : Worker) (connectorId : String)
    (intents : List (String × CloudAcceptIntent)) (entry : String × RouteReservation) :
    Prog Unit := do
  let job ← read (·.getJob entry.1)
  match job.filter (·.cloudManaged) with
  | some job =>
    if durable intents entry.1 entry.2 job.state then
      match job.routeConnectorId with
      | some owner =>
        if owner ≠ connectorId then
          throw (.coordinator ["cloud job has a conflicting persisted route connector owner"])
        else return ()
      | none => update (·.backfillCloudRouteOwner entry.1 connectorId)
    else orFail (finish W connectorId entry.1 entry.2 .rejectedBeforeHandoff)
  | none => orFail (finish W connectorId entry.1 entry.2 .rejectedBeforeHandoff)

def adoptOwner (connectorId : String) (job : LocalJob) : Prog Unit := do
  let authoritative ← consult
    (fun c => c.document.authoritativeReservationsForConnector connectorId) []
  if (authoritative.filter fun entry => entry.1 == job.jobId).length = 1 then
    update (·.backfillCloudRouteOwner job.jobId connectorId)
  else return ()

def reconcileAuthoritativeRouteState (W : Worker) (connectorId : String) : Prog Unit := do
  let observedAt ← clock
  let authoritative ← consult
    (fun c => c.document.authoritativeReservationsForConnector connectorId) []
  let candidates ← readFallible .plain (·.cloudHandoffRecoveryCandidates)
  Process.each candidates (recoverHandoff W connectorId observedAt authoritative)
  let intents ← read (·.pendingCloudAccepts)
  Process.each authoritative (settleReservation W connectorId intents)
  let ownerless ← readFallible .plain (·.cloudJobsMissingRouteOwner)
  Process.each ownerless (adoptOwner connectorId)

/-! ### Local routes -/

/-- The states of a local job whose fence means that a handoff may have
happened. -/
def doubtful : List LocalState :=
  [.known .spoolIntent, .known .deliveryUncertain, .known .failedRetryable,
    .known .failedTerminal]

/-- A fence without evidence on a job that may have been handed over becomes an
ambiguity. -/
def journalActiveReservation (W : Worker) (connectorId : String)
    (entry : String × RouteReservation) : Prog Unit := do
  let alreadyJournaled ← consult
    (fun c => c.document.hasHandoffForReservation connectorId entry.1 entry.2) true
  let job ← read (·.getJob entry.1)
  if !alreadyJournaled && job.any (fun job => !job.cloudManaged && job.state ∈ doubtful) then
    orFail (finish W connectorId entry.1 entry.2 .ambiguous)
  else return ()

/-- The last evidence of every job. -/
def latestByJob (handoffs : List LocalHandoffEvidence) :
    SortedMap String LocalHandoffEvidence :=
  handoffs.foldl (fun latest handoff => latest.insert handoff.jobId handoff) .empty

/-- Adopt the evidence of a local spool intent. -/
def projectSpoolIntent (jobId : String) (handoff : LocalHandoffEvidence) : Prog Unit :=
  let eventAt := handoff.observedAt.timestampMillis
  match handoff.outcome, handoff.nativeJobId with
  | .accepted, some nativeJobId =>
    update (·.recordNativeAcceptance jobId nativeJobId
      (eventAt + Engine.reconciliationIntervalMs) (eventAt + Engine.uncertaintyAfterMs))
  | .rejectedBeforeHandoff, _ =>
    update (·.recordLocalRetryableFailure jobId "native_rejected_before_handoff_recovered"
      "Recovered a native rejection committed before the local queue update"
      (eventAt + Engine.localRetryDelayMs))
  | _, _ => update (·.recordLocalHandoffUncertainty jobId)

/-- Adopt the last evidence of a job; the job and the ambiguity its commit
would be about. -/
def projectHandoff (entry : String × LocalHandoffEvidence) :
    Prog (Option (String × String)) := do
  let job ← read (·.getJob entry.1)
  match job.filter (!·.cloudManaged) with
  -- missing queue truth cannot justify discarding coordinator evidence
  | none => return none
  | some job =>
    if job.state = .known .spoolIntent then do
      projectSpoolIntent entry.1 entry.2
      return some (entry.1, entry.2.ambiguityId)
    else return some (entry.1, entry.2.ambiguityId)

/-- The committed outcome of a job. -/
def localHandoffCommit (entry : String × String) : Prog (Option LocalHandoffCommit) := do
  let job ← read (·.getJob entry.1)
  match job with
  | none => return none
  | some job =>
    let resolution ← read (·.localHandoffResolution entry.1 entry.2)
    return some
      { jobId := entry.1
        state := job.state.text
        nativeJobId := job.nativeJobId
        ambiguityConfirmed := resolution = some .confirmAccepted }

def reconcileLocalRouteState (W : Worker) (connectorId : String) : Prog Unit := do
  let reservations ← consult
    (fun c => c.document.localReservationsForConnector connectorId) []
  Process.each reservations (journalActiveReservation W connectorId)
  let handoffs ← consult
    (fun c => c.document.localHandoffsForConnector W.enc connectorId) []
  let commitJobs ← Process.gather projectHandoff (latestByJob handoffs).entries []
  let commits ← Process.gather localHandoffCommit commitJobs []
  let _ ← orFail (coordinate .plain fun i c =>
    c.compactLocalTerminalHandoffs connectorId commits i.first)

/-! ### Starting, and the operator's decisions -/

/-- What the process does before it serves. -/
def startup (W : Worker) : Prog Unit := do
  openCoordinator W
  if W.ownsLocal then
    reconcileLocalRouteState W localConnector
    reconcileAuthoritativeRouteState W W.authority
  else reconcileAuthoritativeRouteState W W.authority

/-- A decision about a local ambiguity that was made before is repeated only
as itself. -/
def resolveLocalQueue (jobId ambiguityId : String) (resolution : LocalHandoffResolution)
    (now : Int) : Prog Unit := do
  let existing ← read (·.localHandoffResolution jobId ambiguityId)
  match existing with
  | some previous =>
    if previous = resolution then return ()
    else throw (.storage (.invalidLocalEvent
      ("local ambiguity " ++ ambiguityId ++ " was already resolved differently")))
  | none =>
    match resolution with
    | .releaseForRetry =>
      write .plain [.released jobId] fun store =>
        (store.releaseUncertainLocalHandoffForRetry jobId ambiguityId
          (now + Engine.localRetryDelayMs)).map fun store => ((), store)
    | .confirmAccepted => update (·.confirmUncertainLocalHandoffAccepted jobId ambiguityId)

/-- The coordinator's side of a decision. -/
def coordinatorResolution : LocalHandoffResolution → AmbiguousHandoffResolution
  | .releaseForRetry => .releaseForRetry
  | .confirmAccepted => .confirmAccepted

/-- Resolve the ambiguity that the operator was shown. -/
def resolveLocalTarget (W : Worker) (jobId ambiguityId : String)
    (resolution : LocalHandoffResolution) : Prog Unit := do
  let target ← consult
    (fun c => c.document.localHandoffResolutionTarget W.enc localConnector jobId) none
  match target with
  | none => throw (.control "local_handoff_proof_missing"
      "local uncertainty has no exact durable route proof")
  | some target =>
    if target.ambiguityId ≠ ambiguityId then
      throw (.control "local_handoff_revision_conflict"
        "local uncertainty changed; refresh before resolving it")
    else
      orFail (resolveAmbiguousHandoff W
        ⟨localConnector, jobId, target.localRouteKey, target.reservationId, target.generation⟩
        (coordinatorResolution resolution))

def resolveLocalAmbiguousHandoffControl (W : Worker) (jobId ambiguityId : String)
    (resolution : LocalHandoffResolution) : Prog Unit := do
  let job ← read (·.getJob jobId)
  match job with
  | none => throw (.control "job_not_found" "local job was not found")
  | some job =>
    if job.cloudManaged then
      throw (.control "local_handoff_resolution_forbidden"
        "cloud-managed uncertainty must be resolved by its authenticated authority")
    else
      let existing ← read (·.localHandoffResolution jobId ambiguityId)
      if existing = some resolution then reconcileLocalRouteState W localConnector
      else if job.state ≠ .known .deliveryUncertain then
        throw (.control "local_handoff_not_uncertain"
          "local job has no unresolved delivery uncertainty")
      else
        resolveLocalTarget W jobId ambiguityId resolution
        let now ← clock
        resolveLocalQueue jobId ambiguityId resolution now.timestampMillis
        reconcileLocalRouteState W localConnector

end Reconcile

end Piqae
