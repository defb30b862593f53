/-
Piqae/Node/Engine.lean

The engine's thread (`agent-core/src/lib.rs`) and its executor, which fences
the route around the native call (`SharedRuntimeExecutor` of the agent).

`transition` validates against the state its caller remembers and then appends
the event; the label of the append says which state that is.
-/
import Piqae.Node.Program

namespace Piqae

namespace Engine

open Prog

def reconciliationIntervalMs : Int := 2000

def uncertaintyAfterMs : Int := 10 * 60 * 1000

def localRetryDelayMs : Int := 2000

def transition (jobId : String) (source : LocalState) (target : JobState)
    (reason : Option String) (message : String) : Prog Unit :=
  match source with
  | .cloudAcceptPending => throw .invalidState
  | .known state =>
    match validateTransition state target with
    | .error _ => throw (.invalidTransition state target)
    | .ok () => appendNextEvent .plain jobId [source] target reason (some message)

def transitionIfNeeded (job : LocalJob) (target : JobState) (reason : Option String)
    (message : String) : Prog Unit :=
  if job.state = .known target then return ()
  else transition job.jobId job.state target reason message

/-! ### The executor -/

def routeOwner (W : Worker) (job : LocalJob) : String :=
  job.routeConnectorId.getD W.connectorId

/-- The outermost message of an error chain. -/
def errorText (messages : List String) : String := messages.head?.getD ""

def reserveFailure (messages : List String) : ExecutorFailure :=
  let crossed := decide ("already crossed".toList <:+: (errorText messages).toList)
  { code := if crossed then "native_handoff_already_recorded" else "route_reserved"
    message := errorText messages
    retryable := !crossed
    handoffMayHaveSucceeded := crossed }

/-- The evidence a native result is journaled as. -/
def handoffOutcome : Except ExecutorFailure NativeAcceptance →
    NativeHandoffOutcome × Option String
  | .ok acceptance => (.accepted, some acceptance.nativeJobId)
  | .error failure =>
    (if failure.handoffMayHaveSucceeded then .ambiguous else .rejectedBeforeHandoff, none)

/-- The native call: it begins, and it returns. -/
def nativeSubmit (jobId : String) : Prog (Except ExecutorFailure NativeAcceptance) := do
  Process.atomic .plain fun _ s => ((), s.log [.submitted jobId])
  Process.atomic .plain fun i s =>
    (i.native, s.log [.returned jobId (rejectedBeforeHandoff i.native)])

def bindingStale : ExecutorFailure where
  code := "printer_native_binding_stale"
  message := "the durable printer-native binding is no longer current"
  retryable := false
  handoffMayHaveSucceeded := false

def staleRouteFence (messages : List String) : ExecutorFailure where
  code := "stale_route_fence"
  message := errorText messages
  retryable := true
  handoffMayHaveSucceeded := false

/-- The outcome of the call could not be journaled. -/
def persistenceFailed (result : Except ExecutorFailure NativeAcceptance)
    (messages : List String) : ExecutorFailure where
  code := "route_fence_persistence_failed"
  message := errorText messages
  retryable := false
  handoffMayHaveSucceeded := !rejectedBeforeHandoff result

/-- Submit under a fence: validate it, call, and journal the outcome. -/
def submitFenced (W : Worker) (job : LocalJob) (connectorId : String)
    (reservation : RouteReservation) : Prog (Except ExecutorFailure NativeAcceptance) := do
  match ← consult (·.validate reservation) (bail "route coordinator is not open") with
  | .error messages => return .error (staleRouteFence messages)
  | .ok () =>
    let result ← nativeSubmit job.jobId
    match ← coordinate .plain fun i c =>
        c.finishRuntime W.enc connectorId job.jobId reservation (handoffOutcome result).1
          (handoffOutcome result).2 i.now i.first i.second with
    | .error messages => return .error (persistenceFailed result messages)
    | .ok () => return result

def submit (W : Worker) (job : LocalJob) : Prog (Except ExecutorFailure NativeAcceptance) := do
  let bindingCurrent ← Process.atomic .plain fun i s => (i.bindingCurrent, s)
  if job.accepted.contentKind = .raw
      ∧ ¬(job.pinned.printerNativeBinding.isSome ∧ bindingCurrent) then
    return .error bindingStale
  else
    match ← coordinate .reserve fun i c =>
        c.reserve W.enc (routeOwner W job) job.accepted.printerNativeId job.jobId
          i.now.timestampMillis i.reservationId i.fencingToken i.first with
    | .error messages => return .error (reserveFailure messages)
    | .ok reservation => submitFenced W job (routeOwner W job) reservation

/-! ### One job -/

def beginExecution (job : LocalJob) : Prog Unit :=
  match job.state with
  | .cloudAcceptPending => throw .invalidState
  | .known state =>
    if state = .failedRetryable then
      if job.cloudManaged then throw (.invalidTransition .failedRetryable .preparing)
      else do
        transition job.jobId job.state .queuedLocal (some "local_retry")
          "Retrying locally queued job after a pre-handoff failure"
        transition job.jobId (.known .queuedLocal) .preparing none "Validating local job"
    else transition job.jobId (.known state) .preparing none "Validating local job"

/-- From validation to the durable intent to hand the job over. -/
def persistIntent (job : LocalJob) : Prog Unit := do
  match job.accepted.contentKind with
  | .pdf =>
    transition job.jobId (.known .preparing) .rendering none "Preparing PDF for native submission"
    transition job.jobId (.known .rendering) .spoolIntent none "Persisted native spool intent"
  | .raw =>
    transition job.jobId (.known .preparing) .spoolIntent none "Persisted native spool intent"

/-- Resolve the pinned profile. -/
def nativeProfileForJob (job : LocalJob) : Prog Unit := do
  let profile ← Process.atomic .plain fun i s => (i.profile, s)
  match job.pinned.profileId, job.pinned.profileRevision with
  | none, none => return ()
  | some _, some _ =>
    if job.pinned.profileSnapshotJson.isNone ∧ job.cloudManaged then
      throw (.invalidNativeProfile
        ("job " ++ job.jobId ++ " is missing its durable profile snapshot"))
    else
      match profile with
      | .ok () => return ()
      | .error message => throw (.invalidNativeProfile message)
  | _, _ => throw (.invalidNativeProfile
      ("job " ++ job.jobId ++ " has an incomplete profile revision pin"))

/-- Count a failure of the executor in the settings. -/
def recordExecutorFailure : Prog Unit := update .ok

/-- The state and reason a failed submission leads to. -/
def failureState (failure : ExecutorFailure) : JobState × String :=
  if failure.handoffMayHaveSucceeded then (.deliveryUncertain, "ambiguous_handoff")
  else if failure.retryable then (.failedRetryable, failure.code)
  else (.failedTerminal, failure.code)

def recordSubmission (job : LocalJob) :
    Except ExecutorFailure NativeAcceptance → Prog Unit
  | .ok acceptance => do
    let now ← clock
    update (·.recordNativeAcceptance job.jobId acceptance.nativeJobId
      (now.timestampMillis + reconciliationIntervalMs) (now.timestampMillis + uncertaintyAfterMs))
  | .error failure => do
    recordExecutorFailure
    if failure.retryable ∧ ¬failure.handoffMayHaveSucceeded ∧ ¬job.cloudManaged then
      let now ← clock
      update (·.recordLocalRetryableFailure job.jobId (failureState failure).2 failure.message
        (now.timestampMillis + localRetryDelayMs))
    else
      transition job.jobId (.known .spoolIntent) (failureState failure).1
        (some (failureState failure).2) failure.message

def executeJob (W : Worker) (job : LocalJob) : Prog Unit := do
  beginExecution job
  if W.optionsValid job.accepted.optionsJson then
    persistIntent job
    nativeProfileForJob job
    let result ← submit W job
    recordSubmission job result
  else
    transition job.jobId (.known .preparing) .failedTerminal (some "invalid_print_options")
      "Print options failed local safety validation before native handoff"

/-! ### Native jobs -/

def markUncertain (job : LocalJob) (message : String) : Prog Unit := do
  transitionIfNeeded job .deliveryUncertain (some "ambiguous_handoff") message
  update fun store => .ok (store.finishReconciliation job.jobId)

def recordAttempt (job : LocalJob) (nativeState : String) (errorCode : Option String)
    (now : Int) : Prog Unit :=
  update (·.recordReconciliationAttempt job.jobId nativeState errorCode
    (now + reconciliationIntervalMs))

/-- A final state of the native job. -/
def conclude (job : LocalJob) (target : JobState) (reason : Option String) (message : String) :
    Prog Unit := do
  transitionIfNeeded job target reason message
  update fun store => .ok (store.finishReconciliation job.jobId)

def reconcileCancellation (item : AgentStore.ReconciliationItem) (now : Int) : Prog Unit := do
  let cancellation ← Process.atomic .plain fun i s => (i.cancellation, s)
  match cancellation with
  | .ok () =>
    recordAttempt item.job "cancelled" none now
    transition item.job.jobId item.job.state .cancelled (some "cancelled_by_user")
      "Operating system accepted cancellation"
    update fun store => .ok (store.finishReconciliation item.job.jobId)
  | .error failure =>
    recordAttempt item.job "cancel_failed" (some failure.code) now
    if item.uncertaintyDeadlineUnixMs ≤ now then
      markUncertain item.job "Cancellation outcome could not be proved"
    else return ()

def applyNativeObservation (item : AgentStore.ReconciliationItem) (observed : NativeJobState)
    (now : Int) : Prog Unit := do
  recordAttempt item.job observed.nativeStateName none now
  match observed with
  | .queued =>
    if item.job.state = .known .acceptedBySpooler ∨ item.job.state = .known .blocked then
      transitionIfNeeded item.job .spooling none "Native spooler reports the job queued"
    else return ()
  | .printing =>
    if item.job.state = .known .acceptedBySpooler ∨ item.job.state = .known .spooling
        ∨ item.job.state = .known .blocked then
      transitionIfNeeded item.job .printing none "Native spooler reports the job printing"
    else return ()
  | .blocked =>
    transitionIfNeeded item.job .blocked (some "driver_error")
      "Native spooler reports the job blocked"
  | .completed =>
    conclude item.job .completedReported none
      "Operating system spooler reported completion; physical output is not proven"
  | .failed =>
    conclude item.job .failedTerminal (some "driver_error")
      "Native spooler reported terminal failure"
  | .cancelled =>
    conclude item.job .cancelled none "Native spooler reported cancellation"
  | .missing | .unknown =>
    if item.uncertaintyDeadlineUnixMs ≤ now then
      markUncertain item.job "Native spooler could not prove the final job outcome"
    else return ()

def reconcileItem (now : Int) (item : AgentStore.ReconciliationItem) : Prog Unit := do
  if item.job.nativeJobId.isNone then
    markUncertain item.job "Native reconciliation schedule has no spooler identifier"
  else if item.cancelRequested ∨ item.job.state = .known .cancelRequested then
    reconcileCancellation item now
  else
    let observation ← Process.atomic .plain fun i s => (i.observation, s)
    match observation with
    | .ok observed => applyNativeObservation item observed now
    | .error failure =>
      recordAttempt item.job "observation_error" (some failure.code) now
      if item.uncertaintyDeadlineUnixMs ≤ now then
        markUncertain item.job "Native job could not be observed before the uncertainty deadline"
      else return ()

/-! ### One round -/

/-- The states `expire_waiting` selects. -/
def expirable : List LocalState := [.known .queuedLocal, .known .failedRetryable]

def expireWaiting (now : Int) : Prog Unit := do
  let jobIds ← read (·.expiredWaiting now)
  Process.each jobIds fun jobId =>
    appendNextEvent .within jobId expirable .expired (some "expired_before_handoff")
      (some "Job expired before native submission")

def reconcileDue : Prog Unit := do
  let now ← clock
  let items ← read (·.dueReconciliations now.timestampMillis 32)
  Process.each items (reconcileItem now.timestampMillis)

def runOnce (W : Worker) : Prog Unit := do
  let now ← clock
  expireWaiting now.timestampMillis
  let jobs ← read (·.runnableHeads now.timestampMillis)
  Process.each jobs (executeJob W)
  reconcileDue

end Engine

end Piqae
