/-
Piqae/Node/Machine.lean

The node as a machine: the engine's thread and the synchronization with the
control plane over the shared files, crashes and restarts, and the rest of the
process (discovery and the other connectors), which shares the coordinator.

A crash loses the live coordinator and both threads and keeps the files.  The
threads take their actions in any order once the process serves; before that
the start-up reconciliation runs alone.  A cycle of the synchronization may be
abandoned after any action (its lease is lost while it runs).
-/
import Piqae.Node.Reconcile

namespace Piqae

/-! ### Synchronization -/

namespace Sync

open Prog

/-- The durable part of the acceptance of an offer. -/
def prepareDurably (W : Worker) (offer : Offer) : Prog Unit := do
  let bindingCurrent ← Process.atomic .plain fun i s => (i.bindingCurrent, s)
  if offer.job.contentKind = .raw
      ∧ ¬(offer.pinned.printerNativeBinding.isSome ∧ bindingCurrent) then
    throw (.worker "printer_native_binding_stale")
  else
    let inserted ← write (.prepare offer) [.prepared offer] fun store =>
      (store.prepareCloudJobWithFacts offer.cloudJob offer.lease
        ⟨offer.pinned, some W.authority⟩).map fun prepared =>
          ((store.getJob offer.job.jobId).isNone, prepared)
    -- the row of a new job is read back after the commit
    if inserted then
      let _ ← readAt .within (·.getJob offer.job.jobId)
    else return ()

/-- Give the fence of a failed preparation back, unless the intent is durable
or the fence was there before. -/
def compensate (W : Worker) (offer : Offer) (registration : AuthoritativeRouteRegistration)
    (error : NodeError) : Prog Unit := do
  let intents ← read (·.pendingCloudAccepts)
  if registration.newlyRegistered ∧
      ¬intents.any (fun entry => entry.1 == offer.job.jobId && entry.2.proof == offer.proof) then
    match ← Reconcile.finish W W.authority offer.job.jobId registration.reservation
        .rejectedBeforeHandoff with
    | .ok () => throw error
    | .error _ => throw (.worker "route_reservation_compensation_failed")
  else throw error

/-- Register the route of an offer, then accept the offer. -/
def prepare (W : Worker) (offer : Offer) : Prog Unit := do
  match ← coordinate .plain fun i c =>
      c.registerAuthoritative W.enc W.authority offer.job.printerNativeId offer.job.jobId
        offer.reservation i.now i.first with
  | .error _ => throw (.worker "route_reservation_failed")
  | .ok registration =>
    match ← (prepareDurably W offer).attempt with
    | .ok () => return ()
    | .error error => compensate W offer registration error

/-- `cancel_before_handoff`.  `first` is the label of the statement that reads
the job. -/
def cancelBeforeHandoff (first : Label) (jobId : String) : Prog Unit := do
  let job ← readAt first (·.getJob jobId)
  match job with
  | none => throw (.storage (.jobNotFound jobId))
  | some job =>
    if job.state ∈ Engine.expirable then do
      appendNextEvent .within jobId [job.state] .cancelRequested (some "cancelled_by_server")
        (some "Cancellation requested by control plane")
      appendNextEvent .within jobId [.known .cancelRequested] .cancelled
        (some "cancelled_by_server") (some "Cancelled before native handoff")
    else return ()

/-- The states after the native handoff in which a job can be cancelled. -/
def handedOver : List LocalState :=
  [.known .acceptedBySpooler, .known .spooling, .known .printing, .known .blocked]

def requestCancel (jobId : String) (observedUnixMs : Int) : Prog Unit := do
  let job ← readAt (.cancel jobId) (·.getJob jobId)
  match job with
  | none => throw (.storage (.jobNotFound jobId))
  | some job =>
    if job.state ∈ Engine.expirable then
      cancelBeforeHandoff (.assumes jobId Engine.expirable) jobId
    -- every other state, a pending acceptance among them, is left as it is
    else if job.state ∈ handedOver then do
      appendNextEvent .within jobId [job.state] .cancelRequested (some "cancelled_by_server")
        (some "Cancellation requested after native handoff")
      write .within [] fun store => .ok ((), store.scheduleCancel jobId observedUnixMs)
    else return ()

/-- The authority's resolution of an ambiguity: the coordinator first, then the
queue. -/
def resolveAmbiguousHandoff (W : Worker) (jobId localRouteKey : String) (reservationId : Uuid)
    (generation : Nat) (resolution : AmbiguousHandoffResolution) : Prog Unit := do
  orFail (Prog.resolveAmbiguousHandoff W
    ⟨W.authority, jobId, localRouteKey, reservationId, generation⟩ resolution)
  match resolution with
  | .releaseForRetry => Reconcile.releaseUncertainCloudHandoffForRetry [.released jobId] jobId
  | .confirmAccepted => update (·.finalizeUncertainCloudHandoffRecovery jobId)

def setSettings (milestones : List Milestone) (f : QueueSettings → QueueSettings) : Prog Unit :=
  write .plain milestones fun store => .ok ((), { store with settings := f store.settings })

/-- `apply_command`, and the resolution of an ambiguity beside it. -/
def applyCommand (W : Worker) : AgentCommand → Prog Unit
  | .pause => setSettings [] ({ · with paused := true })
  | .resume => setSettings [] ({ · with paused := false })
  | .cancelJob jobId => do
    let now ← clock
    requestCancel jobId now.timestampMillis
  | .refreshPrinters => return ()
  | .updateAvailable _ _ _ => return ()
  -- the report goes to a setting that nothing here reads
  | .collectDiagnostics _ => setSettings [] id
  | .resolveAmbiguousHandoff jobId localRouteKey reservationId generation resolution =>
    resolveAmbiguousHandoff W jobId localRouteKey reservationId generation resolution

/-- The code with which a command that failed is put off. -/
def retryCode : NodeError → String
  | .storage (.jobNotFound _) => "local_job_absent_unproved"
  | _ => "command_apply_retry"

def persistLedger (milestones : List Milestone) (ledger : CommandRecoveryLedger) : Prog Unit :=
  setSettings milestones ({ · with commandRecovery := ledger })

/-- What a command that was tried leaves in the ledger, and what that stands
for. -/
def recordResult (ledger : CommandRecoveryLedger) (key : String) (now : Int)
    (command : AgentCommand) : Except NodeError Unit → CommandRecoveryLedger × List Milestone
  | .ok () => (ledger.recordApplied key, [.applied command])
  | .error error => (ledger.recordRetry key now (retryCode error), [])

/-- Apply the commands of a batch that are due. -/
def applyDue (W : Worker) (now : Int) :
    List AgentCommand → CommandRecoveryLedger → Prog CommandRecoveryLedger
  | [], ledger => .done ledger
  | command :: commands, ledger =>
    let key := W.commandKey command
    if ledger.isApplied key || !ledger.isDue key now then applyDue W now commands ledger
    else
      (applyCommand W command).attempt.bind fun result =>
        let recorded := recordResult ledger key now command result
        (orCode "command_recovery_persist_failed" (persistLedger recorded.2 recorded.1)).bind
          fun _ => applyDue W now commands recorded.1

def applyCommands (W : Worker) (commands : List AgentCommand) (commandCursor : Option String) :
    Prog Unit := do
  let now ← clock
  let stored ← orCode "command_recovery_load_failed" (read (·.settings.commandRecovery))
  match stored.load with
  | .error _ => throw (.worker "command_recovery_load_failed")
  | .ok loaded =>
    let ledger ← applyDue W now.timestampMillis commands
      (loaded.retainBatch (commands.map W.commandKey))
    if ledger.complete then
      match commandCursor with
      | some cursor =>
        orCode "command_cursor_failed" (setSettings [] ({ · with commandCursor := some cursor }))
      | none => pure ()
      orCode "command_recovery_clear_failed" (persistLedger [] .empty)
    else return ()

end Sync

/-- One piece of work of the synchronization. -/
inductive Order
  | prepare (offer : Offer)
  | confirm (jobId : String)
  | activate (jobId : String)
  | abandon (jobId : String)
  | quarantine (jobId : String)
  | quarantineInvalid
  | apply (commands : List AgentCommand) (commandCursor : Option String)
  | acknowledge (throughSequence : Nat)

def Order.program (W : Worker) : Order → Prog Unit
  | prepare offer => Sync.prepare W offer
  | confirm jobId => Prog.update (·.confirmCloudAccept jobId)
  | activate jobId => Prog.update (·.activateCloudJob jobId)
  | abandon jobId => Prog.update (·.abandonCloudAccept jobId)
  | quarantine jobId => Prog.update fun store => .ok (store.quarantinePreparedCloudAccept jobId)
  | quarantineInvalid => Prog.update fun store => .ok store.quarantineInvalidCloudAccepts
  | apply commands commandCursor => Sync.applyCommands W commands commandCursor
  | acknowledge throughSequence =>
    Prog.orFail (Prog.coordinate .plain fun i c =>
      c.acknowledgeHandoffs W.authority throughSequence i.first)

/-! ### The engine's thread -/

/-- One piece of work of the engine's thread. -/
inductive Work
  | tick
  | accept (job : AcceptedJob) (pinned : PinnedFacts)
  | resolveLocal (jobId ambiguityId : String) (resolution : LocalHandoffResolution)

namespace Work

open Prog

/-- One round of the scheduler: run what is runnable, then project the local
evidence.  Errors are logged. -/
def scheduler (W : Worker) : Prog Unit := do
  let poisoned ← consult (·.poisoned) true
  if poisoned then return ()
  else
    let _ ← (Engine.runOnce W).attempt
    if W.ownsLocal then
      let _ ← (Reconcile.reconcileLocalRouteState W localConnector).attempt
    else return ()

/-- Accept a local job and run it. -/
def acceptLocal (W : Worker) (job : AcceptedJob) (pinned : PinnedFacts) : Prog Unit := do
  let bindingCurrent ← Process.atomic .plain fun i s => (i.bindingCurrent, s)
  if pinned.printerNativeBinding.isSome ∧ ¬bindingCurrent then
    throw (.control "printer_native_binding_stale"
      "the selected printer-native language binding changed before local acceptance")
  else
    update (·.acceptJobWithFacts { job with cloudManaged := false } ⟨pinned, none⟩)
    Engine.runOnce W

/-- The local queue takes jobs and decisions only in the worker that owns it. -/
def program (W : Worker) : Work → Prog Unit
  | tick => scheduler W
  | accept job pinned => if W.ownsLocal then acceptLocal W job pinned else return ()
  | resolveLocal jobId ambiguityId resolution =>
    if W.ownsLocal then
      Reconcile.resolveLocalAmbiguousHandoffControl W jobId ambiguityId resolution
    else return ()

end Work

/-! ### The machine -/

structure Node where
  shared : Shared
  engine : Prog Unit
  sync : Prog Unit
  /-- Start-up is over. -/
  serving : Bool

inductive NodeOp
  | crash
  /-- The engine's thread takes its next action. -/
  | engine (input : Input)
  | sync (input : Input)
  /-- Start-up has succeeded. -/
  | serve
  | work (work : Work)
  | order (order : Order)
  /-- The cycle of the synchronization is abandoned. -/
  | dropSync
  /-- Discovery, or another connector. -/
  | elsewhere (request : Request)

namespace Node

variable (W : Worker)

/-- A node before its first start. -/
def blank : Node :=
  ⟨⟨AgentStore.empty, .blank, []⟩, Reconcile.startup W, .done (), false⟩

/-- Does a thread have nothing left to do? -/
def idle (p : Prog Unit) : Bool := p.label?.isNone

/-- Has start-up succeeded? -/
def started : Prog Unit → Bool
  | .done _ => true
  | _ => false

def step (n : Node) : NodeOp → Node
  | .crash =>
    { shared := ({ n.shared with installation := .stopped n.shared.installation.journal } :
        Shared).log [.crashed]
      engine := Reconcile.startup W
      sync := .done ()
      serving := false }
  | .engine input =>
    { n with
      shared := (n.engine.advance input n.shared).2
      engine := (n.engine.advance input n.shared).1 }
  | .sync input =>
    { n with
      shared := (n.sync.advance input n.shared).2
      sync := (n.sync.advance input n.shared).1 }
  | .serve => if started n.engine then { n with serving := true } else n
  | .work work =>
    if n.serving && idle n.engine then { n with engine := work.program W } else n
  | .order order =>
    if n.serving && idle n.sync then { n with sync := order.program W } else n
  | .dropSync => { n with sync := .done () }
  | .elsewhere request =>
    { n with shared := { n.shared with
        installation := n.shared.installation.step W.enc (.call request) } }

/-- The state after a run. -/
def run (n : Node) (ops : List NodeOp) : Node := Run.exec (step W) n ops

end Node

end Piqae
