/-
Piqae/Node/Program.lean

The node as programs over shared state: the two durable files (the queue of
`agent-storage` and the coordinator of `node-runtime`), the actions on them,
and the history of what reached the native spooler.

The files are written separately, so every statement of the queue and every
operation of the coordinator is one action; the engine's thread and the
synchronization with the control plane interleave between actions, and a crash
can fall between any two.  What an action cannot decide (does a write succeed,
what does the operating system answer, which identifier is drawn, what is the
time) is its `Input`.

An action carries a `Label` that says what its caller takes for granted:
`append_event` checks only the sequence number of an event, so the state that
the caller believes the job to be in is not part of the transaction.  It also
says whether the action begins a call of the queue or continues one.
-/
import Piqae.Lib.Process
import Piqae.Queue.Store
import Piqae.Route.Installation
import Piqae.Route.Query

namespace Piqae

/-! ### Offers -/

/-- A materialized offer of the control plane. -/
structure Offer where
  job : AcceptedJob
  leaseId : String
  leaseToken : String
  leaseExpiresUnixMs : Int
  reservation : CloudRouteReservation
  pinned : PinnedFacts
deriving DecidableEq, Repr

namespace Offer

/-- The route proof that is kept with the job. -/
def proof (offer : Offer) : CloudRouteProof where
  reservationId := offer.reservation.reservationId.text
  generation := offer.reservation.generation
  fencingToken := offer.reservation.fencingToken

def lease (offer : Offer) : AgentStore.CloudLease where
  leaseId := offer.leaseId
  leaseToken := offer.leaseToken
  leaseExpiresUnixMs := offer.leaseExpiresUnixMs
  proof := offer.proof

/-- The job as it is prepared. -/
def cloudJob (offer : Offer) : AcceptedJob := { offer.job with cloudManaged := true }

end Offer

/-! ### The history of native handoffs -/

/-- What happened, in order, as far as the native spooler is concerned. -/
inductive Milestone
  /-- A native submit call for the job began. -/
  | submitted (jobId : String)
  /-- It returned; `rejected` says that it failed before the handoff. -/
  | returned (jobId : String) (rejected : Bool)
  /-- The job was released for retry by its authority or by the operator. -/
  | released (jobId : String)
  /-- The process died, with every call it was in. -/
  | crashed
  /-- The queue recorded an event. -/
  | recorded (jobId : String) (state : JobState)
  /-- The queue accepted an offer, or knew it already. -/
  | prepared (offer : Offer)
  /-- The ledger recorded a command of the control plane as applied. -/
  | applied (command : AgentCommand)
deriving DecidableEq, Repr

/-! ### The native side -/

structure ExecutorFailure where
  code : String
  message : String
  retryable : Bool
  handoffMayHaveSucceeded : Bool
deriving DecidableEq, Repr

structure NativeAcceptance where
  nativeJobId : String
deriving DecidableEq, Repr

inductive NativeJobState
  | queued
  | printing
  | blocked
  | completed
  | failed
  | cancelled
  | missing
  | unknown
deriving DecidableEq, Repr

def NativeJobState.nativeStateName : NativeJobState → String
  | queued => "queued"
  | printing => "printing"
  | blocked => "blocked"
  | completed => "completed"
  | failed => "failed"
  | cancelled => "cancelled"
  | missing => "missing"
  | unknown => "unknown"

/-- Did a native call fail with the job certainly not handed off? -/
def rejectedBeforeHandoff {α : Type} : Except ExecutorFailure α → Bool
  | .ok _ => false
  | .error failure => !failure.handoffMayHaveSucceeded

/-! ### Shared state -/

structure Shared where
  store : AgentStore
  installation : Installation
  history : List Milestone

/-- Everything outside the control of one action. -/
structure Input where
  /-- Does the database execute the statement? -/
  database : Bool
  now : DateTime
  first : Fault
  second : Fault
  reservationId : Uuid
  fencingToken : Uuid
  installationNamespace : Uuid
  native : Except ExecutorFailure NativeAcceptance
  observation : Except ExecutorFailure NativeJobState
  cancellation : Except ExecutorFailure Unit
  /-- Is the pinned native binding still the one of this session? -/
  bindingCurrent : Bool
  /-- Decoding the pinned profile revision and reading its tables. -/
  profile : Except String Unit

inductive Label
  | plain
  /-- A later statement of a call of the queue. -/
  | within
  /-- The same, for a job that the caller takes to be in one of these states. -/
  | assumes (jobId : String) (basis : List LocalState)
  /-- `request_cancel` reads its job. -/
  | cancel (jobId : String)
  /-- A local fence, under an identifier drawn for it. -/
  | reserve
  /-- The acceptance of an offer whose route was registered before. -/
  | prepare (offer : Offer)

/-- Does an action continue the call that the one before it belongs to? -/
def Label.continues : Label → Bool
  | within | assumes _ _ => true
  | plain | cancel _ | reserve | prepare _ => false

inductive NodeError
  | storage (error : StorageError)
  | invalidState
  | invalidTransition (source target : JobState)
  | invalidNativeProfile (message : String)
  | coordinator (messages : List String)
  | control (code message : String)
  | worker (code : String)
deriving DecidableEq, Repr

abbrev Prog := Process Label Input Shared NodeError

/-- The worker of one authority: the encoders of the installation, the
connector of its authority, whether it also runs the local queue, the check of
print options and the digest of a command. -/
structure Worker where
  enc : Encoders
  authority : String
  ownsLocal : Bool
  optionsValid : String → Bool
  commandKey : AgentCommand → String

/-- The connector under which local work is fenced. -/
def localConnector : String := "local"

/-- The connector of the executor, for jobs without a route owner. -/
def Worker.connectorId (W : Worker) : String := if W.ownsLocal then localConnector else W.authority

namespace Shared

variable (s : Shared)

/-- Note milestones. -/
def log (milestones : List Milestone) : Shared := { s with history := s.history ++ milestones }

/-- Replace the queue, noting the events that were recorded. -/
def putStore (store : AgentStore) : Shared :=
  log { s with store := store } ((store.events.drop s.store.events.length).map
    fun event : JobEvent => .recorded event.jobId event.state)

end Shared

/-! ### Actions on the queue -/

namespace Prog

def throw {α : Type} (error : NodeError) : Prog α := .fail error

/-- The clock. -/
def clock : Prog DateTime := .atomic .plain fun i s => (i.now, s)

/-- One statement that only reads. -/
def readFallible {α : Type} (label : Label) (f : AgentStore → Except StorageError α) : Prog α :=
  .fallible label fun i s =>
    if i.database then ((f s.store).mapError .storage, s) else (.error (.storage .database), s)

def readAt {α : Type} (label : Label) (f : AgentStore → α) : Prog α :=
  readFallible label fun store => .ok (f store)

def read {α : Type} (f : AgentStore → α) : Prog α := readAt .plain f

/-- One statement or transaction that writes, with the milestones its success
stands for. -/
def write {α : Type} (label : Label) (milestones : List Milestone)
    (f : AgentStore → Except StorageError (α × AgentStore)) : Prog α :=
  .fallible label fun i s =>
    if i.database then
      match f s.store with
      | .ok (value, store) => (.ok value, (s.putStore store).log milestones)
      | .error error => (.error (.storage error), s)
    else (.error (.storage .database), s)

/-- A transaction that returns nothing. -/
def update (f : AgentStore → Except StorageError AgentStore) : Prog Unit :=
  write .plain [] fun store => (f store).map fun store => ((), store)

/-- `append_next_event`: the sequence is read, then the event appended.  `first`
is the label of the reading statement. -/
def appendNextEvent (first : Label) (jobId : String) (basis : List LocalState) (state : JobState)
    (reason message : Option String) : Prog Unit := do
  let sequence ← readAt first (·.nextSequence jobId)
  write (.assumes jobId basis) [] fun store =>
    (store.appendEvent jobId sequence state reason message).map fun store => ((), store)

/-- The caller answers a failure with a code of its own. -/
def orCode {α : Type} (code : String) (p : Prog α) : Prog α := do
  match ← p.attempt with
  | .ok value => return value
  | .error _ => throw (.worker code)

/-! ### Actions on the coordinator -/

/-- One operation of the live coordinator. -/
def coordinate {α : Type} (label : Label)
    (f : Input → RouteCoordinator → Fallible α × RouteCoordinator) : Prog (Fallible α) :=
  .atomic label fun i s =>
    match s.installation with
    | .stopped _ => (bail "route coordinator is not open", s)
    | .running c => ((f i c).1, { s with installation := .running (f i c).2 })

/-- A question to the live coordinator. -/
def consult {α : Type} (f : RouteCoordinator → α) (stopped : α) : Prog α :=
  .atomic .plain fun _ s =>
    match s.installation with
    | .stopped _ => (stopped, s)
    | .running c => (f c, s)

/-- The caller passes a coordinator's error on. -/
def orFail {α : Type} (p : Prog (Fallible α)) : Prog α := do
  match ← p with
  | .ok value => return value
  | .error messages => throw (.coordinator messages)

/-- `RouteCoordinator::open`. -/
def openCoordinator (W : Worker) : Prog Unit :=
  .fallible .plain fun i s =>
    let opened := s.installation.start W.enc i.installationNamespace i.first.persist
    (opened.1.mapError .coordinator, { s with installation := opened.2 })

/-- The resolution of an ambiguity.  A release counts as soon as it has reached
the journal, even when the caller is told otherwise. -/
def resolveAmbiguousHandoff (W : Worker) (identity : HandoffIdentity)
    (resolution : AmbiguousHandoffResolution) : Prog (Fallible Unit) :=
  .atomic .plain fun i s =>
    match s.installation with
    | .stopped _ => (bail "route coordinator is not open", s)
    | .running c =>
      let resolved := c.resolveAmbiguousHandoff W.enc identity resolution i.first
      let effective := (match resolved.1 with | .ok _ => true | .error _ => false)
        || resolved.2.journal ≠ c.journal
      (resolved.1, ({ s with installation := .running resolved.2 } : Shared).log
        (if effective && resolution = .releaseForRetry then [.released identity.jobId] else []))

end Prog

end Piqae
