/-
Piqae/Server/Attempts.lean

Delivery attempts of the in-memory topology repository: beginning one under the
fence of its destination, moving it along, renewing its lease, the two-phase
resolution of an uncertain delivery, and the revocation of a node.

Fencing tokens and the clock are inputs; `digest` is the SHA-256 of a token,
which is all the tables keep of it.
-/
import Piqae.Server.Topology
import Piqae.Lib.Run

namespace Piqae.Server

structure NewDeliveryAttempt where
  attemptId : String
  reservationId : String
  jobId : String
  destinationId : String
  routeId : String
  leaseUntil : DateTime
deriving DecidableEq, Repr

structure StartedDeliveryAttempt where
  attempt : DeliveryAttempt
  reservation : RouteReservation
  fencingToken : String
deriving DecidableEq, Repr

namespace DeliveryAttempt

/-- The attempt in its next state. -/
def advance (attempt : DeliveryAttempt) (next : DeliveryAttemptState) (now : DateTime) :
    DeliveryAttempt :=
  { attempt with
    state := next, updatedAt := now, finalAt := if next.isFinal then some now else none }

/-- The attempt after a fenced transition, with the instant of a state that
records one. -/
def transition (attempt : DeliveryAttempt) (next : DeliveryAttemptState) (now : DateTime) :
    DeliveryAttempt :=
  { attempt with
    state := next
    updatedAt := now
    acceptedAt := if next = .acceptedByNode then some now else attempt.acceptedAt
    handoffStartedAt := if next = .handingToSpooler then some now else attempt.handoffStartedAt
    spoolerAcceptedAt := if next = .acceptedBySpooler then some now else attempt.spoolerAcceptedAt
    finalAt := if next.isFinal then some now
      else if next = .acceptedBySpooler then none else attempt.finalAt }

end DeliveryAttempt

namespace MemoryState

variable (s : MemoryState) (scope : TenantScope) (now : DateTime)

/-! ### Scans -/

/-- The latest attempt that satisfies `p`; among attempts of one generation the
hash map decides. -/
def latestAttempt (p : DeliveryAttempt → Bool) (choice : Key) : Option (Key × DeliveryAttempt) :=
  s.attempts.pick? (fun key attempt => key.scope == scope && p attempt &&
    s.attempts.entries.all fun e =>
      !(e.1.scope == scope && p e.2) || decide (e.2.generation ≤ attempt.generation)) choice

def isResolved (attemptId : String) : Bool :=
  s.uncertaintyResolutions.entries.any fun e => e.1.scope == scope && e.2.attemptId == attemptId

/-- The attempt may have printed, and nobody has decided what became of it. -/
def isUnresolved (attempt : DeliveryAttempt) : Bool :=
  attempt.state == .deliveryUncertain && !s.isResolved scope attempt.id

def hasUnresolvedDestinationUncertainty (destinationId : String) : Bool :=
  s.anyAttempt scope fun attempt =>
    attempt.destinationId == destinationId && s.isUnresolved scope attempt

/-! ### Reservations -/

/-- Close every active reservation of a tenant that satisfies `p`. -/
def closeReservations (p : RouteReservation → Bool) (state : ReservationState) : MemoryState :=
  { s with reservations := s.reservations.mapValues fun key reservation =>
      if key.scope == scope && p reservation && reservation.state == .active then
        { reservation with state := state, releasedAt := some now }
      else reservation }

/-- Close the active reservation of an attempt that the iteration meets first. -/
def closeReservation (choice : Key) (attemptId : String) (state : ReservationState) : MemoryState :=
  match s.reservations.pick? (fun key reservation =>
      key.scope == scope && reservation.attemptId == attemptId &&
        reservation.state == .active) choice with
  | none => s
  | some (key, _) =>
    { s with reservations := s.reservations.modify key fun reservation =>
        { reservation with state := state, releasedAt := some now } }

def putAttempt (key : Key) (f : DeliveryAttempt → DeliveryAttempt) : MemoryState :=
  { s with attempts := s.attempts.modify key f }

/-- Supersede the attempts of a tenant that satisfy `p`. -/
def supersedeAttempts (p : DeliveryAttempt → Bool) : MemoryState :=
  { s with attempts := s.attempts.mapValues fun key attempt =>
      if key.scope == scope && p attempt then attempt.advance .superseded now else attempt }

/-- Mark the destination of a delivery that became uncertain for attention. -/
def flagUncertain (next : DeliveryAttemptState) (destinationId : String) : MemoryState :=
  if next = .deliveryUncertain then
    { s with destinations := s.destinations.modify ⟨scope, destinationId⟩ fun destination =>
        { destination with state := "attention", updatedAt := now } }
  else s

/-! ### Beginning an attempt -/

def routeAdmits (request : NewDeliveryAttempt) : Bool :=
  match s.routes.get? ⟨scope, request.routeId⟩ with
  | none => false
  | some route =>
    route.destinationId == request.destinationId && route.enabled &&
      !s.revokedAgents.contains ⟨scope, route.agentId⟩

/-- A lease that ran out before its node accepted the job. -/
def isStale (destinationId : String) (attempt : DeliveryAttempt) : Bool :=
  attempt.destinationId == destinationId && attempt.state == .routeLeased &&
    decide (attempt.leaseUntil ≤ now)

def supersedeStale (destinationId : String) : MemoryState :=
  let staleAttemptIds := (s.attempts.entries.filter fun e =>
    e.1.scope == scope && isStale now destinationId e.2).map fun e => e.2.id
  (s.supersedeAttempts scope now (isStale now destinationId)).closeReservations scope now
    (fun reservation => staleAttemptIds.contains reservation.attemptId) .superseded

/-- Make room for a new attempt of the job: its open attempt must be a lease that
ran out, and a job whose delivery became uncertain gets no other. -/
def retireActive (choice reservationChoice : Key) (jobId : String) :
    Except StorageError MemoryState :=
  match s.attempts.pick? (fun key attempt =>
      key.scope == scope && attempt.jobId == jobId && !attempt.state.isFinal) choice with
  | some (key, active) =>
    if active.state ≠ .routeLeased || decide (now < active.leaseUntil) then
      .error .concurrentStateChange
    else
      .ok ((s.putAttempt key fun attempt => attempt.advance .superseded now).closeReservation
        scope now reservationChoice active.id .superseded)
  | none =>
    if s.anyAttempt scope fun attempt =>
        attempt.jobId == jobId && attempt.state == .deliveryUncertain then
      .error .concurrentStateChange
    else .ok s

def handoffBusy (request : NewDeliveryAttempt) : Bool :=
  s.anyReservation scope fun reservation =>
    (reservation.routeId == request.routeId ||
      reservation.destinationId == request.destinationId) && reservation.state == .active

def generations (jobId : String) : List Nat :=
  (s.attempts.entries.filter fun e => e.1.scope == scope && e.2.jobId == jobId).map
    fun e => e.2.generation

/-- One more than the job's last generation. -/
def nextGeneration (jobId : String) : Nat :=
  saturatingAdd ((s.generations scope jobId).max?.getD 0) 1

def newAttempt (request : NewDeliveryAttempt) (generation : Nat) (digest : String) :
    DeliveryAttempt where
  id := request.attemptId
  jobId := request.jobId
  destinationId := request.destinationId
  routeId := request.routeId
  generation := generation
  state := .routeLeased
  leaseUntil := request.leaseUntil
  acceptedAt := none
  handoffStartedAt := none
  spoolerAcceptedAt := none
  finalAt := none
  createdAt := now
  updatedAt := now
  digest := digest

def newReservation (request : NewDeliveryAttempt) (generation : Nat) : RouteReservation where
  id := request.reservationId
  routeId := request.routeId
  destinationId := request.destinationId
  jobId := request.jobId
  attemptId := request.attemptId
  generation := generation
  state := .active
  leaseUntil := request.leaseUntil
  releasedAt := none
  acquiredAt := now

/-- The first matches the hash maps yield to one call. -/
structure Choices where
  attempt : Key
  reservation : Key
deriving DecidableEq, Repr

variable (digest : String → String)

def beginDeliveryAttempt (choices : Choices) (token : String) (request : NewDeliveryAttempt) :
    Outcome StartedDeliveryAttempt :=
  if !s.routeAdmits scope request then (.error .notFound, s)
  else
    let s := s.supersedeStale scope now request.destinationId
    match s.retireActive scope now choices.attempt choices.reservation request.jobId with
    | .error error => (.error error, s)
    | .ok s =>
      if s.handoffBusy scope request then (.error .concurrentStateChange, s)
      else if s.hasUnresolvedDestinationUncertainty scope request.destinationId then
        (.error .concurrentStateChange, s)
      else
        let generation := s.nextGeneration scope request.jobId
        let attempt := newAttempt now request generation (digest token)
        let reservation := newReservation now request generation
        (.ok ⟨attempt, reservation, token⟩, { s with
          attempts := s.attempts.insert ⟨scope, attempt.id⟩ attempt
          reservations := s.reservations.insert ⟨scope, reservation.id⟩ reservation })

/-! ### Moving an attempt along -/

/-- How a reservation ends when its attempt does. -/
def closingState : DeliveryAttemptState → ReservationState
  | .superseded => .superseded
  | .cancelled => .cancelled
  | _ => .released

/-- The fence ends with the attempt, and when the spooler has the document. -/
def releaseFence (choice : Key) (attemptId : String) (next : DeliveryAttemptState) : MemoryState :=
  if next.isFinal || next = .acceptedBySpooler then
    s.closeReservation scope now choice attemptId (closingState next)
  else s

def transitionDeliveryAttempt (choice : Key) (attemptId : String) (generation : Nat)
    (fencingToken : String) (next : DeliveryAttemptState) : Outcome DeliveryAttempt :=
  match s.attempts.get? ⟨scope, attemptId⟩ with
  | none => (.error .notFound, s)
  | some attempt =>
    if attempt.generation ≠ generation || attempt.digest != digest fencingToken ||
        !validAttemptTransition attempt.state next then
      (.error .concurrentStateChange, s)
    else
      let result := attempt.transition next now
      let s := s.putAttempt ⟨scope, attemptId⟩ fun _ => result
      let s := s.releaseFence scope now choice attemptId next
      (.ok result, s.flagUncertain scope now next result.destinationId)

/-- The attempt leaves the post-spooler states it is in. -/
def settleAttempt (choice key : Key) (attempt : DeliveryAttempt) (next : DeliveryAttemptState) :
    Outcome DeliveryAttempt :=
  let result := attempt.advance next now
  let s := s.putAttempt key fun _ => result
  let s := s.closeReservation scope now choice result.id .released
  (.ok result, s.flagUncertain scope now next result.destinationId)

def postSpooler (state : DeliveryAttemptState) : Bool :=
  state == .acceptedBySpooler || state == .printingReported

def transitionPostSpoolerAttempt (choices : Choices) (jobId agentId routeId : String)
    (next : DeliveryAttemptState) : Outcome DeliveryAttempt :=
  if !(next == .printingReported || next == .completedReported || next == .failed ||
      next == .deliveryUncertain) then
    (.error .invalidTransition, s)
  else
    match s.routes.get? ⟨scope, routeId⟩ with
    | none => (.error .notFound, s)
    | some route =>
      if route.agentId ≠ agentId then (.error .notFound, s)
      else
        match s.latestAttempt scope
            (fun attempt => attempt.jobId == jobId && attempt.routeId == routeId)
            choices.attempt with
        | none => (.error .notFound, s)
        | some (key, attempt) =>
          if !postSpooler attempt.state || !validAttemptTransition attempt.state next then
            (.error .concurrentStateChange, s)
          else s.settleAttempt scope now choices.reservation key attempt next

def markPostSpoolerAttemptUncertain (choices : Choices) (jobId : String) :
    Outcome DeliveryAttempt :=
  match s.latestAttempt scope (fun attempt => attempt.jobId == jobId) choices.attempt with
  | none => (.error .notFound, s)
  | some (key, attempt) =>
    if !postSpooler attempt.state then (.error .concurrentStateChange, s)
    else s.settleAttempt scope now choices.reservation key attempt .deliveryUncertain

def renewable (state : DeliveryAttemptState) : Bool :=
  state == .routeLeased || state == .acceptedByNode || state == .queuedLocal ||
    state == .handingToSpooler

/-- The lease of the attempt is moved before the reservation is looked at, so a
refused renewal may have moved it. -/
def renewDeliveryAttempt (reservationId : String) (generation : Nat) (fencingToken : String)
    (leaseUntil : DateTime) : Outcome StartedDeliveryAttempt :=
  if leaseUntil ≤ now then
    (.error (.invalidData "renewed lease must be in the future"), s)
  else
    match s.reservations.get? ⟨scope, reservationId⟩ with
    | none => (.error .notFound, s)
    | some reservation =>
      match s.attempts.get? ⟨scope, reservation.attemptId⟩ with
      | none => (.error .notFound, s)
      | some attempt =>
        if attempt.generation ≠ generation || attempt.digest != digest fencingToken ||
            !renewable attempt.state then
          (.error .concurrentStateChange, s)
        else
          let renewed := { attempt with leaseUntil := leaseUntil, updatedAt := now }
          let s := s.putAttempt ⟨scope, reservation.attemptId⟩ fun _ => renewed
          if reservation.state ≠ .active then (.error .concurrentStateChange, s)
          else
            let reservation := { reservation with leaseUntil := leaseUntil }
            (.ok ⟨renewed, reservation, fencingToken⟩,
              { s with reservations :=
                  s.reservations.modify ⟨scope, reservationId⟩ fun _ => reservation })

/-! ### Resolving an uncertain delivery -/

def enqueueDeliveryUncertaintyResolution (choices : Choices) (jobId resolution : String)
    (note : Option String) (actorId requestId : String) :
    Outcome PendingDeliveryUncertaintyResolution :=
  match s.pendingUncertaintyResolutions.get? ⟨scope, requestId⟩ with
  | some existing =>
    if existing.jobId = jobId && existing.resolution = resolution && existing.note = note &&
        existing.actorId = actorId then (.ok existing, s)
    else (.error .idempotencyConflict, s)
  | none =>
    match s.latestAttempt scope
        (fun attempt => attempt.jobId == jobId && attempt.state == .deliveryUncertain)
        choices.attempt with
    | none => (.error .notFound, s)
    | some (_, attempt) =>
      if s.pendingUncertaintyResolutions.entries.any fun e =>
          e.1.scope == scope && e.2.attemptId == attempt.id then
        (.error .concurrentStateChange, s)
      else
        match s.routes.get? ⟨scope, attempt.routeId⟩ with
        | none => (.error .notFound, s)
        | some route =>
          match route.localRouteKey with
          | none => (.error (.invalidData "uncertain route has no node-local route key"), s)
          | some localRouteKey =>
            match s.reservations.pick? (fun key reservation =>
                key.scope == scope && reservation.attemptId == attempt.id)
                choices.reservation with
            | none => (.error .notFound, s)
            | some (_, reservation) =>
              match checkedAdd s.nextUncertaintyCommandCursor 1 with
              | none => (.error (.invalidData "agent command cursor overflow"), s)
              | some cursor =>
                let result : PendingDeliveryUncertaintyResolution :=
                  { requestId := requestId
                    jobId := jobId
                    attemptId := attempt.id
                    destinationId := attempt.destinationId
                    routeId := attempt.routeId
                    agentId := route.agentId
                    reservationId := reservation.id
                    generation := attempt.generation
                    resolution := resolution
                    note := note
                    actorId := actorId
                    agentCommandCursor := cursor
                    localRouteKey := localRouteKey
                    createdAt := now
                    finalizedAt := none }
                (.ok result, { s with
                  nextUncertaintyCommandCursor := cursor
                  pendingUncertaintyResolutions :=
                    s.pendingUncertaintyResolutions.insert ⟨scope, requestId⟩ result })

def acknowledgeUncertaintyResolutionCommand (agentCommandCursor : Nat) : Outcome Unit :=
  if s.pendingUncertaintyResolutions.entries.any fun e =>
      e.1.scope == scope && e.2.agentCommandCursor == agentCommandCursor then
    (.ok (), { s with acknowledgedUncertaintyCommands :=
      (scope, agentCommandCursor) :: s.acknowledgedUncertaintyCommands })
  else (.error .notFound, s)

/-- The destination of the last resolved uncertainty is available again. -/
def clearAttention (destinationId : String) : MemoryState :=
  if s.hasUnresolvedDestinationUncertainty scope destinationId then s
  else { s with destinations := s.destinations.modify ⟨scope, destinationId⟩ fun destination =>
    if destination.state = "attention" then { destination with state := "available" }
    else destination }

def finalizeDeliveryUncertaintyResolution (requestId : String) :
    Outcome (Option DeliveryUncertaintyResolution) :=
  match s.uncertaintyResolutions.get? ⟨scope, requestId⟩ with
  | some existing => (.ok (some existing), s)
  | none =>
    match s.pendingUncertaintyResolutions.get? ⟨scope, requestId⟩ with
    | none => (.error .notFound, s)
    | some pending =>
      if !s.acknowledgedUncertaintyCommands.contains (scope, pending.agentCommandCursor) then
        (.ok none, s)
      else
        let result : DeliveryUncertaintyResolution :=
          { jobId := pending.jobId
            attemptId := pending.attemptId
            destinationId := pending.destinationId
            resolution := pending.resolution
            note := pending.note
            actorId := pending.actorId
            requestId := pending.requestId
            createdAt := now }
        let s := { s with uncertaintyResolutions :=
          s.uncertaintyResolutions.insert ⟨scope, requestId⟩ result }
        let s := s.clearAttention scope result.destinationId
        (.ok (some result), { s with pendingUncertaintyResolutions :=
          s.pendingUncertaintyResolutions.modify ⟨scope, requestId⟩ fun pending =>
            { pending with finalizedAt := some now } })

def recomputeDestinationAttention (destinationId : String) :
    Outcome StoredPhysicalDestination :=
  match s.destinations.get? ⟨scope, destinationId⟩ with
  | none => (.error .notFound, s)
  | some destination =>
    let state := if s.hasUnresolvedDestinationUncertainty scope destinationId then "attention"
      else if destination.state = "attention" then "available" else destination.state
    let destination := { destination with state := state, updatedAt := now }
    (.ok destination, { s with
      destinations := s.destinations.insert ⟨scope, destinationId⟩ destination })

/-! ### Revoking a node -/

def agentRoutes (agentId : String) : List (Key × StoredPrinterRoute) :=
  s.routes.entries.filter fun e => e.1.scope == scope && e.2.agentId == agentId

def retireRoutes (agentId : String) (routeIds : List String) : MemoryState :=
  { s with
    revokedAgents := ⟨scope, agentId⟩ :: s.revokedAgents
    routes := s.routes.mapValues fun key route =>
      if key.scope == scope && routeIds.contains key.id then
        { route with enabled := false, state := "retired", role := "disabled", updatedAt := now }
      else route }

/-- Attempts the node has not accepted are superseded; every active reservation of
the routes goes, whatever its attempt has reached. -/
def releaseRoutes (routeIds : List String) : MemoryState :=
  (s.supersedeAttempts scope now fun attempt =>
    routeIds.contains attempt.routeId && attempt.state == .routeLeased).closeReservations scope now
      (fun reservation => routeIds.contains reservation.routeId) .superseded

/-- Destinations left without an enabled route are unavailable. -/
def withdrawDestinations (destinationIds : List String) : MemoryState :=
  { s with destinations := s.destinations.mapValues fun key destination =>
      if key.scope == scope && destinationIds.contains key.id &&
          !s.anyRoute scope (fun route => route.enabled && route.destinationId == key.id) then
        { destination with
          state := if destination.state = "attention" then destination.state else "unavailable"
          updatedAt := now }
      else destination }

def revokeAgentTopology (agentId : String) : MemoryState :=
  let affected := s.agentRoutes scope agentId
  let routeIds := affected.map fun e => e.1.id
  ((s.retireRoutes scope now agentId routeIds).releaseRoutes scope now
    routeIds).withdrawDestinations scope now (affected.map fun e => e.2.destinationId)

end MemoryState

/-! ### The machine -/

/-- The repository under concurrent callers: the tables, the routes that calls of
`upsert_route` are about to store, and the attempts begun so far, oldest first. -/
structure Topology where
  tables : MemoryState
  resolvedRoutes : List (TenantScope × StoredPrinterRoute)
  begun : List (Key × DeliveryAttempt)
deriving DecidableEq

/-- A call, with the clock, the random token and the choices of the hash maps. -/
inductive TopologyOp
  | upsertDestination (scope : TenantScope) (destination : StoredPhysicalDestination)
  | resolveRoute (scope : TenantScope) (choice : Key) (route : StoredPrinterRoute)
  | storeRoute (index : Nat)
  | recordIdentityEvidence (scope : TenantScope) (evidence : IdentityEvidence)
  | recordIdentityDecision (scope : TenantScope) (now : DateTime) (decision : IdentityDecision)
  | reverseIdentityDecision (scope : TenantScope) (reversal : IdentityDecision)
  | beginDeliveryAttempt (scope : TenantScope) (now : DateTime) (choices : MemoryState.Choices)
      (token : String) (request : NewDeliveryAttempt)
  | transitionDeliveryAttempt (scope : TenantScope) (now : DateTime) (choice : Key)
      (attemptId : String) (generation : Nat) (token : String) (next : DeliveryAttemptState)
  | transitionPostSpoolerAttempt (scope : TenantScope) (now : DateTime)
      (choices : MemoryState.Choices) (jobId agentId routeId : String)
      (next : DeliveryAttemptState)
  | markPostSpoolerAttemptUncertain (scope : TenantScope) (now : DateTime)
      (choices : MemoryState.Choices) (jobId : String)
  | renewDeliveryAttempt (scope : TenantScope) (now : DateTime) (reservationId : String)
      (generation : Nat) (token : String) (leaseUntil : DateTime)
  | enqueueDeliveryUncertaintyResolution (scope : TenantScope) (now : DateTime)
      (choices : MemoryState.Choices) (jobId resolution : String) (note : Option String)
      (actorId requestId : String)
  | acknowledgeUncertaintyResolutionCommand (scope : TenantScope) (cursor : Nat)
  | finalizeDeliveryUncertaintyResolution (scope : TenantScope) (now : DateTime)
      (requestId : String)
  | recomputeDestinationAttention (scope : TenantScope) (now : DateTime) (destinationId : String)
  | revokeAgentTopology (scope : TenantScope) (now : DateTime) (agentId : String)
deriving DecidableEq

namespace Topology

def initial : Topology := ⟨.initial, [], []⟩

variable (digest : String → String)

def step (t : Topology) : TopologyOp → Topology
  | .upsertDestination scope destination =>
    { t with tables := t.tables.upsertDestination scope destination }
  | .resolveRoute scope choice route =>
    match t.tables.resolveRoute scope choice route with
    | .ok stored => { t with resolvedRoutes := t.resolvedRoutes ++ [(scope, stored)] }
    | .error _ => t
  | .storeRoute index =>
    match t.resolvedRoutes[index]? with
    | some (scope, stored) =>
      { t with
        tables := t.tables.storeRoute scope stored
        resolvedRoutes := t.resolvedRoutes.eraseIdx index }
    | none => t
  | .recordIdentityEvidence scope evidence =>
    { t with tables := (t.tables.recordIdentityEvidence scope evidence).2 }
  | .recordIdentityDecision scope now decision =>
    { t with tables := (t.tables.recordIdentityDecision scope now decision).2 }
  | .reverseIdentityDecision scope reversal =>
    { t with tables := (t.tables.reverseIdentityDecision scope reversal).2 }
  | .beginDeliveryAttempt scope now choices token request =>
    let (result, tables) :=
      t.tables.beginDeliveryAttempt scope now digest choices token request
    { t with
      tables := tables
      begun := match result with
        | .ok started => t.begun ++ [(⟨scope, started.attempt.id⟩, started.attempt)]
        | .error _ => t.begun }
  | .transitionDeliveryAttempt scope now choice attemptId generation token next =>
    { t with
      tables := (t.tables.transitionDeliveryAttempt scope now digest choice attemptId generation
        token next).2 }
  | .transitionPostSpoolerAttempt scope now choices jobId agentId routeId next =>
    { t with
      tables := (t.tables.transitionPostSpoolerAttempt scope now choices jobId agentId routeId
        next).2 }
  | .markPostSpoolerAttemptUncertain scope now choices jobId =>
    { t with tables := (t.tables.markPostSpoolerAttemptUncertain scope now choices jobId).2 }
  | .renewDeliveryAttempt scope now reservationId generation token leaseUntil =>
    { t with
      tables := (t.tables.renewDeliveryAttempt scope now digest reservationId generation token
        leaseUntil).2 }
  | .enqueueDeliveryUncertaintyResolution scope now choices jobId resolution note actorId
      requestId =>
    { t with
      tables := (t.tables.enqueueDeliveryUncertaintyResolution scope now choices jobId resolution
        note actorId requestId).2 }
  | .acknowledgeUncertaintyResolutionCommand scope cursor =>
    { t with tables := (t.tables.acknowledgeUncertaintyResolutionCommand scope cursor).2 }
  | .finalizeDeliveryUncertaintyResolution scope now requestId =>
    { t with tables := (t.tables.finalizeDeliveryUncertaintyResolution scope now requestId).2 }
  | .recomputeDestinationAttention scope now destinationId =>
    { t with tables := (t.tables.recomputeDestinationAttention scope now destinationId).2 }
  | .revokeAgentTopology scope now agentId =>
    { t with tables := t.tables.revokeAgentTopology scope now agentId }

abbrev run (l : List TopologyOp) : Topology := Run.exec (step digest) initial l

end Topology

end Piqae.Server
