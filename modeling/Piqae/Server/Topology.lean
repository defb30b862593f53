/-
Piqae/Server/Topology.lean

Physical destinations, routes to them and fenced delivery attempts, as the
in-memory repository of the control plane keeps them
(`MemoryDestinationTopologyRepository`, `storage-postgres/src/destination_topology.rs`):
the tables, and the operations on destinations, routes and identity decisions.

A method of the repository holds the lock of the tables for all it does, so it
is one function of the tables here; a method that fails may still have changed
them, so it returns its result and the tables.  `upsert_route` takes the lock
twice and is two functions.  The tables are hash maps: where the source takes
the first match of an iteration, the match is an input (`choice`).
-/
import Piqae.Lib.SortedMap
import Piqae.Base

namespace Piqae.Server

/-! ### Keys -/

structure TenantScope where
  workspaceId : String
  environmentId : String
deriving DecidableEq, Repr

/-- The key of a tenant's row. -/
structure Key where
  scope : TenantScope
  id : String
deriving DecidableEq, Repr

def Key.toPair (key : Key) : String ×ₗ (String ×ₗ String) :=
  toLex (key.scope.workspaceId, toLex (key.scope.environmentId, key.id))

theorem Key.toPair_injective : Function.Injective Key.toPair := by
  rintro ⟨⟨w, e⟩, i⟩ ⟨⟨w', e'⟩, i'⟩ h
  simpa [Key.toPair, and_assoc] using h

instance : LinearOrder Key := LinearOrder.lift' Key.toPair Key.toPair_injective

abbrev Table (ν : Type) := SortedMap Key ν

inductive StorageError
  | notFound
  | concurrentStateChange
  | invalidTransition
  | idempotencyConflict
  | quotaExceeded
  | billingBlocked
  | invalidData (message : String)
  | database
deriving DecidableEq, Repr

/-! ### Rows -/

inductive IdentityConfidence
  | unknown
  | possible
  | high
  | verified
  | conflict
deriving DecidableEq, Repr

structure StoredPhysicalDestination where
  id : String
  name : String
  identityConfidence : IdentityConfidence
  state : String
  schedulingAuthorityId : Option String
  identityRevision : Nat
  createdAt : DateTime
  updatedAt : DateTime
deriving DecidableEq, Repr

structure StoredPrinterRoute where
  id : String
  destinationId : String
  printerId : String
  agentId : String
  nativeQueueId : String
  localRouteKey : Option String
  state : String
  role : String
  priority : Int
  enabled : Bool
  capabilityRevision : Nat
  profileRevision : Nat
  lastSeenAt : Option DateTime
  createdAt : DateTime
  updatedAt : DateTime
deriving DecidableEq, Repr

structure IdentityEvidence where
  id : String
  destinationId : String
  routeId : String
  conflicts : Bool
deriving DecidableEq, Repr

inductive IdentityDecisionKind
  | merge
  | split
  | confirm
  | rejectMatch
  | reverse
deriving DecidableEq, Repr

structure IdentityDecision where
  id : String
  kind : IdentityDecisionKind
  destinationId : String
  relatedDestinationIds : List String
  routeIds : List String
  evidenceIds : List String
  reversesDecisionId : Option String
deriving DecidableEq, Repr

inductive DeliveryAttemptState
  | routeLeased
  | acceptedByNode
  | queuedLocal
  | handingToSpooler
  | acceptedBySpooler
  | printingReported
  | completedReported
  | cancelled
  | failed
  | deliveryUncertain
  | superseded
deriving DecidableEq, Repr

namespace DeliveryAttemptState

def isFinal : DeliveryAttemptState → Bool
  | completedReported | cancelled | failed | deliveryUncertain | superseded => true
  | _ => false

/-- The states `valid_attempt_transition` allows after a state. -/
def successors : DeliveryAttemptState → List DeliveryAttemptState
  | routeLeased => [acceptedByNode, cancelled, failed, superseded]
  | acceptedByNode => [queuedLocal, cancelled, failed]
  | queuedLocal => [handingToSpooler, cancelled, failed]
  | handingToSpooler => [acceptedBySpooler, failed, deliveryUncertain]
  | acceptedBySpooler => [printingReported, completedReported, failed, deliveryUncertain]
  | printingReported => [completedReported, failed, deliveryUncertain]
  | completedReported | cancelled | failed | deliveryUncertain | superseded => []

end DeliveryAttemptState

def validAttemptTransition (source target : DeliveryAttemptState) : Bool :=
  source.successors.contains target

structure DeliveryAttempt where
  id : String
  jobId : String
  destinationId : String
  routeId : String
  generation : Nat
  state : DeliveryAttemptState
  leaseUntil : DateTime
  acceptedAt : Option DateTime
  handoffStartedAt : Option DateTime
  spoolerAcceptedAt : Option DateTime
  finalAt : Option DateTime
  createdAt : DateTime
  updatedAt : DateTime
  /-- The digest of the fencing token; the source keeps it beside the attempt. -/
  digest : String
deriving DecidableEq, Repr

inductive ReservationState
  | active
  | released
  | cancelled
  | superseded
deriving DecidableEq, Repr

structure RouteReservation where
  id : String
  routeId : String
  destinationId : String
  jobId : String
  attemptId : String
  generation : Nat
  state : ReservationState
  leaseUntil : DateTime
  releasedAt : Option DateTime
  acquiredAt : DateTime
deriving DecidableEq, Repr

structure DeliveryUncertaintyResolution where
  jobId : String
  attemptId : String
  destinationId : String
  resolution : String
  note : Option String
  actorId : String
  requestId : String
  createdAt : DateTime
deriving DecidableEq, Repr

structure PendingDeliveryUncertaintyResolution where
  requestId : String
  jobId : String
  attemptId : String
  destinationId : String
  routeId : String
  agentId : String
  reservationId : String
  generation : Nat
  resolution : String
  note : Option String
  actorId : String
  agentCommandCursor : Nat
  localRouteKey : String
  createdAt : DateTime
  finalizedAt : Option DateTime
deriving DecidableEq, Repr

structure MemoryDecisionSnapshot where
  destinations : List StoredPhysicalDestination
  routes : List StoredPrinterRoute
deriving DecidableEq, Repr

structure MemoryState where
  destinations : Table StoredPhysicalDestination
  routes : Table StoredPrinterRoute
  evidence : Table IdentityEvidence
  decisions : Table IdentityDecision
  decisionSnapshots : Table MemoryDecisionSnapshot
  revokedAgents : List Key
  attempts : Table DeliveryAttempt
  reservations : Table RouteReservation
  uncertaintyResolutions : Table DeliveryUncertaintyResolution
  pendingUncertaintyResolutions : Table PendingDeliveryUncertaintyResolution
  acknowledgedUncertaintyCommands : List (TenantScope × Nat)
  nextUncertaintyCommandCursor : Nat
deriving DecidableEq

/-- What a method returns, and the tables it leaves. -/
abbrev Outcome (α : Type) := Except StorageError α × MemoryState

namespace MemoryState

def initial : MemoryState :=
  ⟨.empty, .empty, .empty, .empty, .empty, [], .empty, .empty, .empty, .empty, [], 0⟩

variable (s : MemoryState) (scope : TenantScope) (now : DateTime)

/-- The attempts of a tenant that satisfy `p`, as the source scans for them. -/
def anyAttempt (p : DeliveryAttempt → Bool) : Bool :=
  s.attempts.entries.any fun e => e.1.scope == scope && p e.2

def anyReservation (p : RouteReservation → Bool) : Bool :=
  s.reservations.entries.any fun e => e.1.scope == scope && p e.2

def anyRoute (p : StoredPrinterRoute → Bool) : Bool :=
  s.routes.entries.any fun e => e.1.scope == scope && p e.2

/-- A handoff on the route is under way. -/
def routeBusy (routeId : String) : Bool :=
  s.anyReservation scope (fun reservation =>
      reservation.routeId == routeId && reservation.state == .active) ||
    s.anyAttempt scope fun attempt => attempt.routeId == routeId && !attempt.state.isFinal

/-! ### Destinations and routes -/

def upsertDestination (destination : StoredPhysicalDestination) : MemoryState :=
  let createdAt := match s.destinations.get? ⟨scope, destination.id⟩ with
    | some existing => existing.createdAt
    | none => destination.createdAt
  { s with
    destinations :=
      s.destinations.insert ⟨scope, destination.id⟩ { destination with createdAt := createdAt } }

/-- What `upsert_route` decides to store, under the read lock. -/
def resolveRoute (choice : Key) (route : StoredPrinterRoute) :
    Except StorageError StoredPrinterRoute :=
  if s.revokedAgents.contains ⟨scope, route.agentId⟩ then .error .notFound
  else if !s.destinations.contains ⟨scope, route.destinationId⟩ then .error .notFound
  else
    match s.routes.pick? (fun key stored =>
        key.scope == scope && stored.printerId == route.printerId &&
          stored.agentId == route.agentId) choice with
    | none => .ok route
    | some (key, existing) =>
      .ok { route with
        id := key.id
        createdAt := existing.createdAt
        localRouteKey := route.localRouteKey <|> existing.localRouteKey }

/-- What `upsert_route` does under the write lock. -/
def storeRoute (stored : StoredPrinterRoute) : MemoryState :=
  { s with routes := s.routes.insert ⟨scope, stored.id⟩ stored }

def recordIdentityEvidence (evidence : IdentityEvidence) : Outcome Unit :=
  match s.routes.get? ⟨scope, evidence.routeId⟩ with
  | none => (.error .notFound, s)
  | some route =>
    if route.destinationId != evidence.destinationId then (.error .notFound, s)
    else
      let s := { s with evidence := s.evidence.insert ⟨scope, evidence.id⟩ evidence }
      if evidence.conflicts then
        (.ok (), { s with
          destinations := s.destinations.modify ⟨scope, evidence.destinationId⟩
            fun destination => { destination with
              identityConfidence := .conflict
              identityRevision := saturatingAdd destination.identityRevision 1 } })
      else (.ok (), s)

/-! ### Identity decisions -/

def takeSnapshot (decision : IdentityDecision) : MemoryDecisionSnapshot where
  destinations := (decision.destinationId :: decision.relatedDestinationIds).filterMap
    fun id => s.destinations.get? ⟨scope, id⟩
  routes := decision.routeIds.filterMap fun id => s.routes.get? ⟨scope, id⟩

/-- The routes of a merge or split, moved to the decision's destination. -/
def moveRoutes (decision : IdentityDecision) : Table StoredPrinterRoute :=
  let moved := s.routes.mapValues fun key route =>
    if key.scope == scope && decision.routeIds.contains key.id then
      { route with destinationId := decision.destinationId, role := "standby", updatedAt := now }
    else route
  let hasPrimary := moved.entries.any fun e =>
    e.1.scope == scope && e.2.destinationId == decision.destinationId && e.2.role == "primary" &&
      e.2.enabled
  if hasPrimary then moved
  else match decision.routeIds with
    | [] => moved
    | first :: _ => moved.modify ⟨scope, first⟩ fun route => { route with role := "primary" }

/-- A merge retires the sources it leaves without a route. -/
def retireSources (decision : IdentityDecision) : Table StoredPhysicalDestination :=
  s.destinations.mapValues fun key destination =>
    if key.scope == scope && decision.relatedDestinationIds.contains key.id &&
        !s.anyRoute scope (fun route => route.destinationId == key.id) then
      { destination with state := "retired" }
    else destination

def regroup (decision : IdentityDecision) : Outcome Unit :=
  if decision.routeIds.isEmpty || decision.relatedDestinationIds.isEmpty then
    (.error (.invalidData "merge and split decisions require source destinations and routes"), s)
  else if decision.routeIds.any fun id =>
      match s.routes.get? ⟨scope, id⟩ with
      | some route => !decision.relatedDestinationIds.contains route.destinationId
      | none => false then
    (.error (.invalidData "identity route does not belong to a declared source destination"), s)
  else
    let s := { s with
      routes := s.moveRoutes scope now decision
      evidence := s.evidence.mapValues fun key evidence =>
        if key.scope == scope && decision.routeIds.contains evidence.routeId then
          { evidence with destinationId := decision.destinationId }
        else evidence }
    if decision.kind = .merge then
      (.ok (), { s with destinations := s.retireSources scope decision })
    else (.ok (), s)

/-- Set the confidence of a destination that must exist. -/
def gradeDestination (confidence : IdentityConfidence) (id : String) : Outcome Unit :=
  if s.destinations.contains ⟨scope, id⟩ then
    (.ok (), { s with destinations := s.destinations.modify ⟨scope, id⟩ fun destination =>
      { destination with
        identityConfidence := confidence
        identityRevision := saturatingAdd destination.identityRevision 1 } })
  else (.error .notFound, s)

/-- Destinations graded one after the other; the first that is missing stops the
loop, and those before it stay graded. -/
def gradeDestinations (confidence : IdentityConfidence) (s : MemoryState) (scope : TenantScope) :
    List String → Outcome Unit
  | [] => (.ok (), s)
  | id :: ids =>
    match s.gradeDestination scope confidence id with
    | (.ok (), s) => gradeDestinations confidence s scope ids
    | (.error error, s) => (.error error, s)

def applyDecision (decision : IdentityDecision) : Outcome Unit :=
  match decision.kind with
  | .merge | .split => s.regroup scope now decision
  | .confirm => s.gradeDestination scope .verified decision.destinationId
  | .rejectMatch =>
    gradeDestinations .conflict s scope (decision.destinationId :: decision.relatedDestinationIds)
  | .reverse =>
    (.error (.invalidData "reverse decisions require reverse_identity_decision"), s)

def recordIdentityDecision (decision : IdentityDecision) : Outcome Unit :=
  if decision.kind = .reverse then
    (.error (.invalidData "reverse decisions require reverse_identity_decision"), s)
  else if decision.routeIds.any fun id => !s.routes.contains ⟨scope, id⟩ then (.error .notFound, s)
  else if decision.evidenceIds.any fun id => !s.evidence.contains ⟨scope, id⟩ then
    (.error .notFound, s)
  else if decision.routeIds.any (s.routeBusy scope) then (.error .concurrentStateChange, s)
  else
    let snapshot := s.takeSnapshot scope decision
    match s.applyDecision scope now decision with
    | (.error error, s) => (.error error, s)
    | (.ok (), s) =>
      (.ok (), { s with
        decisionSnapshots := s.decisionSnapshots.insert ⟨scope, decision.id⟩ snapshot
        decisions := s.decisions.insert ⟨scope, decision.id⟩ decision })

/-- The tables with the rows of a snapshot put back. -/
def restore (snapshot : MemoryDecisionSnapshot) : MemoryState :=
  let routes := snapshot.routes.foldl
    (fun routes route => routes.insert ⟨scope, route.id⟩ route) s.routes
  { s with
    destinations := snapshot.destinations.foldl
      (fun destinations destination =>
        destinations.insert ⟨scope, destination.id⟩ destination) s.destinations
    routes := routes
    evidence := s.evidence.mapValues fun key evidence =>
      if key.scope == scope then
        match routes.get? ⟨scope, evidence.routeId⟩ with
        | some route => { evidence with destinationId := route.destinationId }
        | none => evidence
      else evidence }

def reverseIdentityDecision (reversal : IdentityDecision) : Outcome Unit :=
  match reversal.reversesDecisionId with
  | none => (.error (.invalidData "missing reversed decision"), s)
  | some original =>
    if reversal.kind ≠ .reverse || !s.decisions.contains ⟨scope, original⟩ then
      (.error .notFound, s)
    -- the scan for an earlier reversal does not look at the tenant
    else if s.decisions.values.any fun decision =>
        decision.reversesDecisionId == some original then
      (.error .concurrentStateChange, s)
    else
      match s.decisionSnapshots.get? ⟨scope, original⟩ with
      | none => (.error .notFound, s)
      | some snapshot =>
        if snapshot.routes.any fun route => s.routeBusy scope route.id then
          (.error .concurrentStateChange, s)
        else
          let s := s.restore scope snapshot
          (.ok (), { s with decisions := s.decisions.insert ⟨scope, reversal.id⟩ reversal })

end MemoryState

end Piqae.Server
