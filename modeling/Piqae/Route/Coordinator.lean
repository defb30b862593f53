/-
Piqae/Route/Coordinator.lean

The live coordinator and its journal file (`route_coordinator.rs`): opening,
the commit discipline that rolls back or fail-stops on a failed write, the
public operations, and the installation as a machine whose inputs are the
operations together with everything outside the coordinator's control (the
fate of each write, the identifiers drawn, the clock).

A crash is no operation of its own.  It loses the live coordinator and keeps
the file, so a crash before or after the replacement of the file is an
operation with the corresponding failed write, followed by `open`.
-/
import Piqae.Lib.Run
import Piqae.Route.Handoff

namespace Piqae

/-! ### The journal file -/

/-- The fate of one write of the journal: it replaces the file as a whole, or
fails before, or fails after the replacement. -/
inductive PersistOutcome
  | written
  | failedBeforeReplace
  | failedAfterReplace
deriving DecidableEq, Repr

/-- The fate of one commit: of its write, and whether the file can be read
back when the write has failed. -/
structure Fault where
  persist : PersistOutcome
  readBack : Bool
deriving DecidableEq, Repr

structure RouteCoordinator where
  /-- The journal file under the coordinator's root. -/
  journal : Option CoordinatorDocument
  document : CoordinatorDocument
  nextObservationSequence : Nat
  reservedObservationSequence : Nat
  poisoned : Bool
deriving DecidableEq

namespace RouteCoordinator

variable (enc : Encoders) (c : RouteCoordinator)

def persist : PersistOutcome → Fallible Unit × RouteCoordinator
  | .written => (.ok (), { c with journal := some c.document })
  | .failedBeforeReplace =>
    (bail "injected route coordinator failure before replacement", c)
  | .failedAfterReplace =>
    (bail "injected route coordinator failure after replacement",
      { c with journal := some c.document })

def ensureOperational : Fallible Unit :=
  if c.poisoned then
    bail "route coordinator is fail-stopped after an ambiguous journal write"
  else .ok ()

/-- Adopt what the file holds after a failed write: the previous document is a
clean rollback, anything else fail-stops. -/
def adoptAfterFailure (previous : CoordinatorDocument) (readBack : Bool) : RouteCoordinator :=
  match (if readBack then c.journal else none) with
  | some disk =>
    if disk = previous then { c with document := previous }
    else { c with document := disk, poisoned := true }
  | none => { c with document := previous, poisoned := true }

def commitDocumentChange (previous : CoordinatorDocument) (fault : Fault) :
    Fallible Unit × RouteCoordinator :=
  match c.persist fault.persist with
  | (.ok (), c) => (.ok (), c)
  | (.error error, c) =>
    let c := c.adoptAfterFailure previous fault.readBack
    (.error ((if c.poisoned then
        "route coordinator journal outcome is ambiguous; coordinator fail-stopped"
      else "route coordinator journal change was not committed") :: error), c)

/-- The shape of a public operation: compute on the document, commit on
success, leave everything as it was on an error. -/
def transact {α : Type} (inner : Fallible (α × CoordinatorDocument)) (fault : Fault) :
    Fallible α × RouteCoordinator :=
  match c.ensureOperational with
  | .error error => (.error error, c)
  | .ok () =>
  match inner with
  | .error error => (.error error, c)
  | .ok (value, attempted) =>
  match { c with document := attempted }.commitDocumentChange c.document fault with
  | (.ok (), c) => (.ok value, c)
  | (.error error, c) => (.error error, c)

/-! ### Opening -/

/-- A replay barrier that no registration can have left. -/
def invalidBarrier (key : String) (route : ConsumedAuthoritativeRoute) : Bool :=
  route.generation == 0 || route.serverRouteId.isEmpty || route.localRouteKey.isEmpty
    || route.jobId.isEmpty || route.connectorId.isEmpty || route.fencingToken.isEmpty
    || key != authoritativeRouteKey enc route.connectorId route.serverRouteId
        route.localRouteKey route.jobId

/-- Check a journal and repair it, before it is written back. -/
def adopt (journal : Option CoordinatorDocument) (installationNamespace : Uuid) :
    Fallible RouteCoordinator :=
  let document := journal.getD (.fresh installationNamespace)
  if document.version ≠ documentVersion then
    bail ("unsupported route coordinator version " ++ toString document.version)
  else if document.handoffs.length > maxHandoffs
      ∨ document.topologyChanges.length > maxTopologyChanges
      ∨ document.consumedAuthoritativeRoutes.size > maxConsumedAuthoritativeRoutes
      ∨ document.acknowledgedHandoffSequences.size > maxAcknowledgedConnectors then
    bail "route coordinator state exceeds supported bounds"
  else if document.consumedAuthoritativeRoutes.entries.any
      (fun entry => invalidBarrier enc entry.1 entry.2) then
    bail "route coordinator contains an invalid authoritative replay barrier"
  else match checkedAdd document.observationSequence 1 with
  | none => bail "route observation sequence space is exhausted"
  | some nextObservationSequence =>
    -- repair precedes pruning: an older journal can protect an absent route
    -- through its previous key
    let repaired := (document.reconcileCoordinationKeys enc).pruneAbsentRoutes
    if repaired.routes.size > maxRoutes then
      bail "route coordinator state exceeds supported bounds"
    else .ok
      { journal := journal
        document := repaired
        nextObservationSequence := nextObservationSequence
        reservedObservationSequence := document.observationSequence
        poisoned := false }

/-- The checks `open` makes of a journal. -/
structure Openable (d : CoordinatorDocument) : Prop where
  version : d.version = documentVersion
  handoffs : d.handoffs.length ≤ maxHandoffs
  topologyChanges : d.topologyChanges.length ≤ maxTopologyChanges
  consumed : d.consumedAuthoritativeRoutes.size ≤ maxConsumedAuthoritativeRoutes
  acknowledged : d.acknowledgedHandoffSequences.size ≤ maxAcknowledgedConnectors
  barriers : ∀ entry ∈ d.consumedAuthoritativeRoutes.entries,
    invalidBarrier enc entry.1 entry.2 = false
  observationSequence : d.observationSequence + 1 ≤ u64Max
  routes : (d.reconcileCoordinationKeys enc).pruneAbsentRoutes.routes.size ≤ maxRoutes

/-- The coordinator that `open` makes of an openable journal. -/
def adopted (journal : Option CoordinatorDocument) (d : CoordinatorDocument) : RouteCoordinator :=
  { journal := journal
    document := (d.reconcileCoordinationKeys enc).pruneAbsentRoutes
    nextObservationSequence := d.observationSequence + 1
    reservedObservationSequence := d.observationSequence
    poisoned := false }

section

variable {enc}

theorem adopt_eq_ok_iff {journal : Option CoordinatorDocument} {ns : Uuid} {c : RouteCoordinator} :
    adopt enc journal ns = .ok c ↔
      Openable enc (journal.getD (.fresh ns)) ∧
        c = adopted enc journal (journal.getD (.fresh ns)) := by
  unfold adopt
  dsimp only
  generalize journal.getD (.fresh ns) = d
  constructor
  · intro h
    split at h
    · cases h
    rename_i hv
    split at h
    · cases h
    rename_i hb
    split at h
    · cases h
    rename_i hi
    split at h
    · cases h
    rename_i next hnext
    split at h
    · cases h
    rename_i hr
    unfold checkedAdd at hnext
    split_ifs at hnext with ho
    cases hnext
    simp only [not_or, Nat.not_lt, List.any_eq_true, not_exists, not_and, Bool.not_eq_true]
      at hb hi hr
    exact ⟨⟨not_not.mp hv, hb.1, hb.2.1, hb.2.2.1, hb.2.2.2, hi, ho, hr⟩, (Except.ok.inj h).symm⟩
  · rintro ⟨ho, rfl⟩
    rw [if_neg (not_not.mpr ho.version), if_neg, if_neg]
    · unfold checkedAdd
      rw [if_pos ho.observationSequence]
      dsimp only
      rw [if_neg (Nat.not_lt.mpr ho.routes)]
      rfl
    · simpa using ho.barriers
    · simp only [not_or, Nat.not_lt]
      exact ⟨ho.handoffs, ho.topologyChanges, ho.consumed, ho.acknowledged⟩
end

/-! ### The public operations -/

def reconcile (printers : List DiscoveredPrinter) (inventoryRevision : Nat)
    (observedAt : DateTime) (outcome : PersistOutcome) :
    Fallible (SortedMap String PrinterRouteSnapshot) × RouteCoordinator :=
  match c.ensureOperational with
  | .error error => (.error error, c)
  | .ok () =>
    let (snapshots, document) := c.document.reconcile enc printers inventoryRevision observedAt
    match { c with document := document }.persist outcome with
    | (.ok (), c) => (.ok snapshots, c)
    | (.error error, c) => (.error error, c)

/-- Raise the high-water mark of observation sequences by a range that holds
this many. -/
def reserveObservations (d : CoordinatorDocument) (bounded : Nat) :
    Fallible CoordinatorDocument :=
  match checkedAdd d.observationSequence (max observationSequenceReservation bounded) with
  | none => bail "route observation sequence space is exhausted"
  | some reservedThrough => .ok { d with observationSequence := reservedThrough }

/-- Extend the reserved range, writing the mark before any number of it is
handed out. -/
def extendReservation (bounded : Nat) (outcome : PersistOutcome) :
    Fallible Unit × RouteCoordinator :=
  match reserveObservations c.document bounded with
  | .error error => (.error error, c)
  | .ok document =>
    match { c with document := document }.persist outcome with
    | (.ok (), c) =>
      (.ok (), { c with reservedObservationSequence := document.observationSequence })
    | (.error error, c) => (.error error, c)

def allocateObservationSequences (count : Nat) (outcome : PersistOutcome) :
    Fallible (List Nat) × RouteCoordinator :=
  match c.ensureOperational with
  | .error error => (.error error, c)
  | .ok () =>
    let bounded := min count maxRoutes
    if bounded = 0 then (.ok [], c)
    else match checkedAdd c.nextObservationSequence (bounded - 1) with
    | none => (bail "route observation sequence space is exhausted", c)
    | some allocatedThrough =>
      let (extended, c) :=
        if allocatedThrough > c.reservedObservationSequence then c.extendReservation bounded outcome
        else (.ok (), c)
      match extended with
      | .error error => (.error error, c)
      | .ok () =>
        match checkedAdd allocatedThrough 1 with
        | none => (bail "route observation sequence space is exhausted", c)
        | some next =>
          let start := c.nextObservationSequence
          (.ok (List.range' start (allocatedThrough + 1 - start)),
            { c with nextObservationSequence := next })

def reserve (connectorId nativeId jobId : String) (nowUnixMs : Int)
    (reservationId fencingToken : Uuid) (fault : Fault) :
    Fallible RouteReservation × RouteCoordinator :=
  c.transact (c.document.reserveInner enc connectorId nativeId jobId nowUnixMs reservationId
    fencingToken) fault

def registerAuthoritative (connectorId nativeId jobId : String)
    (reservation : CloudRouteReservation) (now : DateTime) (fault : Fault) :
    Fallible AuthoritativeRouteRegistration × RouteCoordinator :=
  c.transact (c.document.registerAuthoritativeInner enc connectorId nativeId jobId reservation now)
    fault

/-- An operation that returns nothing, as `transact` takes it. -/
def unitResult (inner : Fallible CoordinatorDocument) : Fallible (Unit × CoordinatorDocument) :=
  inner.map fun d => ((), d)

def finish (connectorId jobId : String) (reservation : RouteReservation)
    (outcome : NativeHandoffOutcome) (nativeJobId : Option String) (observedAt : DateTime)
    (fault : Fault) : Fallible Unit × RouteCoordinator :=
  c.transact (unitResult (c.document.finishInner enc connectorId jobId reservation outcome
    nativeJobId observedAt)) fault

def failStopped : String :=
  "route coordinator could not durably resolve native handoff; coordinator fail-stopped"

/-- One exact retry when a failed write is proven not to have replaced the
journal; an ambiguous or repeated failure fail-stops. -/
def retryOnce (operation : RouteCoordinator → Fault → Fallible Unit × RouteCoordinator)
    (first second : Fault) : Fallible Unit × RouteCoordinator :=
  match operation c first with
  | (.ok (), c) => (.ok (), c)
  | (.error firstError, c) =>
    if c.poisoned then (.error (failStopped :: firstError), c)
    else
      match operation c second with
      | (.ok (), c) => (.ok (), c)
      | (.error _, c) => (.error (failStopped :: firstError), { c with poisoned := true })

def finishRuntime (connectorId jobId : String) (reservation : RouteReservation)
    (outcome : NativeHandoffOutcome) (nativeJobId : Option String) (observedAt : DateTime)
    (first second : Fault) : Fallible Unit × RouteCoordinator :=
  c.retryOnce (fun c fault =>
    c.finish enc connectorId jobId reservation outcome nativeJobId observedAt fault) first second

def acknowledgeHandoffs (connectorId : String) (throughSequence : Nat) (fault : Fault) :
    Fallible Unit × RouteCoordinator :=
  c.transact (unitResult (c.document.acknowledgeHandoffs connectorId throughSequence)) fault

/-- Compaction commits only when it removes something. -/
def compactLocalTerminalHandoffs (connectorId : String) (commits : List LocalHandoffCommit)
    (fault : Fault) : Fallible Nat × RouteCoordinator :=
  match c.ensureOperational with
  | .error error => (.error error, c)
  | .ok () =>
  match c.document.compactLocalTerminalHandoffs connectorId commits with
  | .ok (0, _) => (.ok 0, c)
  | compacted => c.transact compacted fault

def resolveAmbiguousHandoff (identity : HandoffIdentity)
    (resolution : AmbiguousHandoffResolution) (fault : Fault) :
    Fallible Unit × RouteCoordinator :=
  c.transact (unitResult (c.document.resolveAmbiguousHandoffInner enc identity resolution)) fault

def validate (reservation : RouteReservation) : Fallible Unit :=
  match c.ensureOperational with
  | .error error => .error error
  | .ok () => (c.document.validate reservation).map fun _ => ()

end RouteCoordinator

end Piqae
