/-
Piqae/Route/Document.lean

The durable document of the route coordinator (`route_coordinator.rs`) and
the operations on it that keep the table of routes: retention and pruning of
absent routes, the plan that regroups exclusion domains, and the
reconciliation of one discovery with the table.

Everything here is a pure function of the document; the journal file and its
failures are in `Piqae.Route.Coordinator`.
-/
import Piqae.Lib.SortedMap
import Piqae.Route.Identity

namespace Piqae

/-! ### Bounds -/

def documentVersion : Nat := 1

def maxRoutes : Nat := 512

def maxHandoffs : Nat := 512

def maxConsumedAuthoritativeRoutes : Nat := 4096

def maxAcknowledgedConnectors : Nat := 512

def maxTopologyChanges : Nat := 512

def observationSequenceReservation : Nat := 512

def reservationLifetimeMs : Int := 2 * 60 * 1000

/-! ### The document -/

inductive TopologyChange
  | added
  | changed
  | removed
  | reconciled
deriving DecidableEq, Repr

structure RouteTopologyChange where
  localRouteKey : String
  topologyRevision : Nat
  observedAt : DateTime
  change : TopologyChange
deriving DecidableEq, Repr

inductive NativeHandoffOutcome
  | accepted
  | rejectedBeforeHandoff
  | ambiguous
deriving DecidableEq, Repr

structure DurableRoute where
  routeId : String
  coordinationKey : String
  /-- Set when independently occupied exclusion domains are seen as one group. -/
  coordinationConflict : Bool
  nativeFingerprint : String
  generation : Nat
  present : Bool
  identityEvidence : List PhysicalIdentityEvidence
  identityConfidence : IdentityConfidence
deriving DecidableEq, Repr

structure DurableReservation where
  /-- The control plane's route; absent on a local-only reservation. -/
  serverRouteId : Option String
  localRouteKey : String
  reservationId : Uuid
  connectorId : String
  jobId : String
  generation : Nat
  fencingToken : String
  expiresUnixMs : Int
deriving DecidableEq, Repr

structure DurableHandoff where
  sequence : Nat
  connectorId : String
  serverRouteId : Option String
  localRouteKey : String
  jobId : String
  reservationId : Uuid
  fencingGeneration : Nat
  fencingToken : String
  observedAt : DateTime
  outcome : NativeHandoffOutcome
  nativeJobId : Option String
deriving DecidableEq, Repr

structure ConsumedAuthoritativeRoute where
  connectorId : String
  serverRouteId : String
  localRouteKey : String
  jobId : String
  generation : Nat
  reservationId : Uuid
  fencingToken : String
  observedAt : DateTime
  outcome : NativeHandoffOutcome
  nativeJobId : Option String
deriving DecidableEq, Repr

structure CoordinatorDocument where
  version : Nat
  installationNamespace : Uuid
  topologyRevision : Nat
  handoffSequence : Nat
  observationSequence : Nat
  /-- Routes by native queue id. -/
  routes : SortedMap String DurableRoute
  /-- Unresolved fences by coordination key. -/
  reservations : SortedMap String DurableReservation
  /-- Replay barriers by `authoritativeRouteKey`. -/
  consumedAuthoritativeRoutes : SortedMap String ConsumedAuthoritativeRoute
  acknowledgedHandoffSequences : SortedMap String Nat
  handoffs : List DurableHandoff
  topologyChanges : List RouteTopologyChange
deriving DecidableEq

/-- The document of an installation that has no journal yet. -/
def CoordinatorDocument.fresh (installationNamespace : Uuid) : CoordinatorDocument where
  version := documentVersion
  installationNamespace := installationNamespace
  topologyRevision := 0
  handoffSequence := 0
  observationSequence := 0
  routes := .empty
  reservations := .empty
  consumedAuthoritativeRoutes := .empty
  acknowledgedHandoffSequences := .empty
  handoffs := []
  topologyChanges := []

structure PrinterRouteSnapshot where
  localRouteKey : String
  inventoryRevision : Nat
  topologyRevision : Nat
  observedAt : DateTime
  identityEvidence : List PhysicalIdentityEvidence
  identityConfidence : IdentityConfidence
  topologyChange : Option TopologyChange
  profileObservedAt : Option DateTime
  stockObservedAt : Option DateTime
deriving DecidableEq, Repr

namespace CoordinatorDocument

/-! ### Retention -/

def routeRequiresRetention (d : CoordinatorDocument) (route : DurableRoute) : Bool :=
  d.reservations.values.any (·.localRouteKey == route.routeId) ||
    d.handoffs.any fun handoff =>
      handoff.localRouteKey == route.routeId && handoff.outcome == .ambiguous

def pruneAbsentRoutes (d : CoordinatorDocument) : CoordinatorDocument :=
  let retainedRouteIds := (d.routes.values.filter fun route =>
    !route.present && d.routeRequiresRetention route).map (·.routeId)
  { d with
    routes := d.routes.retain fun _ route =>
      route.present || retainedRouteIds.contains route.routeId }

def trimFront {α : Type} (values : List α) (limit : Nat) : List α :=
  if values.length > limit then values.drop (values.length - limit) else values

def recordTopologyChange (d : CoordinatorDocument) (routeId : String) (change : TopologyChange)
    (observedAt : DateTime) : CoordinatorDocument :=
  { d with
    topologyChanges := trimFront
      (d.topologyChanges ++ [⟨routeId, d.topologyRevision, observedAt, change⟩])
      maxTopologyChanges }

/-! ### Exclusion domains -/

section

variable (enc : Encoders)

/-- The group the recorded evidence puts a route in. -/
def desiredKey (route : DurableRoute) : String :=
  physicalCoordinationKey enc route.routeId route.identityEvidence

/-- The occupied exclusion domains of a group: the keys of its routes that
hold a reservation, and the keys of the reservations on its routes. -/
def occupiedByDesired (d : CoordinatorDocument) (desired : String) : List String :=
  let byRoute := (d.routes.values.filter fun route =>
    desiredKey enc route == desired && d.reservations.contains route.coordinationKey).map
      (·.coordinationKey)
  let byReservation := (d.reservations.entries.filter fun entry =>
    (d.routes.values.find? (·.routeId == entry.2.localRouteKey)).any
      (desiredKey enc · == desired)).map (·.1)
  (byRoute ++ byReservation).dedup

/-- The plan for one route: the group's key if the group is free, its occupied
domain if there is one, a conflict if there are several. -/
def regroupRoute (d : CoordinatorDocument) (route : DurableRoute) : DurableRoute :=
  let desired := desiredKey enc route
  match d.occupiedByDesired enc desired with
  | [] => { route with coordinationKey := desired, coordinationConflict := false }
  | [activeKey] => { route with coordinationKey := activeKey, coordinationConflict := false }
  | _ :: _ :: _ =>
    -- an occupied prior key stays, so that handles on it still validate
    { route with
      coordinationConflict := true
      coordinationKey :=
        if d.reservations.contains route.coordinationKey then route.coordinationKey else desired }

def reconcileCoordinationKeys (d : CoordinatorDocument) : CoordinatorDocument :=
  { d with routes := d.routes.mapValues fun _ route => d.regroupRoute enc route }

end

/-! ### Reconciliation with one discovery -/

/-- The loop state of `reconcile` over the discovered printers. -/
structure Observation where
  document : CoordinatorDocument
  acceptedUnprotectedRoutes : Nat
  /-- The native ids taken so far. -/
  present : List String
  snapshots : SortedMap String PrinterRouteSnapshot

section

variable (enc : Encoders) (protectedNativeIds : List String) (availableUnprotectedRoutes : Nat)
  (inventoryRevision : Nat) (observedAt : DateTime)

/-- What the table says about a printer it is shown. -/
def changeOf (routes : SortedMap String DurableRoute) (nativeId fingerprint : String) :
    Option TopologyChange :=
  match routes.get? nativeId with
  | none => some .added
  | some route =>
    if !route.present || route.nativeFingerprint != fingerprint then some .changed else none

/-- The recorded form of a printer. A known route keeps its exclusion domain
and its generation until the batch planner has seen every alias. -/
def observedRoute (d : CoordinatorDocument) (printer : DiscoveredPrinter) : DurableRoute :=
  let routeId := routeId enc d.installationNamespace printer.nativeId
  let evidence := canonicalEvidence enc printer
  let previous := d.routes.get? printer.nativeId
  { routeId := routeId
    coordinationKey := match previous with
      | none => physicalCoordinationKey enc routeId evidence
      | some route => route.coordinationKey
    coordinationConflict := false
    nativeFingerprint := topologyFingerprint enc evidence
    generation := match previous with
      | none => 0
      | some route => route.generation
    present := true
    identityEvidence := evidence
    identityConfidence := Piqae.identityConfidence evidence }

/-- Record one printer and its change of topology. -/
def recordPrinter (st : Observation) (printer : DiscoveredPrinter) : Observation :=
  let d := st.document
  let route := d.observedRoute enc printer
  let change := changeOf d.routes printer.nativeId route.nativeFingerprint
  let topologyRevision :=
    if change.isSome then saturatingAdd d.topologyRevision 1 else d.topologyRevision
  let recorded := { d with
    topologyRevision := topologyRevision
    routes := d.routes.insert printer.nativeId route }
  { document := match change with
      | some change => recorded.recordTopologyChange route.routeId change observedAt
      | none => recorded
    acceptedUnprotectedRoutes :=
      if protectedNativeIds.contains printer.nativeId then st.acceptedUnprotectedRoutes
      else st.acceptedUnprotectedRoutes + 1
    present := printer.nativeId :: st.present
    snapshots := st.snapshots.insert printer.nativeId
      { localRouteKey := route.routeId
        inventoryRevision := inventoryRevision
        topologyRevision := topologyRevision
        observedAt := observedAt
        identityEvidence := route.identityEvidence
        identityConfidence := route.identityConfidence
        topologyChange := change
        profileObservedAt := some observedAt
        stockObservedAt := none } }

/-- One turn of the loop: a printer seen before, or beyond the bound on
unprotected routes, is skipped. -/
def observePrinter (st : Observation) (printer : DiscoveredPrinter) : Observation :=
  if st.present.contains printer.nativeId then st
  else if !protectedNativeIds.contains printer.nativeId &&
      decide (availableUnprotectedRoutes ≤ st.acceptedUnprotectedRoutes) then st
  else recordPrinter enc protectedNativeIds inventoryRevision observedAt st printer

end

/-- Mark a route that discovery no longer reports. -/
def removeRoute (observedAt : DateTime) (d : CoordinatorDocument) (removed : String × String) :
    CoordinatorDocument :=
  let d := { d with
    topologyRevision := saturatingAdd d.topologyRevision 1
    routes := d.routes.mapValues fun nativeId route =>
      if nativeId = removed.1 then { route with present := false } else route }
  d.recordTopologyChange removed.2 .removed observedAt

/-- Mark every route that was present and is not in the given list. -/
def markRemoved (d : CoordinatorDocument) (present : List String) (observedAt : DateTime) :
    CoordinatorDocument :=
  let removed := (d.routes.entries.filter fun entry =>
    entry.2.present && !present.contains entry.1).map fun entry => (entry.1, entry.2.routeId)
  removed.foldl (removeRoute observedAt) d

/-- The queues whose routes must be kept whatever discovery reports. -/
def protectedNativeIds (d : CoordinatorDocument) : List String :=
  (d.routes.retain fun _ route => d.routeRequiresRetention route).keys

def observePrinters (enc : Encoders) (d : CoordinatorDocument) (printers : List DiscoveredPrinter)
    (inventoryRevision : Nat) (observedAt : DateTime) : Observation :=
  printers.foldl
    (observePrinter enc d.protectedNativeIds (maxRoutes - d.protectedNativeIds.length)
      inventoryRevision observedAt)
    ⟨d, 0, [], .empty⟩

/-- Record one discovery: the snapshots, and the table before regrouping. -/
def recordDiscovery (enc : Encoders) (d : CoordinatorDocument) (printers : List DiscoveredPrinter)
    (inventoryRevision : Nat) (observedAt : DateTime) :
    SortedMap String PrinterRouteSnapshot × CoordinatorDocument :=
  let observed := d.pruneAbsentRoutes.observePrinters enc printers inventoryRevision observedAt
  (observed.snapshots,
    (observed.document.markRemoved observed.present observedAt).pruneAbsentRoutes)

/-- The snapshots and the document after one discovery. -/
def reconcile (enc : Encoders) (d : CoordinatorDocument) (printers : List DiscoveredPrinter)
    (inventoryRevision : Nat) (observedAt : DateTime) :
    SortedMap String PrinterRouteSnapshot × CoordinatorDocument :=
  let (snapshots, d) := d.recordDiscovery enc printers inventoryRevision observedAt
  (snapshots, d.reconcileCoordinationKeys enc)

variable {enc : Encoders} {printers : List DiscoveredPrinter} {inventoryRevision : Nat}
  {observedAt : DateTime}

theorem recordPrinter_document {ids : List String} {st : Observation}
    {printer : DiscoveredPrinter} : ∃ revision changes,
      (changes = st.document.topologyChanges ∨ ∃ all, changes = trimFront all maxTopologyChanges) ∧
      (recordPrinter enc ids inventoryRevision observedAt st printer).document =
        { st.document with
          topologyRevision := revision
          routes := st.document.routes.insert printer.nativeId
            (st.document.observedRoute enc printer)
          topologyChanges := changes } := by
  unfold recordPrinter
  dsimp only
  split
  · exact ⟨_, _, .inr ⟨_, rfl⟩, rfl⟩
  · exact ⟨_, _, .inl rfl, rfl⟩

/-- **Induction over a discovery**: what pruning, recording a printer and marking
a route as removed keep, the whole loop keeps. -/
theorem recordDiscovery_induction {P : CoordinatorDocument → Prop} {d : CoordinatorDocument}
    (hd : P d) (hprune : ∀ d, P d → P d.pruneAbsentRoutes)
    (hrec : ∀ (d : CoordinatorDocument) revision changes,
      (changes = d.topologyChanges ∨ ∃ all, changes = trimFront all maxTopologyChanges) →
      ∀ printer ∈ printers, P d → P { d with
      topologyRevision := revision
      routes := d.routes.insert printer.nativeId (d.observedRoute enc printer)
      topologyChanges := changes })
    (hremove : ∀ d removed, P d → P (removeRoute observedAt d removed)) :
    P (d.recordDiscovery enc printers inventoryRevision observedAt).2 := by
  have hobs : ∀ d, P d →
      P (d.observePrinters enc printers inventoryRevision observedAt).document := by
    intro d hd
    refine List.foldlRecOn printers _ (motive := fun st : Observation => P st.document) hd ?_
    intro st hst printer hpr
    unfold observePrinter
    split_ifs
    · exact hst
    · exact hst
    · obtain ⟨revision, changes, hch, heq⟩ := recordPrinter_document
      exact heq ▸ hrec _ revision changes hch printer hpr hst
  refine hprune _ ?_
  exact List.foldlRecOn _ _ (hobs _ (hprune _ hd)) fun d hd removed _ => hremove d removed hd

end CoordinatorDocument

end Piqae
