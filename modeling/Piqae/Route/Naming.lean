/-
Piqae/Route/Naming.lean

Names and their digests.  Route ids are truncated SHA-256 digests, so that
different queues have different ids is a fact about the names of one
installation, not about all strings.  `KeySpace` collects the names a run
uses, `RouteIdsDistinct` says that their route ids do not collide, and every
document of such a run records each queue under its own id (`named_kept`).

The frame of `reconcile` is proved here as well: it changes the route table
and the topology log and nothing else.
-/
import Piqae.Route.Installation

namespace Piqae

open SortedMap

/-- The names a run draws on: installation namespaces and native queue ids. -/
structure KeySpace where
  namespaces : Set Uuid
  natives : Set String

/-- Different queues of the key space have different route ids. -/
def RouteIdsDistinct (enc : Encoders) (K : KeySpace) : Prop :=
  ∀ ns ∈ K.namespaces, Set.InjOn (routeId enc ns) K.natives

/-- The request mentions queues of the key space only. -/
def Request.NamesIn (K : KeySpace) : Request → Prop
  | .reconcile printers _ _ _ => ∀ printer ∈ printers, printer.nativeId ∈ K.natives
  | .reserve _ nativeId _ _ _ _ _ => nativeId ∈ K.natives
  | .registerAuthoritative _ nativeId _ _ _ _ => nativeId ∈ K.natives
  | _ => True

/-- The input draws its names from the key space. -/
def Op.NamesIn (K : KeySpace) : Op → Prop
  | .start ns _ => ns ∈ K.namespaces
  | .call request => request.NamesIn K

namespace CoordinatorDocument

/-! ### The frame of `reconcile` -/

/-- `d'` differs from `d` in the route table and the topology log only. -/
def TopologyOnly (d d' : CoordinatorDocument) : Prop :=
  d' = { d with
    topologyRevision := d'.topologyRevision
    routes := d'.routes
    topologyChanges := d'.topologyChanges }

theorem TopologyOnly.trans {d d' d'' : CoordinatorDocument} (h : TopologyOnly d d')
    (h' : TopologyOnly d' d'') : TopologyOnly d d'' := by
  unfold TopologyOnly at *
  rw [h', h]

variable {enc : Encoders} {d : CoordinatorDocument} {printers : List DiscoveredPrinter}
  {inventoryRevision : Nat} {observedAt : DateTime}

theorem topologyOnly_recordDiscovery :
    TopologyOnly d (d.recordDiscovery enc printers inventoryRevision observedAt).2 := by
  refine recordDiscovery_induction (P := TopologyOnly d) rfl ?_ ?_ ?_
  · exact fun d' h => h.trans rfl
  · exact fun d' _ _ _ printer _ h => h.trans rfl
  · exact fun d' removed h => h.trans rfl

/-- **The frame of `reconcile`**: routes and the topology log. -/
theorem topologyOnly_reconcile :
    TopologyOnly d (d.reconcile enc printers inventoryRevision observedAt).2 :=
  topologyOnly_recordDiscovery.trans rfl

variable {Q : String → DurableRoute → Prop} {n : String}

/-! ### Routes recorded by `reconcile` -/

/-- Every row of the route table satisfies `Q`. -/
def RowsSatisfy (Q : String → DurableRoute → Prop) (d : CoordinatorDocument) : Prop :=
  ∀ e ∈ d.routes.entries, Q e.1 e.2

theorem RowsSatisfy.pruneAbsentRoutes (h : RowsSatisfy Q d) :
    RowsSatisfy Q d.pruneAbsentRoutes :=
  fun e he => h e (mem_retain.mp he).1

theorem RowsSatisfy.mapValues (h : RowsSatisfy Q d)
    {f : String → DurableRoute → DurableRoute} (hf : ∀ n R, Q n R → Q n (f n R)) :
    RowsSatisfy Q { d with routes := d.routes.mapValues f } := by
  intro e he
  obtain ⟨R, hR, heq⟩ := mem_mapValues.mp he
  rw [heq]
  exact hf e.1 R (h _ hR)

theorem RowsSatisfy.insert (h : RowsSatisfy Q d) {R : DurableRoute}
    (hR : Q n R) : RowsSatisfy Q { d with routes := d.routes.insert n R } := by
  exact forall_mem_insert hR h

/-- The rows a discovery leaves: those the table had, and those of the
discovered printers, perhaps marked as absent. -/
theorem RowsSatisfy.recordDiscovery (h : RowsSatisfy Q d)
    (hobs : ∀ d' : CoordinatorDocument, d'.installationNamespace = d.installationNamespace →
      RowsSatisfy Q d' → ∀ printer ∈ printers, Q printer.nativeId (d'.observedRoute enc printer))
    (hremove : ∀ n R, Q n R → Q n { R with present := false }) :
    RowsSatisfy Q (d.recordDiscovery enc printers inventoryRevision observedAt).2 := by
  refine (recordDiscovery_induction (P := fun d' => RowsSatisfy Q d' ∧
    d'.installationNamespace = d.installationNamespace) ⟨h, rfl⟩ ?_ ?_ ?_).1
  · exact fun d' h => ⟨h.1.pruneAbsentRoutes, h.2⟩
  · exact fun d' _ _ _ printer hpr h => ⟨h.1.insert (hobs d' h.2 h.1 printer hpr), h.2⟩
  · intro d' removed h
    refine ⟨.mapValues h.1 ?_, h.2⟩
    intro n R hR
    split_ifs
    · exact hremove n R hR
    · exact hR

/-! ### Operations that only release fences -/

/-- `d'` has the routes of `d` and no fence that `d` does not have. -/
structure Releases (d d' : CoordinatorDocument) : Prop where
  routes : d'.routes = d.routes
  installation : d'.installationNamespace = d.installationNamespace
  reservations : ∀ e ∈ d'.reservations.entries, e ∈ d.reservations.entries

variable {d' : CoordinatorDocument} {request : Request}

theorem releases_finishInner {connectorId jobId : String} {reservation : RouteReservation}
    {outcome : NativeHandoffOutcome} {nativeJobId : Option String}
    (h : d.finishInner enc connectorId jobId reservation outcome nativeJobId observedAt = .ok d') :
    Releases d d' := by
  obtain ⟨active, -, -, -, ⟨-, rfl⟩ | ⟨-, d₁, hd₁, rfl⟩⟩ := finishInner_ok h
  · exact ⟨rfl, rfl, fun _ he => he⟩
  · rw [recordConsumedAuthoritativeRoute_frame hd₁]
    exact ⟨rfl, rfl, fun _ he => (mem_erase.mp he).1⟩

theorem releases_resolveAmbiguousHandoffInner {identity : HandoffIdentity}
    {resolution : AmbiguousHandoffResolution}
    (h : d.resolveAmbiguousHandoffInner enc identity resolution = .ok d') : Releases d d' := by
  rcases resolveAmbiguousHandoffInner_ok h with ⟨-, rfl⟩ | ⟨-, h⟩
  · exact ⟨rfl, rfl, fun _ he => he⟩
  · obtain ⟨key, active, handoff, handoffs, d₁, -, -, hd₁, rfl⟩ := resolveActive_ok h
    rw [recordConsumedAuthoritativeRoute_frame hd₁]
    exact ⟨rfl, rfl, fun _ he => (mem_erase.mp he).1⟩

/-- What a request does to routes and fences: it reconciles, it grants, or it
only releases. -/
theorem attempt_routes (h : d.attempt enc request = .ok d') :
    (∃ printers inventoryRevision observedAt outcome,
      request = .reconcile printers inventoryRevision observedAt outcome ∧
        d' = (d.reconcile enc printers inventoryRevision observedAt).2) ∨
    (∃ connectorId nativeId jobId now reservationId fencingToken fault r,
      request = .reserve connectorId nativeId jobId now reservationId fencingToken fault ∧
        d.reserveInner enc connectorId nativeId jobId now reservationId fencingToken =
          .ok (r, d')) ∨ (∃ connectorId nativeId jobId reservation now fault reg,
      request = .registerAuthoritative connectorId nativeId jobId reservation now fault ∧
        d.registerAuthoritativeInner enc connectorId nativeId jobId reservation now =
          .ok (reg, d')) ∨ Releases d d' := by
  cases request
  case reconcile printers inventoryRevision observedAt outcome =>
    exact .inl ⟨printers, inventoryRevision, observedAt, outcome, rfl, (Except.ok.inj h).symm⟩
  case allocateObservationSequences =>
    simp only [attempt, RouteCoordinator.reserveObservations] at h
    split at h
    · cases h
    · cases h
      exact .inr (.inr (.inr ⟨rfl, rfl, fun _ he => he⟩))
  case reserve =>
    obtain ⟨⟨r, d₁⟩, hr, rfl⟩ := Except.map_eq_ok h
    exact .inr (.inl ⟨_, _, _, _, _, _, _, r, rfl, hr⟩)
  case registerAuthoritative =>
    obtain ⟨⟨reg, d₁⟩, hr, rfl⟩ := Except.map_eq_ok h
    exact .inr (.inr (.inl ⟨_, _, _, _, _, _, reg, rfl, hr⟩))
  case finish => exact .inr (.inr (.inr (releases_finishInner h)))
  case finishRuntime => exact .inr (.inr (.inr (releases_finishInner h)))
  case acknowledgeHandoffs =>
    obtain ⟨-, rfl⟩ := acknowledgeHandoffs_ok h
    exact .inr (.inr (.inr ⟨rfl, rfl, fun _ he => he⟩))
  case compactLocalTerminalHandoffs =>
    obtain ⟨⟨removed, d₁⟩, hr, rfl⟩ := Except.map_eq_ok h
    obtain rfl := compactLocalTerminalHandoffs_ok hr
    exact .inr (.inr (.inr ⟨rfl, rfl, fun _ he => he⟩))
  case resolveAmbiguousHandoff =>
    exact .inr (.inr (.inr (releases_resolveAmbiguousHandoffInner h)))

/-! ### Documents that record every queue under its own id -/

/-- The row of a queue carries the queue's route id. -/
def OwnId (enc : Encoders) (K : KeySpace) (ns : Uuid) (n : String) (R : DurableRoute) : Prop :=
  R.routeId = routeId enc ns n ∧ n ∈ K.natives

/-- The document names its routes in the key space. -/
structure Named (enc : Encoders) (K : KeySpace) (d : CoordinatorDocument) : Prop where
  installation : d.installationNamespace ∈ K.namespaces
  rows : RowsSatisfy (OwnId enc K d.installationNamespace) d

variable {K : KeySpace} {e : String × DurableRoute}

/-- A queue is determined by its route id. -/
theorem Named.eq_of_routeId (hK : RouteIdsDistinct enc K) (h : Named enc K d)
    (he : e ∈ d.routes.entries) (hn : n ∈ K.natives)
    (hid : e.2.routeId = routeId enc d.installationNamespace n) : e.1 = n := by
  obtain ⟨hown, hnat⟩ := h.rows e he
  exact hK _ h.installation hnat hn (hown.symm.trans hid)

theorem Named.row_unique (hK : RouteIdsDistinct enc K) (h : Named enc K d)
    {e' : String × DurableRoute} (he : e ∈ d.routes.entries) (he' : e' ∈ d.routes.entries)
    (hid : e.2.routeId = e'.2.routeId) : e = e' := by
  obtain ⟨hown, hnat⟩ := h.rows e' he'
  exact eq_of_mem_of_mem he he' (h.eq_of_routeId hK he hnat (hid.trans hown))

theorem Named.of_sameRoutes (h : Named enc K d)
    (hns : d'.installationNamespace = d.installationNamespace)
    (hrts : SameRoutes d.routes d'.routes) : Named enc K d' := by
  refine ⟨hns ▸ h.installation, ?_⟩
  rintro ⟨n, R'⟩ he
  obtain ⟨R, generation, hR, rfl⟩ := hrts.of_mem n R' he
  rw [hns]
  exact h.rows (n, R) hR

theorem Named.recordDiscovery (h : Named enc K d)
    (hprs : ∀ printer ∈ printers, printer.nativeId ∈ K.natives) :
    Named enc K (d.recordDiscovery enc printers inventoryRevision observedAt).2 := by
  have hns : (d.recordDiscovery enc printers inventoryRevision observedAt).2.installationNamespace =
      d.installationNamespace := by
    rw [topologyOnly_recordDiscovery]
  refine ⟨hns ▸ h.installation, ?_⟩
  rw [hns]
  refine h.rows.recordDiscovery ?_ ?_
  · intro d' hd' _ printer hpr
    exact ⟨congrArg (routeId enc · printer.nativeId) hd', hprs printer hpr⟩
  · exact fun n R hR => hR

theorem Named.reconcileCoordinationKeys (h : Named enc K d) :
    Named enc K (d.reconcileCoordinationKeys enc) := by
  refine ⟨h.installation, .mapValues h.rows ?_⟩
  intro n R hR
  unfold regroupRoute
  dsimp only
  split <;> exact hR

theorem Named.repair (h : Named enc K d) :
    Named enc K (d.reconcileCoordinationKeys enc).pruneAbsentRoutes :=
  ⟨h.installation, .pruneAbsentRoutes h.reconcileCoordinationKeys.rows⟩

theorem named_fresh {ns : Uuid} (hns : ns ∈ K.namespaces) : Named enc K (fresh ns) :=
  ⟨hns, fun _ he => (SortedMap.mem_empty.mp he).elim⟩

theorem Named.attempt (h : Named enc K d) (hnames : request.NamesIn K)
    (hatt : d.attempt enc request = .ok d') : Named enc K d' := by
  rcases attempt_routes hatt with ⟨printers, _, _, _, rfl, rfl⟩ |
    ⟨_, _, _, _, _, _, _, r, rfl, hr⟩ | ⟨_, _, _, _, _, _, reg, rfl, hr⟩ | hrel
  · exact (h.recordDiscovery hnames).reconcileCoordinationKeys
  · rcases (reserveInner_ok hr).2 with ⟨_, -, -, -, -, rfl⟩ | ⟨-, -, -, _, _, hrts, ⟨⟩⟩
    · exact h
    · exact h.of_sameRoutes rfl hrts
  · obtain ⟨-, -, route, -, ⟨_, -, -, -, rfl⟩ | ⟨-, -, -, -, rfl⟩⟩ :=
      registerAuthoritativeInner_ok hr
    · exact h
    · exact h.of_sameRoutes rfl (.refl _)
  · exact h.of_sameRoutes hrel.installation (hrel.routes ▸ SameRoutes.refl _)

end CoordinatorDocument

/-- The conditions of `named_kept`, from the names of the run's inputs alone. -/
theorem meets_namesIn {enc : Encoders} {K : KeySpace} {ops : List Op}
    (hops : ∀ op ∈ ops, op.NamesIn K) (i : Installation) : Run.Meets (Installation.step enc)
      (Installation.InputsMeet (fun _ request => request.NamesIn K) K.namespaces) i ops := by
  refine Run.meets_of_forall ?_ i
  intro op hop i
  cases op
  case start => exact hops _ hop
  case call => exact fun _ _ => hops _ hop

/-! ### A small installation -/

namespace Sample

def installationNamespace : Uuid := 0x00112233445566778899aabbccddeeff#128

/-- The route ids of the queues `office` and `lab`. -/
def officeId : String := "rte_f197d95a950c577f9ec1401545adf0dd"

def labId : String := "rte_86f9c821c246d54880788c88c09e7e02"

/-- The digest input of a barrier key of `job-1`. -/
def barrierInput (serverRouteId localRouteKey : String) : List UInt8 :=
  ["cloud", serverRouteId, localRouteKey, "job-1"].flatMap lengthPrefixed

/-- The SHA-256 digests the installation needs: of the two queues, of no
evidence, and of the barrier keys of `job-1`. -/
def digests : List (List UInt8 × String) :=
  [(asBytes "piqae-route-v1\x00" ++ installationNamespace.asBytes ++ asBytes "office",
      "f197d95a950c577f9ec1401545adf0dd4f27496af70bd8040bc1e90d2e9f50f2"),
    (asBytes "piqae-route-v1\x00" ++ installationNamespace.asBytes ++ asBytes "lab",
      "86f9c821c246d54880788c88c09e7e02810d35b5533f1ff650ee626ad3dc49d5"),
    (asBytes "[]", "4f53cda18c2baa0c0354bb5f9a3ecbe5ed12ab4d8e11ba873c2f11161202b945"),
    (barrierInput "srv-office" officeId,
      "3aa71e4e7fc058a3cf80c3a5939a8306b946f4460c48f7ec0f8201751358c575"),
    (barrierInput "srv-office" labId,
      "0e9c4313c26731a1905dc47a4fd145f1ff269b3cc8b97ce3fe4b2a25d35f29d3"),
    (barrierInput "srv-lab" officeId,
      "be1c16690ac08590c1e77115bb1ed4edad976ad9c2574113aefb3718dd786e00"),
    (barrierInput "srv-lab" labId,
      "790ab39a3e0799c041c060e83f48c9b7a94593f2c234e8bba07b84bad00f8d52")]

/-- The encoders on the inputs of the installation: the digests above, and the
JSON of an empty evidence list. -/
def encoders : Encoders where
  sha256Hex bytes := (digests.lookup bytes).getD ""
  driverJson _ := none
  evidenceJson evidence := if evidence = [] then some (asBytes "[]") else none

def keySpace : KeySpace where
  namespaces := {installationNamespace}
  natives := {"office", "lab"}

/-- A write that succeeds. -/
def noFault : Fault := ⟨.written, true⟩

/-- Open, and discover both queues without evidence. -/
def opened : List Op :=
  [.start installationNamespace .written,
    .call (.reconcile [⟨"office", none, []⟩, ⟨"lab", none, []⟩] 1 0 .written)]

/-- The row of a queue without evidence. -/
def row (routeId : String) (generation : Nat) : DurableRoute where
  routeId := routeId
  coordinationKey := routeId
  coordinationConflict := false
  nativeFingerprint := "4f53cda18c2baa0c0354bb5f9a3ecbe5ed12ab4d8e11ba873c2f11161202b945"
  generation := generation
  present := true
  identityEvidence := []
  identityConfidence := .unknown

/-- The document after both queues have been discovered. -/
def openedDocument : CoordinatorDocument :=
  { CoordinatorDocument.fresh installationNamespace with
    topologyRevision := 2
    routes := (SortedMap.empty.insert "office" (row officeId 0)).insert "lab" (row labId 0)
    topologyChanges := [⟨officeId, 1, 0, .added⟩, ⟨labId, 2, 0, .added⟩] }

def openedCoordinator : RouteCoordinator where
  journal := some openedDocument
  document := openedDocument
  nextObservationSequence := 1
  reservedObservationSequence := 0
  poisoned := false

theorem run_opened : Installation.run encoders .blank opened = .running openedCoordinator := by
  decide +kernel

theorem opened_namesIn : ∀ op ∈ opened, op.NamesIn keySpace := by
  refine List.forall_mem_cons.mpr ⟨rfl, List.forall_mem_singleton.mpr ?_⟩
  exact List.forall_mem_cons.mpr ⟨.inl rfl, List.forall_mem_singleton.mpr (.inr rfl)⟩

theorem routeId_office : routeId encoders installationNamespace "office" = officeId := by
  decide +kernel

theorem routeId_lab : routeId encoders installationNamespace "lab" = labId := by
  decide +kernel

theorem routeIdsDistinct : RouteIdsDistinct encoders keySpace := by
  rintro ns rfl n (rfl | rfl) n' (rfl | rfl) h
  · rfl
  · rw [routeId_office, routeId_lab] at h
    exact absurd h (by decide)
  · rw [routeId_office, routeId_lab] at h
    exact absurd h (by decide)
  · rfl

end Sample

end Piqae
