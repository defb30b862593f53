/-
Piqae/Route/Reserve.lean

How a route is fenced: `reserve_inner` for local work and
`register_authoritative_inner` for a reservation the control plane offers
(`route_coordinator.rs`).  Both decide on the document alone and return the
handle the caller keeps together with the document to be journaled.

The random identifiers that `reserve_inner` draws are arguments.
-/
import Piqae.Route.Document

namespace Piqae

open SortedMap

/-- The handle a caller holds on an active reservation. -/
structure RouteReservation where
  localRouteKey : String
  serverRouteId : Option String
  coordinationKey : String
  reservationId : Uuid
  generation : Nat
  fencingToken : String
deriving DecidableEq, Repr

/-- A reservation offered by the control plane. -/
structure CloudRouteReservation where
  routeId : String
  localRouteKey : String
  reservationId : Uuid
  generation : Nat
  fencingToken : String
  leaseExpiresAt : DateTime
deriving DecidableEq, Repr

structure AuthoritativeRouteRegistration where
  reservation : RouteReservation
  newlyRegistered : Bool
deriving DecidableEq, Repr

/-- The handle on an active reservation, named by the given route. -/
def DurableReservation.handle (reservation : DurableReservation)
    (localRouteKey coordinationKey : String) : RouteReservation where
  localRouteKey := localRouteKey
  serverRouteId := reservation.serverRouteId
  coordinationKey := coordinationKey
  reservationId := reservation.reservationId
  generation := reservation.generation
  fencingToken := reservation.fencingToken

/-- Evidence that a job crossed, or may have crossed, native handoff. -/
def DurableHandoff.crossed (handoff : DurableHandoff) (connectorId jobId : String) : Bool :=
  handoff.connectorId == connectorId && handoff.jobId == jobId &&
    (handoff.outcome == .accepted || handoff.outcome == .ambiguous)

namespace CoordinatorDocument

variable (enc : Encoders) (d : CoordinatorDocument)

/-! ### Local reservations -/

/-- The exclusion domain of a queue: its route's, or the queue alone when
discovery has not recorded it. -/
def domainOf (nativeId : String) : String :=
  match d.routes.get? nativeId with
  | none => routeId enc d.installationNamespace nativeId
  | some route => route.coordinationKey

/-- Advance the generation of the route with this id. A queue that is not
recorded has generation 1. -/
def bumpGeneration (routeId : String) : Nat × CoordinatorDocument :=
  match d.routes.findEntry? fun _ route => route.routeId == routeId with
  | none => (1, d)
  | some (nativeId, route) =>
    let generation := saturatingAdd route.generation 1
    (generation, { d with
      routes := d.routes.insert nativeId { route with generation := generation } })

/-- The durable form of a local reservation. -/
def localReservation (routeId connectorId jobId : String) (nowUnixMs : Int)
    (reservationId fencingToken : Uuid) (generation : Nat) : DurableReservation where
  serverRouteId := none
  localRouteKey := routeId
  reservationId := reservationId
  connectorId := connectorId
  jobId := jobId
  generation := generation
  fencingToken := fencingToken.text
  expiresUnixMs := saturatingAddI64 nowUnixMs reservationLifetimeMs

/-- A new local fence on a free domain. -/
def grantLocal (connectorId nativeId jobId : String) (nowUnixMs : Int)
    (reservationId fencingToken : Uuid) : RouteReservation × CoordinatorDocument :=
  let routeId := routeId enc d.installationNamespace nativeId
  let coordinationKey := d.domainOf enc nativeId
  let (generation, d) := d.bumpGeneration routeId
  let reservation := localReservation routeId connectorId jobId nowUnixMs reservationId
    fencingToken generation
  (reservation.handle routeId coordinationKey,
    { d with reservations := d.reservations.insert coordinationKey reservation })

def reserveInner (connectorId nativeId jobId : String) (nowUnixMs : Int)
    (reservationId fencingToken : Uuid) : Fallible (RouteReservation × CoordinatorDocument) :=
  let routeId := routeId enc d.installationNamespace nativeId
  let coordinationKey := d.domainOf enc nativeId
  if d.handoffs.any (·.crossed connectorId jobId) then
    bail "job already crossed or may have crossed native handoff"
  else match d.reservations.get? coordinationKey with
  | some existing =>
    -- the deadline of an unresolved reservation is advisory: it never frees the domain
    if existing.jobId = jobId ∧ existing.connectorId = connectorId then
      .ok (existing.handle routeId coordinationKey, d)
    else bail "printer route is reserved by another connector"
  | none =>
    if d.handoffs.length + d.reservations.size ≥ maxHandoffs then
      bail "native handoff journal is full pending control-plane acknowledgement"
    else if (d.routes.get? nativeId).any (·.coordinationConflict) then
      bail "printer route has conflicting unresolved physical reservations"
    else .ok (d.grantLocal enc connectorId nativeId jobId nowUnixMs reservationId fencingToken)

/-! ### Reservations of the control plane -/

/-- The replay-barrier key of an active reservation, if it is authoritative. -/
def barrierKey (active : DurableReservation) : Option String :=
  active.serverRouteId.map fun serverRouteId =>
    authoritativeRouteKey enc active.connectorId serverRouteId active.localRouteKey active.jobId

/-- The barriers that active reservations will need and that do not exist yet. -/
def activeUnconsumed : List String :=
  ((d.reservations.values.filterMap (barrierKey enc)).filter fun key =>
    !d.consumedAuthoritativeRoutes.contains key).dedup

/-- Is the offer malformed, for another route, or expired? -/
def offerInvalid (expectedRoute : String) (reservation : CloudRouteReservation)
    (now : DateTime) : Bool :=
  reservation.localRouteKey != expectedRoute
    || reservation.routeId.isEmpty
    || reservation.generation == 0
    || reservation.fencingToken.isEmpty
    || decide ((asBytes reservation.fencingToken).length > 512)
    || decide (reservation.leaseExpiresAt ≤ now)

/-- The refusals that protect against replay of an offer, in the order they
are made. -/
def replayRefusal (connectorId jobId : String) (reservation : CloudRouteReservation) :
    Option String :=
  if d.consumedAuthoritativeRoutes.values.any (fun consumed =>
      consumed.connectorId == connectorId && consumed.jobId == jobId
        && consumed.outcome == .accepted) then
    some "job already crossed native handoff for this connector authority"
  else if (d.consumedAuthoritativeRoutes.get? (authoritativeRouteKey enc connectorId
      reservation.routeId reservation.localRouteKey jobId)).any (fun consumed =>
        consumed.outcome == .accepted || decide (reservation.generation ≤ consumed.generation)) then
    some "cloud route reservation generation was already consumed for this job route"
  else if d.handoffs.any (·.crossed connectorId jobId) then
    some "job already crossed or may have crossed native handoff"
  else if ((d.handoffs.filter fun handoff =>
      handoff.connectorId == connectorId && handoff.jobId == jobId).map
        (·.fencingGeneration)).max?.any (reservation.generation ≤ ·) then
    some "cloud route reservation generation is stale for this job"
  else none

/-- Is there no room for the barrier this reservation will need? -/
def barrierJournalFull (consumedKey : String) : Bool :=
  !d.consumedAuthoritativeRoutes.contains consumedKey
    && !(d.activeUnconsumed enc).contains consumedKey
    && decide (d.consumedAuthoritativeRoutes.size + (d.activeUnconsumed enc).length
        ≥ maxConsumedAuthoritativeRoutes)

/-- The durable form of an offered reservation. -/
def offered (connectorId jobId expectedRoute : String) (reservation : CloudRouteReservation) :
    DurableReservation where
  serverRouteId := some reservation.routeId
  localRouteKey := expectedRoute
  reservationId := reservation.reservationId
  connectorId := connectorId
  jobId := jobId
  generation := reservation.generation
  fencingToken := reservation.fencingToken
  expiresUnixMs := reservation.leaseExpiresAt.timestampMillis

/-- Is the offer the one the domain is already reserved for? -/
def sameOffer (existing : DurableReservation) (connectorId jobId : String)
    (reservation : CloudRouteReservation) : Bool :=
  existing.connectorId == connectorId
    && existing.jobId == jobId
    && existing.reservationId == reservation.reservationId
    && existing.generation == reservation.generation
    && existing.fencingToken == reservation.fencingToken
    && existing.serverRouteId == some reservation.routeId

def registerAuthoritativeInner (connectorId nativeId jobId : String)
    (reservation : CloudRouteReservation) (now : DateTime) :
    Fallible (AuthoritativeRouteRegistration × CoordinatorDocument) :=
  let expectedRoute := routeId enc d.installationNamespace nativeId
  if offerInvalid expectedRoute reservation now then
    bail "cloud route reservation is invalid for this installation route"
  else match d.replayRefusal enc connectorId jobId reservation with
  | some refusal => bail refusal
  | none =>
  match d.routes.values.find? (·.routeId == expectedRoute) with
  | none => bail "cloud reservation references an unknown local route"
  | some route =>
  match d.reservations.get? route.coordinationKey with
  | some existing =>
    if sameOffer existing connectorId jobId reservation then
      .ok (⟨existing.handle expectedRoute route.coordinationKey, false⟩, d)
    else bail "printer route already has an unresolved reservation"
  | none =>
    if route.coordinationConflict then
      bail "printer route has conflicting unresolved physical reservations"
    else if d.barrierJournalFull enc (authoritativeRouteKey enc connectorId reservation.routeId
        reservation.localRouteKey jobId) then
      bail "authoritative route replay barrier journal is full"
    else
      let durable := offered connectorId jobId expectedRoute reservation
      .ok (⟨durable.handle expectedRoute route.coordinationKey, true⟩,
        { d with reservations := d.reservations.insert route.coordinationKey durable })

/-! ### What a grant does -/

/-- Two route tables that agree up to their generation counters. -/
structure SameRoutes (routes routes' : SortedMap String DurableRoute) : Prop where
  of_mem : ∀ n R', (n, R') ∈ routes'.entries →
    ∃ R generation, (n, R) ∈ routes.entries ∧ R' = { R with generation := generation }
  mem : ∀ n R, (n, R) ∈ routes.entries →
    ∃ generation, (n, { R with generation := generation }) ∈ routes'.entries
  size : routes'.size ≤ routes.size

variable {enc d} {connectorId nativeId jobId : String} {d' : CoordinatorDocument}

theorem SameRoutes.refl (routes : SortedMap String DurableRoute) : SameRoutes routes routes :=
  ⟨fun _ R' h => ⟨R', R'.generation, h, rfl⟩, fun _ R h => ⟨R.generation, h⟩, le_rfl⟩

theorem bumpGeneration_spec (rid : String) :
    ∃ generation routes, d.bumpGeneration rid = (generation, { d with routes := routes }) ∧
      SameRoutes d.routes routes := by
  unfold bumpGeneration
  rcases e : d.routes.findEntry? fun _ route => route.routeId == rid with - | ⟨n₀, R₀⟩
  · exact ⟨1, d.routes, rfl, .refl _⟩
  obtain ⟨hmem, -⟩ := findEntry?_some e
  refine ⟨_, _, rfl, ?_, ?_, ?_⟩
  · intro n R' h
    rcases mem_insert.mp h with h | ⟨-, h⟩
    · cases h
      exact ⟨R₀, _, hmem, rfl⟩
    · exact ⟨R', R'.generation, h, rfl⟩
  · intro n R h
    by_cases hn : n = n₀
    · subst hn
      obtain ⟨-, rfl⟩ := Prod.mk.inj (eq_of_mem_of_mem h hmem rfl)
      exact ⟨_, mem_insert.mpr (.inl rfl)⟩
    · exact ⟨R.generation, mem_insert.mpr (.inr ⟨hn, h⟩)⟩
  · exact size_insert_le_of_contains (contains_iff.mpr ⟨R₀, hmem⟩)

/-- **When `reserve` succeeds**: the job never crossed handoff, and either it
already holds the domain or the domain is free and is granted. -/
theorem reserveInner_ok {nowUnixMs : Int} {reservationId fencingToken : Uuid} {r : RouteReservation}
    (h : d.reserveInner enc connectorId nativeId jobId nowUnixMs reservationId fencingToken =
      .ok (r, d')) : d.handoffs.any (·.crossed connectorId jobId) = false ∧
    ((∃ existing, d.reservations.get? (d.domainOf enc nativeId) = some existing ∧
        existing.jobId = jobId ∧ existing.connectorId = connectorId ∧
        r = existing.handle (routeId enc d.installationNamespace nativeId)
          (d.domainOf enc nativeId) ∧ d' = d) ∨
      (d.reservations.get? (d.domainOf enc nativeId) = none ∧
        d.handoffs.length + d.reservations.size < maxHandoffs ∧
        (∀ route, d.routes.get? nativeId = some route → route.coordinationConflict = false) ∧
        ∃ generation routes, SameRoutes d.routes routes ∧
          (r, d') = ((localReservation (routeId enc d.installationNamespace nativeId) connectorId
            jobId nowUnixMs reservationId fencingToken generation).handle
              (routeId enc d.installationNamespace nativeId) (d.domainOf enc nativeId), { d with
              routes := routes
              reservations := d.reservations.insert (d.domainOf enc nativeId)
                (localReservation (routeId enc d.installationNamespace nativeId) connectorId jobId
                  nowUnixMs reservationId fencingToken generation) }))) := by
  unfold reserveInner at h
  dsimp only at h
  split at h
  · cases h
  rename_i hc
  refine ⟨by simpa using hc, ?_⟩
  split at h
  · rename_i existing hr
    split at h
    · rename_i hsame
      obtain ⟨rfl, rfl⟩ := Prod.mk.inj (Except.ok.inj h)
      exact .inl ⟨existing, hr, hsame.1, hsame.2, rfl, rfl⟩
    · cases h
  · rename_i hr
    split at h
    · cases h
    rename_i hfull
    split at h
    · cases h
    rename_i hconf
    obtain ⟨generation, routes, e, hrts⟩ :=
      bumpGeneration_spec (d := d) (routeId enc d.installationNamespace nativeId)
    simp only [grantLocal, e] at h
    refine .inr ⟨hr, Nat.lt_of_not_le hfull, ?_, generation, routes, hrts,
      (Except.ok.inj h).symm⟩
    intro route hrt
    simpa [hrt] using hconf

/-- **When `register_authoritative` succeeds**: the offer is valid and not a
replay, its route is recorded, and either the domain is already reserved for
this very offer or it is free, not in conflict, and is granted. -/
theorem registerAuthoritativeInner_ok {reservation : CloudRouteReservation} {now : DateTime}
    {reg : AuthoritativeRouteRegistration}
    (h : d.registerAuthoritativeInner enc connectorId nativeId jobId reservation now =
      .ok (reg, d')) :
    offerInvalid (routeId enc d.installationNamespace nativeId) reservation now = false ∧
    d.replayRefusal enc connectorId jobId reservation = none ∧
    ∃ route, d.routes.values.find? (·.routeId == routeId enc d.installationNamespace nativeId) =
        some route ∧ ((∃ existing, d.reservations.get? route.coordinationKey = some existing ∧
          sameOffer existing connectorId jobId reservation = true ∧
          reg = ⟨existing.handle (routeId enc d.installationNamespace nativeId)
            route.coordinationKey, false⟩ ∧ d' = d) ∨
        (d.reservations.get? route.coordinationKey = none ∧ route.coordinationConflict = false ∧
          d.barrierJournalFull enc (authoritativeRouteKey enc connectorId reservation.routeId
            reservation.localRouteKey jobId) = false ∧
          reg = ⟨(offered connectorId jobId (routeId enc d.installationNamespace nativeId)
            reservation).handle (routeId enc d.installationNamespace nativeId)
              route.coordinationKey, true⟩ ∧ d' = { d with
            reservations := d.reservations.insert route.coordinationKey
              (offered connectorId jobId (routeId enc d.installationNamespace nativeId)
                reservation) })) := by
  unfold registerAuthoritativeInner at h
  dsimp only at h
  split at h
  · cases h
  rename_i hi
  refine ⟨by simpa using hi, ?_⟩
  split at h
  · cases h
  rename_i href
  refine ⟨href, ?_⟩
  split at h
  · cases h
  rename_i route hrt
  refine ⟨route, hrt, ?_⟩
  split at h
  · rename_i existing hr
    split at h
    · rename_i hsame
      obtain ⟨rfl, rfl⟩ := Prod.mk.inj (Except.ok.inj h)
      exact .inl ⟨existing, hr, hsame, rfl, rfl⟩
    · cases h
  · rename_i hr
    split at h
    · cases h
    rename_i hconf
    split at h
    · cases h
    rename_i hfull
    obtain ⟨rfl, rfl⟩ := Prod.mk.inj (Except.ok.inj h)
    exact .inr ⟨hr, by simpa using hconf, by simpa using hfull, rfl, rfl⟩

end CoordinatorDocument

end Piqae
