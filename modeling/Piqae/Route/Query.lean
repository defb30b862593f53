/-
Piqae/Route/Query.lean

What the node asks the coordinator between its two durable files
(`route_coordinator.rs`): the fences of a connector, the evidence of a handoff
by route proof, and the local evidence by job.
-/
import Piqae.Route.Handoff

namespace Piqae

/-- What the journal says about one exact attempt. -/
structure AuthoritativeHandoffResolution where
  outcome : NativeHandoffOutcome
  nativeJobId : Option String
  observedAt : DateTime
deriving DecidableEq, Repr

structure LocalHandoffResolutionTarget where
  ambiguityId : String
  localRouteKey : String
  reservationId : Uuid
  generation : Nat
deriving DecidableEq, Repr

structure LocalHandoffEvidence where
  jobId : String
  ambiguityId : String
  observedAt : DateTime
  outcome : NativeHandoffOutcome
  nativeJobId : Option String
deriving DecidableEq, Repr

/-- Does a handle belong to the authority's proof of a route? -/
def RouteReservation.matchesCloudProof (reservation : RouteReservation) (reservationId : String)
    (generation : Nat) (fencingToken : String) : Bool :=
  reservation.serverRouteId.isSome && reservation.reservationId.text == reservationId
    && reservation.generation == generation && reservation.fencingToken == fencingToken

namespace CoordinatorDocument

variable (enc : Encoders) (d : CoordinatorDocument)

/-- The jobs and handles of the fences of a connector that satisfy `p`. -/
def reservationsForConnector (connectorId : String) (p : DurableReservation → Bool) :
    List (String × RouteReservation) :=
  (d.reservations.entries.filter fun entry => entry.2.connectorId == connectorId && p entry.2).map
    fun entry => (entry.2.jobId, entry.2.handle entry.2.localRouteKey entry.1)

def authoritativeReservationsForConnector (connectorId : String) :
    List (String × RouteReservation) :=
  d.reservationsForConnector connectorId (·.serverRouteId.isSome)

def localReservationsForConnector (connectorId : String) : List (String × RouteReservation) :=
  d.reservationsForConnector connectorId (·.serverRouteId.isNone)

def hasHandoffForReservation (connectorId jobId : String) (reservation : RouteReservation) :
    Bool :=
  d.handoffs.any fun handoff =>
    handoff.connectorId == connectorId && handoff.jobId == jobId
      && handoff.reservationId == reservation.reservationId
      && handoff.fencingGeneration == reservation.generation
      && handoff.localRouteKey == reservation.localRouteKey

/-- The local-only record of a connector. -/
def localEvidence (connectorId : String) (handoff : DurableHandoff) : Bool :=
  handoff.connectorId == connectorId && handoff.serverRouteId.isNone

/-- The ambiguity id of a record. -/
def ambiguityId (handoff : DurableHandoff) : String :=
  localAmbiguityId enc handoff.connectorId handoff.jobId handoff.localRouteKey
    handoff.reservationId handoff.fencingGeneration

def localHandoffResolutionTarget (connectorId jobId : String) :
    Option LocalHandoffResolutionTarget :=
  (d.handoffs.reverse.find? fun handoff =>
    localEvidence connectorId handoff && handoff.jobId == jobId).map fun handoff =>
      { ambiguityId := ambiguityId enc handoff
        localRouteKey := handoff.localRouteKey
        reservationId := handoff.reservationId
        generation := handoff.fencingGeneration }

/-- The evidence of one exact attempt: its latest record, or else the barrier
it left. -/
def authoritativeHandoffForProof (connectorId jobId reservationId : String) (generation : Nat)
    (fencingToken : String) : Option AuthoritativeHandoffResolution :=
  match d.handoffs.reverse.find? fun handoff =>
      handoff.connectorId == connectorId && handoff.jobId == jobId
        && handoff.reservationId.text == reservationId
        && handoff.fencingGeneration == generation && handoff.fencingToken == fencingToken with
  | some handoff => some ⟨handoff.outcome, handoff.nativeJobId, handoff.observedAt⟩
  | none =>
    (d.consumedAuthoritativeRoutes.values.find? fun consumed =>
      consumed.connectorId == connectorId && consumed.jobId == jobId
        && consumed.reservationId.text == reservationId
        && consumed.generation == generation && consumed.fencingToken == fencingToken).map
      fun consumed => ⟨consumed.outcome, consumed.nativeJobId, consumed.observedAt⟩

def localHandoffsForConnector (connectorId : String) : List LocalHandoffEvidence :=
  (d.handoffs.filter (localEvidence connectorId)).map fun handoff =>
    { jobId := handoff.jobId
      ambiguityId := ambiguityId enc handoff
      observedAt := handoff.observedAt
      outcome := handoff.outcome
      nativeJobId := handoff.nativeJobId }

end CoordinatorDocument

end Piqae
