/-
Piqae/Route/Handoff.lean

The handoff journal of the coordinator (`route_coordinator.rs`): terminal and
ambiguous evidence, its acknowledgement and compaction, the resolution of an
ambiguity, and the replay barriers that outlive the evidence.
-/
import Piqae.Route.Reserve

namespace Piqae

inductive AmbiguousHandoffResolution
  | releaseForRetry
  | confirmAccepted
deriving DecidableEq, Repr

/-- The outcome a resolution stands for. -/
def AmbiguousHandoffResolution.outcome : AmbiguousHandoffResolution → NativeHandoffOutcome
  | releaseForRetry => .rejectedBeforeHandoff
  | confirmAccepted => .accepted

/-- The committed SQLite outcome of a local job, as compaction is told it. -/
structure LocalHandoffCommit where
  jobId : String
  state : String
  nativeJobId : Option String
  ambiguityConfirmed : Bool
deriving DecidableEq, Repr

/-- The identity under which an ambiguity is recorded, reserved and resolved. -/
structure HandoffIdentity where
  connectorId : String
  jobId : String
  localRouteKey : String
  reservationId : Uuid
  generation : Nat
deriving DecidableEq, Repr

def DurableHandoff.identity (handoff : DurableHandoff) : HandoffIdentity :=
  ⟨handoff.connectorId, handoff.jobId, handoff.localRouteKey, handoff.reservationId,
    handoff.fencingGeneration⟩

def DurableReservation.identity (reservation : DurableReservation) : HandoffIdentity :=
  ⟨reservation.connectorId, reservation.jobId, reservation.localRouteKey,
    reservation.reservationId, reservation.generation⟩

def ConsumedAuthoritativeRoute.identity (consumed : ConsumedAuthoritativeRoute) :
    HandoffIdentity :=
  ⟨consumed.connectorId, consumed.jobId, consumed.localRouteKey, consumed.reservationId,
    consumed.generation⟩

/-- The barrier that a terminated authoritative reservation leaves. -/
def DurableReservation.consumed (reservation : DurableReservation) (serverRouteId : String)
    (outcome : NativeHandoffOutcome) (nativeJobId : Option String) (observedAt : DateTime) :
    ConsumedAuthoritativeRoute where
  connectorId := reservation.connectorId
  serverRouteId := serverRouteId
  localRouteKey := reservation.localRouteKey
  jobId := reservation.jobId
  generation := reservation.generation
  reservationId := reservation.reservationId
  fencingToken := reservation.fencingToken
  observedAt := observedAt
  outcome := outcome
  nativeJobId := nativeJobId

namespace CoordinatorDocument

variable (enc : Encoders) (d : CoordinatorDocument)

/-! ### Terminal evidence -/

/-- Does the handle still name the reservation it was given for? -/
def validate (reservation : RouteReservation) : Fallible DurableReservation :=
  match d.reservations.get? reservation.coordinationKey with
  | none => bail "route reservation is no longer active"
  | some current =>
    if current.reservationId ≠ reservation.reservationId
        ∨ current.generation ≠ reservation.generation
        ∨ current.fencingToken ≠ reservation.fencingToken
        ∨ current.serverRouteId ≠ reservation.serverRouteId then
      bail "stale route fencing token"
    else .ok current

/-- Keep the barrier of a terminated authoritative reservation, at its highest
generation. -/
def recordConsumedAuthoritativeRoute (reservation : DurableReservation)
    (outcome : NativeHandoffOutcome) (nativeJobId : Option String) (observedAt : DateTime) :
    Fallible CoordinatorDocument :=
  match reservation.serverRouteId with
  | none => .ok d
  | some serverRouteId =>
    let key := authoritativeRouteKey enc reservation.connectorId serverRouteId
      reservation.localRouteKey reservation.jobId
    if !d.consumedAuthoritativeRoutes.contains key
        && decide (d.consumedAuthoritativeRoutes.size ≥ maxConsumedAuthoritativeRoutes) then
      bail "authoritative route replay barrier journal is full"
    else
      if (d.consumedAuthoritativeRoutes.get? key).any
          fun existing => decide (existing.generation ≥ reservation.generation) then .ok d
      else .ok { d with
        consumedAuthoritativeRoutes := d.consumedAuthoritativeRoutes.insert key
          (reservation.consumed serverRouteId outcome nativeJobId observedAt) }

/-- Append the evidence of one handoff to the journal. -/
def journalHandoff (connectorId jobId : String) (reservation : RouteReservation)
    (active : DurableReservation) (outcome : NativeHandoffOutcome) (nativeJobId : Option String)
    (observedAt : DateTime) : CoordinatorDocument :=
  let handoffSequence := saturatingAdd d.handoffSequence 1
  { d with
    handoffSequence := handoffSequence
    handoffs := d.handoffs ++ [{
      sequence := handoffSequence
      connectorId := connectorId
      serverRouteId := reservation.serverRouteId
      localRouteKey := reservation.localRouteKey
      jobId := jobId
      reservationId := reservation.reservationId
      fencingGeneration := reservation.generation
      fencingToken := active.fencingToken
      observedAt := observedAt
      outcome := outcome
      nativeJobId := nativeJobId }] }

def finishInner (connectorId jobId : String) (reservation : RouteReservation)
    (outcome : NativeHandoffOutcome) (nativeJobId : Option String) (observedAt : DateTime) :
    Fallible CoordinatorDocument := do
  let active ← d.validate reservation
  if active.connectorId ≠ connectorId ∨ active.jobId ≠ jobId then
    bail "terminal handoff evidence does not match the reserved connector job"
  else
    let d := d.journalHandoff connectorId jobId reservation active outcome nativeJobId observedAt
    -- an ambiguous outcome is no release signal: the fence stays
    if outcome = .ambiguous then .ok d
    else
      let d ← d.recordConsumedAuthoritativeRoute enc active outcome nativeJobId observedAt
      .ok { d with reservations := d.reservations.erase reservation.coordinationKey }

/-! ### Acknowledgement and compaction -/

def acknowledgeHandoffs (connectorId : String) (throughSequence : Nat) :
    Fallible CoordinatorDocument :=
  if !d.acknowledgedHandoffSequences.contains connectorId
      && decide (d.acknowledgedHandoffSequences.size ≥ maxAcknowledgedConnectors) then
    bail "handoff acknowledgement journal is full"
  else .ok { d with
    acknowledgedHandoffSequences := d.acknowledgedHandoffSequences.insert connectorId
      (match d.acknowledgedHandoffSequences.get? connectorId with
        | some current => max current throughSequence
        | none => throughSequence)
    handoffs := d.handoffs.filter fun handoff =>
      handoff.connectorId != connectorId || decide (handoff.sequence > throughSequence)
        || handoff.outcome == .ambiguous }

/-- The states of a job the spooler has taken and may still be working on. -/
def crossedStates : List String :=
  ["accepted_by_spooler", "spooling", "printing", "completed_reported", "blocked",
    "cancel_requested", "delivery_uncertain"]

/-- Has the job's queue durably adopted this outcome? -/
def durablyProjected (handoff : DurableHandoff) (commit : LocalHandoffCommit) : Bool :=
  match handoff.outcome with
  | .accepted =>
    let acceptedState := (crossedStates ++ ["cancelled", "failed_terminal"]).contains commit.state
    let confirmedWithoutNativeId := commit.state == "delivery_uncertain"
      && handoff.nativeJobId.isNone && commit.ambiguityConfirmed
    acceptedState && commit.nativeJobId == handoff.nativeJobId
      && (handoff.nativeJobId.isSome || commit.state != "delivery_uncertain"
        || confirmedWithoutNativeId)
  | .rejectedBeforeHandoff =>
    ["failed_retryable", "failed_terminal", "cancelled", "expired"].contains commit.state
      || (commit.nativeJobId.isSome && crossedStates.contains commit.state)
  | .ambiguous => false

/-- The last commit of a batch for a job: a later entry replaces an earlier. -/
def commitFor (commits : List LocalHandoffCommit) (jobId : String) : Option LocalHandoffCommit :=
  commits.reverse.find? (·.jobId == jobId)

/-- Does compaction keep this record? Only local terminal evidence whose
outcome is committed goes. -/
def keepsHandoff (connectorId : String) (commits : List LocalHandoffCommit)
    (handoff : DurableHandoff) : Bool :=
  if handoff.connectorId != connectorId || handoff.serverRouteId.isSome
      || handoff.outcome == .ambiguous then true
  else match commitFor commits handoff.jobId with
    | none => true
    | some commit => !durablyProjected handoff commit

/-- The number of records removed and the document without them. -/
def compactLocalTerminalHandoffs (connectorId : String) (commits : List LocalHandoffCommit) :
    Fallible (Nat × CoordinatorDocument) :=
  if commits.length > maxHandoffs then
    bail "local handoff commit batch exceeds supported bounds"
  else
    let kept := d.handoffs.filter (keepsHandoff connectorId commits)
    .ok (d.handoffs.length - kept.length, { d with handoffs := kept })

/-! ### Resolution of an ambiguity -/

/-- The latest record of an identity. -/
def latestHandoff (identity : HandoffIdentity) : Option DurableHandoff :=
  d.handoffs.reverse.find? (·.identity == identity)

/-- Replace the last element that satisfies `p`, and return it as it was. -/
def updateLast {α : Type} (p : α → Bool) (f : α → α) (l : List α) : Option (α × List α) :=
  match l with
  | [] => none
  | a :: l =>
    match updateLast p f l with
    | some (b, l') => some (b, a :: l')
    | none => if p a then some (a, f a :: l) else none

/-- An earlier resolution of this identity, from the barrier or the journal. -/
def priorResolution (identity : HandoffIdentity) : Option NativeHandoffOutcome :=
  match d.consumedAuthoritativeRoutes.values.find? (·.identity == identity) with
  | some consumed => some consumed.outcome
  | none => ((d.latestHandoff identity).filter (·.outcome != .ambiguous)).map (·.outcome)

/-- Resolve the ambiguity that still fences its route. -/
def resolveActive (identity : HandoffIdentity) (resolvedOutcome : NativeHandoffOutcome) :
    Fallible CoordinatorDocument := do
  let (coordinationKey, active) ←
    orBail (d.reservations.findEntry? fun _ reservation => reservation.identity == identity)
      "ambiguous route reservation does not match active fence"
  let (handoff, handoffs) ←
    orBail (updateLast
      (fun handoff => handoff.identity == identity && handoff.outcome == .ambiguous)
        (fun handoff => { handoff with outcome := resolvedOutcome }) d.handoffs)
      "matching native handoff is not ambiguous"
  let d ← { d with handoffs := handoffs }.recordConsumedAuthoritativeRoute enc active
    resolvedOutcome handoff.nativeJobId handoff.observedAt
  let acknowledged := (d.acknowledgedHandoffSequences.get? identity.connectorId).getD 0
  .ok { d with
    reservations := d.reservations.erase coordinationKey
    handoffs := if handoff.sequence ≤ acknowledged
      then d.handoffs.filter (·.sequence != handoff.sequence) else d.handoffs }

def resolveAmbiguousHandoffInner (identity : HandoffIdentity)
    (resolution : AmbiguousHandoffResolution) : Fallible CoordinatorDocument :=
  match d.priorResolution identity with
  | some outcome =>
    -- the coordinator's journal and the command cursor are separate stores, so a
    -- crash between them replays the command: the same resolution succeeds again
    if outcome = resolution.outcome then .ok d
    else bail "ambiguous handoff was already resolved differently"
  | none => d.resolveActive enc identity resolution.outcome

/-! ### What each operation does -/

variable {enc d} {d' : CoordinatorDocument} {outcome : NativeHandoffOutcome}
  {nativeJobId : Option String} {observedAt : DateTime} {connectorId : String}
  {reservation : RouteReservation}

theorem validate_ok {active : DurableReservation} (h : d.validate reservation = .ok active) :
    d.reservations.get? reservation.coordinationKey = some active ∧
      active.reservationId = reservation.reservationId ∧
      active.generation = reservation.generation ∧ active.fencingToken = reservation.fencingToken ∧
      active.serverRouteId = reservation.serverRouteId := by
  unfold validate at h
  split at h
  · cases h
  rename_i current hr
  split at h
  · cases h
  rename_i hstale
  cases h
  simp only [not_or, not_not] at hstale
  exact ⟨hr, hstale⟩

/-- A barrier is kept for an authoritative reservation only, if there is room,
and never over one of the same or a later generation. -/
theorem recordConsumedAuthoritativeRoute_ok {reservation : DurableReservation}
    (h : d.recordConsumedAuthoritativeRoute enc reservation outcome nativeJobId observedAt =
      .ok d') : (reservation.serverRouteId = none ∧ d' = d) ∨
    ∃ serverRouteId key, reservation.serverRouteId = some serverRouteId ∧
      key = authoritativeRouteKey enc reservation.connectorId serverRouteId
        reservation.localRouteKey reservation.jobId ∧
      (d.consumedAuthoritativeRoutes.contains key = true ∨
        d.consumedAuthoritativeRoutes.size < maxConsumedAuthoritativeRoutes) ∧
      ((∃ existing, d.consumedAuthoritativeRoutes.get? key = some existing ∧
          reservation.generation ≤ existing.generation ∧ d' = d) ∨
        ((∀ existing, d.consumedAuthoritativeRoutes.get? key = some existing →
            existing.generation < reservation.generation) ∧ d' = { d with
            consumedAuthoritativeRoutes := d.consumedAuthoritativeRoutes.insert key
              (reservation.consumed serverRouteId outcome nativeJobId observedAt) })) := by
  unfold recordConsumedAuthoritativeRoute at h
  rcases hs : reservation.serverRouteId with - | serverRouteId
  · rw [hs] at h
    exact .inl ⟨rfl, (Except.ok.inj h).symm⟩
  right
  rw [hs] at h
  dsimp only at h
  generalize hkey : authoritativeRouteKey enc reservation.connectorId serverRouteId
    reservation.localRouteKey reservation.jobId = key at h
  refine ⟨serverRouteId, key, rfl, hkey.symm, ?_⟩
  split at h
  · cases h
  rename_i hroom
  constructor
  · rcases hc : d.consumedAuthoritativeRoutes.contains key with - | -
    · right
      simpa [hc] using hroom
    · exact .inl rfl
  · split at h
    · rename_i hold
      rcases he : d.consumedAuthoritativeRoutes.get? key with - | existing
      · rw [he] at hold
        cases hold
      · rw [he] at hold
        exact .inl ⟨existing, rfl, by simpa using hold, (Except.ok.inj h).symm⟩
    · rename_i hnew
      refine .inr ⟨?_, (Except.ok.inj h).symm⟩
      intro existing he
      simpa [he] using hnew

theorem recordConsumedAuthoritativeRoute_frame {reservation : DurableReservation}
    (h : d.recordConsumedAuthoritativeRoute enc reservation outcome nativeJobId observedAt =
      .ok d') : d' = { d with consumedAuthoritativeRoutes := d'.consumedAuthoritativeRoutes } := by
  rcases recordConsumedAuthoritativeRoute_ok h with
    ⟨-, rfl⟩ | ⟨_, _, -, -, -, ⟨_, -, -, rfl⟩ | ⟨-, rfl⟩⟩ <;> rfl

/-- **When `finish` succeeds**: the handle names the active reservation of this
job; the evidence is journaled, and unless it is ambiguous the barrier is kept
and the fence removed. -/
theorem finishInner_ok {jobId : String}
    (h : d.finishInner enc connectorId jobId reservation outcome nativeJobId observedAt = .ok d') :
    ∃ active, d.validate reservation = .ok active ∧
      active.connectorId = connectorId ∧ active.jobId = jobId ∧ ((outcome = .ambiguous ∧
          d' = d.journalHandoff connectorId jobId reservation active outcome nativeJobId
            observedAt) ∨ (outcome ≠ .ambiguous ∧ ∃ d₁,
          (d.journalHandoff connectorId jobId reservation active outcome nativeJobId
            observedAt).recordConsumedAuthoritativeRoute enc active outcome nativeJobId
              observedAt = .ok d₁ ∧
          d' = { d₁ with reservations := d₁.reservations.erase reservation.coordinationKey })) := by
  unfold finishInner at h
  rcases hv : d.validate reservation with error | active
  · rw [hv] at h
    cases h
  refine ⟨active, rfl, ?_⟩
  rw [hv] at h
  simp only [bind, Except.bind] at h
  split at h
  · cases h
  rename_i hjob
  simp only [not_or, not_not] at hjob
  refine ⟨hjob.1, hjob.2, ?_⟩
  split at h
  · rename_i hamb
    exact .inl ⟨hamb, (Except.ok.inj h).symm⟩
  rename_i hamb
  split at h
  · cases h
  rename_i d₁ hd₁
  exact .inr ⟨hamb, d₁, hd₁, (Except.ok.inj h).symm⟩

theorem acknowledgeHandoffs_ok {throughSequence : Nat}
    (h : d.acknowledgeHandoffs connectorId throughSequence = .ok d') :
    (d.acknowledgedHandoffSequences.contains connectorId = true ∨
      d.acknowledgedHandoffSequences.size < maxAcknowledgedConnectors) ∧ d' = { d with
      acknowledgedHandoffSequences := d.acknowledgedHandoffSequences.insert connectorId
        (match d.acknowledgedHandoffSequences.get? connectorId with
          | some current => max current throughSequence
          | none => throughSequence)
      handoffs := d.handoffs.filter fun handoff =>
        handoff.connectorId != connectorId || decide (handoff.sequence > throughSequence)
          || handoff.outcome == .ambiguous } := by
  unfold acknowledgeHandoffs at h
  split at h
  · cases h
  rename_i hroom
  refine ⟨?_, (Except.ok.inj h).symm⟩
  rcases hc : d.acknowledgedHandoffSequences.contains connectorId with - | -
  · right
    simpa [hc] using hroom
  · exact .inl rfl

theorem compactLocalTerminalHandoffs_ok {commits : List LocalHandoffCommit} {removed : Nat}
    (h : d.compactLocalTerminalHandoffs connectorId commits = .ok (removed, d')) :
    d' = { d with handoffs := d.handoffs.filter (keepsHandoff connectorId commits) } := by
  unfold compactLocalTerminalHandoffs at h
  split at h
  · cases h
  · exact (Prod.mk.inj (Except.ok.inj h)).2.symm

/-- **When a resolution of an active fence succeeds**: the fence and an
ambiguous record of the identity exist; the record is resolved, the barrier is
kept, the fence is removed, and an acknowledged record is dropped. -/
theorem resolveActive_ok {identity : HandoffIdentity} {resolvedOutcome : NativeHandoffOutcome}
    (h : d.resolveActive enc identity resolvedOutcome = .ok d') :
    ∃ coordinationKey active handoff handoffs d₁,
      d.reservations.findEntry? (fun _ reservation => reservation.identity == identity) =
        some (coordinationKey, active) ∧
      updateLast (fun handoff => handoff.identity == identity && handoff.outcome == .ambiguous)
        (fun handoff => { handoff with outcome := resolvedOutcome }) d.handoffs =
          some (handoff, handoffs) ∧
      { d with handoffs := handoffs }.recordConsumedAuthoritativeRoute enc active
        resolvedOutcome handoff.nativeJobId handoff.observedAt = .ok d₁ ∧ d' = { d₁ with
        reservations := d₁.reservations.erase coordinationKey
        handoffs := if handoff.sequence ≤
            (d₁.acknowledgedHandoffSequences.get? identity.connectorId).getD 0
          then d₁.handoffs.filter (·.sequence != handoff.sequence) else d₁.handoffs } := by
  unfold resolveActive at h
  rcases hf : d.reservations.findEntry? fun _ reservation => reservation.identity == identity
    with - | ⟨coordinationKey, active⟩
  · rw [hf] at h
    cases h
  rcases hu : updateLast (fun handoff : DurableHandoff =>
      handoff.identity == identity && handoff.outcome == .ambiguous)
    (fun handoff => { handoff with outcome := resolvedOutcome }) d.handoffs
    with - | ⟨handoff, handoffs⟩
  · rw [hf, hu] at h
    cases h
  rw [hf, hu] at h
  simp only [orBail, bind, Except.bind] at h
  split at h
  · cases h
  · rename_i d₁ hd₁
    exact ⟨coordinationKey, active, handoff, handoffs, d₁, rfl, rfl, hd₁, (Except.ok.inj h).symm⟩

theorem resolveAmbiguousHandoffInner_ok {identity : HandoffIdentity}
    {resolution : AmbiguousHandoffResolution}
    (h : d.resolveAmbiguousHandoffInner enc identity resolution = .ok d') :
    (d.priorResolution identity = some resolution.outcome ∧ d' = d) ∨
      (d.priorResolution identity = none ∧
        d.resolveActive enc identity resolution.outcome = .ok d') := by
  unfold resolveAmbiguousHandoffInner at h
  split at h
  · rename_i outcome hp
    split at h
    · rename_i ho
      exact .inl ⟨ho ▸ hp, (Except.ok.inj h).symm⟩
    · cases h
  · rename_i hp
    exact .inr ⟨hp, h⟩

end CoordinatorDocument

end Piqae
