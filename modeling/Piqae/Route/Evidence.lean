/-
Piqae/Route/Evidence.lean

What a request does to the three tables that decide about a handoff: the
fences, the barriers and the handoff journal.  `attempt_effect` classifies it
once, and `attempt_fences` forgets the journal; the invariants of barriers and
ambiguities are proved from the classification, not from the operations.
-/
import Piqae.Route.Naming

namespace Piqae

/-! ### Authorities -/

/-- What a replay barrier is about: one job of one connector on one route, as
the control plane and as this installation name it. -/
structure RouteAuthority where
  connectorId : String
  serverRouteId : String
  localRouteKey : String
  jobId : String
deriving DecidableEq, Repr

def RouteAuthority.key (enc : Encoders) (a : RouteAuthority) : String :=
  authoritativeRouteKey enc a.connectorId a.serverRouteId a.localRouteKey a.jobId

def ConsumedAuthoritativeRoute.authority (b : ConsumedAuthoritativeRoute) : RouteAuthority :=
  ⟨b.connectorId, b.serverRouteId, b.localRouteKey, b.jobId⟩

/-- The authority of a reservation; a local-only one has none. -/
def DurableReservation.authority (r : DurableReservation) : Option RouteAuthority :=
  r.serverRouteId.map fun serverRouteId =>
    ⟨r.connectorId, serverRouteId, r.localRouteKey, r.jobId⟩

/-- The outcome with which a request terminates a reservation, if it can. -/
def Request.terminal : Request → Option NativeHandoffOutcome
  | .finish _ _ _ outcome _ _ _ => if outcome = .ambiguous then none else some outcome
  | .finishRuntime _ _ _ outcome _ _ _ _ => if outcome = .ambiguous then none else some outcome
  | .resolveAmbiguousHandoff _ resolution _ => some resolution.outcome
  | _ => none

/-- The identity under which `finish` records evidence on an active fence: the
fence's own, but with the route that the caller's handle names. -/
def DurableReservation.recordedAs (active : DurableReservation) (localRouteKey : String) :
    HandoffIdentity :=
  { active.identity with localRouteKey := localRouteKey }

/-- The connector, job and outcome of the evidence that a request records. -/
def Request.concludes : Request → Option (String × String × NativeHandoffOutcome)
  | .finish connectorId jobId _ outcome _ _ _ => some (connectorId, jobId, outcome)
  | .finishRuntime connectorId jobId _ outcome _ _ _ _ => some (connectorId, jobId, outcome)
  | .resolveAmbiguousHandoff identity resolution _ =>
    some (identity.connectorId, identity.jobId, resolution.outcome)
  | _ => none

/-- The connector whose terminal evidence a request removes. -/
def Request.curates : Request → Option String
  | .acknowledgeHandoffs connectorId _ _ => some connectorId
  | .compactLocalTerminalHandoffs connectorId _ _ => some connectorId
  | _ => none

/-- The handle a request finishes. -/
def Request.finishes : Request → Option (RouteReservation × NativeHandoffOutcome)
  | .finish _ _ handle outcome _ _ _ => some (handle, outcome)
  | .finishRuntime _ _ handle outcome _ _ _ _ => some (handle, outcome)
  | _ => none

namespace CoordinatorDocument

variable {enc : Encoders} {d d' : CoordinatorDocument} {active : DurableReservation}
  {outcome : NativeHandoffOutcome} {nativeJobId : Option String} {observedAt : DateTime}
  {request : Request} {α : Type} {connectorId jobId : String} {handle : RouteReservation}

theorem updateLast_eq_none {p : α → Bool} {f : α → α} {l : List α} (h : updateLast p f l = none) :
    ∀ x ∈ l, p x = false := by
  induction l with
  | nil => exact nofun
  | cons b l ih =>
    unfold updateLast at h
    rcases e : updateLast p f l with - | ⟨b', l₁⟩
    · rw [e] at h
      by_cases hb : p b = true
      · rw [if_pos hb] at h
        cases h
      · exact List.forall_mem_cons.mpr ⟨Bool.not_eq_true _ ▸ hb, ih e⟩
    · rw [e] at h
      cases h

/-- `updateLast` splits the list at the last element that satisfies `p`. -/
theorem updateLast_eq_some {p : α → Bool} {f : α → α} {l l' : List α} {a : α}
    (h : updateLast p f l = some (a, l')) :
    ∃ before after, l = before ++ a :: after ∧ l' = before ++ f a :: after ∧ p a = true ∧
      ∀ x ∈ after, p x = false := by
  induction l generalizing l' a with
  | nil => cases h
  | cons b l ih =>
    unfold updateLast at h
    rcases e : updateLast p f l with - | ⟨b', l₁⟩
    · rw [e] at h
      by_cases hb : p b = true
      · rw [if_pos hb] at h
        cases h
        refine ⟨[], l, rfl, rfl, hb, ?_⟩
        exact updateLast_eq_none e
      · rw [if_neg hb] at h
        cases h
    · rw [e] at h
      cases h
      obtain ⟨before, after, rfl, rfl, hp, haft⟩ := ih e
      exact ⟨b :: before, after, rfl, rfl, hp, haft⟩

/-! ### What requests do to fences and barriers -/

/-- `barriers'` is `barriers` after `active` was terminated with `outcome`. -/
def Consumes (enc : Encoders) (barriers barriers' : SortedMap String ConsumedAuthoritativeRoute)
    (active : DurableReservation) (outcome : NativeHandoffOutcome) : Prop :=
  (active.authority = none ∧ barriers' = barriers) ∨
  ∃ a b, active.authority = some a ∧ b.authority = a ∧ b.generation = active.generation ∧
    b.reservationId = active.reservationId ∧ b.fencingToken = active.fencingToken ∧
    b.outcome = outcome ∧
    ((∃ old, barriers.get? (a.key enc) = some old ∧ active.generation ≤ old.generation ∧
        barriers' = barriers) ∨
      ((∀ old, barriers.get? (a.key enc) = some old → old.generation < active.generation) ∧
        (barriers.contains (a.key enc) = true ∨
          barriers.size < maxConsumedAuthoritativeRoutes) ∧
        barriers' = barriers.insert (a.key enc) b))

theorem consumes_of_record
    (h : d.recordConsumedAuthoritativeRoute enc active outcome nativeJobId observedAt = .ok d') :
    Consumes enc d.consumedAuthoritativeRoutes d'.consumedAuthoritativeRoutes active outcome := by
  rcases recordConsumedAuthoritativeRoute_ok h with
    ⟨hs, rfl⟩ | ⟨serverRouteId, key, hs, rfl, hroom, hcases⟩
  · exact .inl ⟨by simp [DurableReservation.authority, hs], rfl⟩
  · right
    refine ⟨⟨active.connectorId, serverRouteId, active.localRouteKey, active.jobId⟩,
      active.consumed serverRouteId outcome nativeJobId observedAt,
      by simp [DurableReservation.authority, hs], rfl, rfl, rfl, rfl, rfl, ?_⟩
    rcases hcases with ⟨old, hold, hge, rfl⟩ | ⟨hnew, rfl⟩
    · exact .inl ⟨old, hold, hge, rfl⟩
    · exact .inr ⟨hnew, hroom, rfl⟩

/-- The reservation at `key` is terminated with `outcome`. -/
structure TerminatesAt (enc : Encoders) (d d' : CoordinatorDocument) (key : String)
    (active : DurableReservation) (outcome : NativeHandoffOutcome) : Prop where
  fenced : d.reservations.get? key = some active
  reservations : d'.reservations = d.reservations.erase key
  consumes : Consumes enc d.consumedAuthoritativeRoutes d'.consumedAuthoritativeRoutes active
    outcome

/-- A new fence for a valid offer that is no replay. -/
structure RegistersAt (enc : Encoders) (d d' : CoordinatorDocument) (request : Request)
    (key : String) (fence : DurableReservation) : Prop where
  reservations : d'.reservations = d.reservations.insert key fence
  free : d.reservations.get? key = none
  request : ∃ connectorId nativeId jobId reservation now fault,
    request = .registerAuthoritative connectorId nativeId jobId reservation now fault ∧
    fence = offered connectorId jobId (routeId enc d.installationNamespace nativeId) reservation ∧
    offerInvalid (routeId enc d.installationNamespace nativeId) reservation now = false ∧
    d.replayRefusal enc connectorId jobId reservation = none ∧
    d.barrierJournalFull enc (authoritativeRouteKey enc connectorId reservation.routeId
      reservation.localRouteKey jobId) = false

theorem terminatesAt_finishInner {reservation : RouteReservation} (houtcome : outcome ≠ .ambiguous)
    (h : d.finishInner enc connectorId jobId reservation outcome nativeJobId observedAt = .ok d') :
    ∃ active, TerminatesAt enc d d' reservation.coordinationKey active outcome := by
  obtain ⟨active, hval, -, -, ⟨hamb, -⟩ | ⟨-, d₁, hd₁, rfl⟩⟩ := finishInner_ok h
  · exact absurd hamb houtcome
  · have hcons := consumes_of_record hd₁
    refine ⟨active, (validate_ok hval).1, ?_, hcons⟩
    rw [recordConsumedAuthoritativeRoute_frame hd₁]
    rfl

theorem barrier_identity {a : RouteAuthority} {b : ConsumedAuthoritativeRoute}
    (ha : active.authority = some a) (hba : b.authority = a)
    (hgen : b.generation = active.generation) (hid : b.reservationId = active.reservationId) :
    b.identity = active.identity := by
  obtain ⟨serverRouteId, -, rfl⟩ := Option.map_eq_some_iff.mp ha
  obtain ⟨hc, -, hl, hj⟩ := RouteAuthority.mk.inj hba
  rw [ConsumedAuthoritativeRoute.identity, hc, hl, hj, hgen, hid]
  rfl

/-- The barrier a termination leaves is the one of its fence. -/
theorem TerminatesAt.barrier_of_mem {key : String} (h : TerminatesAt enc d d' key active outcome)
    {barrier : ConsumedAuthoritativeRoute} (hb : barrier ∈ d'.consumedAuthoritativeRoutes.values) :
    barrier ∈ d.consumedAuthoritativeRoutes.values ∨
      active.authority = some barrier.authority ∧ barrier.identity = active.identity ∧
        barrier.outcome = outcome := by
  rcases h.consumes with ⟨-, hsame⟩ | ⟨a, b, ha, hba, hgen, hid, -, hout, ⟨_, -, -, hsame⟩ |
    ⟨-, -, hins⟩⟩
  · exact .inl (hsame ▸ hb)
  · exact Or.inl (hsame ▸ hb)
  obtain ⟨k, hb⟩ := SortedMap.mem_values.mp hb
  rw [hins] at hb
  rcases SortedMap.mem_insert.mp hb with hb | ⟨-, hb⟩
  · right
    cases hb
    exact ⟨hba ▸ ha, barrier_identity ha hba hgen hid, hout⟩
  · exact Or.inl (SortedMap.mem_values.mpr ⟨k, hb⟩)

/-! ### The classification -/

/-- What `finish` does: one record, and the fence of a terminal outcome. -/
structure Finished (enc : Encoders) (d d' : CoordinatorDocument) (connectorId jobId : String)
    (handle : RouteReservation) (outcome : NativeHandoffOutcome) (active : DurableReservation)
    (record : DurableHandoff) : Prop where
  valid : d.validate handle = .ok active
  owner : active.connectorId = connectorId ∧ active.jobId = jobId
  identity : record.identity = active.recordedAs handle.localRouteKey
  serverRouteId : record.serverRouteId = active.serverRouteId
  recorded : record.outcome = outcome
  sequence : record.sequence = saturatingAdd d.handoffSequence 1
  handoffSequence : d'.handoffSequence = saturatingAdd d.handoffSequence 1
  handoffs : d'.handoffs = d.handoffs ++ [record]
  fences : (outcome = .ambiguous ∧ d'.reservations = d.reservations ∧
      d'.consumedAuthoritativeRoutes = d.consumedAuthoritativeRoutes) ∨
    (outcome ≠ .ambiguous ∧ TerminatesAt enc d d' handle.coordinationKey active outcome)

theorem finished_of_finishInner
    (h : d.finishInner enc connectorId jobId handle outcome nativeJobId observedAt = .ok d') :
    ∃ active record, Finished enc d d' connectorId jobId handle outcome active record := by
  obtain ⟨active, hval, hc, hj, hcases⟩ := finishInner_ok h
  obtain ⟨-, hid, hgen, -, hsrv⟩ := validate_ok hval
  have hident : ∀ record : DurableHandoff, record.connectorId = connectorId →
      record.jobId = jobId → record.localRouteKey = handle.localRouteKey →
      record.reservationId = handle.reservationId → record.fencingGeneration = handle.generation →
      record.identity = active.recordedAs handle.localRouteKey := by
    intro record h₁ h₂ h₃ h₄ h₅
    rw [DurableHandoff.identity, h₁, h₂, h₃, h₄, h₅, ← hc, ← hj, ← hid, ← hgen]
    rfl
  rcases hcases with ⟨hamb, rfl⟩ | ⟨hne, d₁, hd₁, rfl⟩
  · exact ⟨active, _, hval, ⟨hc, hj⟩, hident _ rfl rfl rfl rfl rfl, hsrv.symm, rfl, rfl, rfl,
      rfl, .inl ⟨hamb, rfl, rfl⟩⟩
  · obtain ⟨active', hterm⟩ := terminatesAt_finishInner hne h
    obtain rfl := Option.some.inj ((validate_ok hval).1.symm.trans hterm.fenced)
    rw [recordConsumedAuthoritativeRoute_frame hd₁] at hterm ⊢
    exact ⟨active, _, hval, ⟨hc, hj⟩, hident _ rfl rfl rfl rfl rfl, hsrv.symm, rfl, rfl, rfl,
      rfl, .inr ⟨hne, hterm⟩⟩

/-- What the resolution of an active fence does: its last ambiguous record is
resolved, and stays in the journal unless it has been acknowledged. -/
structure Resolved (enc : Encoders) (d d' : CoordinatorDocument) (identity : HandoffIdentity)
    (outcome : NativeHandoffOutcome) (key : String) (active : DurableReservation)
    (record : DurableHandoff) (before after : List DurableHandoff) : Prop where
  fence : active.identity = identity
  terminates : TerminatesAt enc d d' key active outcome
  recorded : record.identity = identity
  ambiguous : record.outcome = .ambiguous
  split : d.handoffs = before ++ record :: after
  last : ∀ handoff ∈ after, handoff.identity = identity → handoff.outcome ≠ .ambiguous
  handoffSequence : d'.handoffSequence = d.handoffSequence
  handoffs : d'.handoffs =
    if record.sequence ≤ (d.acknowledgedHandoffSequences.get? identity.connectorId).getD 0
    then (before ++ { record with outcome := outcome } :: after).filter
      (·.sequence != record.sequence)
    else before ++ { record with outcome := outcome } :: after

/-- What a request does to fences, barriers and the handoff journal. -/
inductive Effect (enc : Encoders) (d d' : CoordinatorDocument) (request : Request) : Prop
  /-- Nothing. -/
  | frame (reservations : d'.reservations = d.reservations)
      (barriers : d'.consumedAuthoritativeRoutes = d.consumedAuthoritativeRoutes)
      (handoffs : d'.handoffs = d.handoffs)
      (handoffSequence : d'.handoffSequence = d.handoffSequence)
  /-- Records of one connector go, but no ambiguous one. -/
  | compaction (connectorId : String) (keep : DurableHandoff → Bool)
      (curates : request.curates = some connectorId)
      (ambiguous : ∀ handoff, handoff.outcome = .ambiguous → keep handoff = true)
      (others : ∀ handoff, handoff.connectorId ≠ connectorId → keep handoff = true)
      (reservations : d'.reservations = d.reservations)
      (barriers : d'.consumedAuthoritativeRoutes = d.consumedAuthoritativeRoutes)
      (handoffs : d'.handoffs = d.handoffs.filter keep)
      (handoffSequence : d'.handoffSequence = d.handoffSequence)
  /-- A local fence on a free domain, under an id that was drawn for it. -/
  | localGrant (key : String) (fence : DurableReservation)
      (free : d.reservations.get? key = none)
      (request : ∃ nativeId now fencingToken fault, request = .reserve fence.connectorId nativeId
        fence.jobId now fence.reservationId fencingToken fault)
      (isLocal : fence.serverRouteId = none)
      (reservations : d'.reservations = d.reservations.insert key fence)
      (barriers : d'.consumedAuthoritativeRoutes = d.consumedAuthoritativeRoutes)
      (handoffs : d'.handoffs = d.handoffs)
      (handoffSequence : d'.handoffSequence = d.handoffSequence)
  /-- A fence for an offer. -/
  | registration (key : String) (fence : DurableReservation)
      (registers : RegistersAt enc d d' request key fence)
      (barriers : d'.consumedAuthoritativeRoutes = d.consumedAuthoritativeRoutes)
      (handoffs : d'.handoffs = d.handoffs)
      (handoffSequence : d'.handoffSequence = d.handoffSequence)
  /-- Evidence on an active fence. -/
  | finish (connectorId jobId : String) (handle : RouteReservation)
      (outcome : NativeHandoffOutcome) (active : DurableReservation) (record : DurableHandoff)
      (concludes : request.concludes = some (connectorId, jobId, outcome))
      (finishes : request.finishes = some (handle, outcome))
      (finished : Finished enc d d' connectorId jobId handle outcome active record)
  /-- The resolution of an ambiguity. -/
  | resolution (identity : HandoffIdentity) (resolution : AmbiguousHandoffResolution)
      (fault : Fault) (key : String) (active : DurableReservation) (record : DurableHandoff)
      (before after : List DurableHandoff)
      (request : request = .resolveAmbiguousHandoff identity resolution fault)
      (resolved : Resolved enc d d' identity resolution.outcome key active record before after)

theorem resolution_outcome_ne (resolution : AmbiguousHandoffResolution) :
    resolution.outcome ≠ .ambiguous := by
  cases resolution <;> decide

theorem resolved_of_resolveActive {identity : HandoffIdentity}
    (h : d.resolveActive enc identity outcome = .ok d') : ∃ key active record before after,
      Resolved enc d d' identity outcome key active record before after := by
  obtain ⟨key, active, record, handoffs, d₁, hfind, hu, hd₁, rfl⟩ := resolveActive_ok h
  obtain ⟨hmem, hid⟩ := SortedMap.findEntry?_some hfind
  obtain ⟨before, after, hsplit, rfl, hrec, hlast⟩ := updateLast_eq_some hu
  simp only [Bool.and_eq_true, beq_iff_eq] at hrec
  have hcons := consumes_of_record hd₁
  refine ⟨key, active, record, before, after, beq_iff_eq.mp hid, ?_, hrec.1, hrec.2, hsplit,
    ?_, ?_, ?_⟩
  · refine ⟨SortedMap.get?_eq_some_iff.mpr hmem, ?_, hcons⟩
    rw [recordConsumedAuthoritativeRoute_frame hd₁]
  · intro handoff hh hident hamb
    have hfalse := hlast handoff hh
    simp [hident, hamb] at hfalse
  · rw [recordConsumedAuthoritativeRoute_frame hd₁]
  · rw [recordConsumedAuthoritativeRoute_frame hd₁]

/-- **What a request does** to fences, barriers and the handoff journal. -/
theorem attempt_effect (h : d.attempt enc request = .ok d') : Effect enc d d' request := by
  cases request
  case reconcile =>
    cases h
    rw [topologyOnly_reconcile]
    exact .frame rfl rfl rfl rfl
  case allocateObservationSequences =>
    simp only [attempt, RouteCoordinator.reserveObservations] at h
    split at h
    · cases h
    · cases h
      exact .frame rfl rfl rfl rfl
  case reserve =>
    obtain ⟨⟨r, d₁⟩, hr, rfl⟩ := Except.map_eq_ok h
    rcases (reserveInner_ok hr).2 with ⟨_, -, -, -, -, rfl⟩ | ⟨hfree, -, -, _, _, -, ⟨⟩⟩
    · exact .frame rfl rfl rfl rfl
    · exact .localGrant _ _ hfree ⟨_, _, _, _, rfl⟩ rfl rfl rfl rfl rfl
  case registerAuthoritative =>
    obtain ⟨⟨reg, d₁⟩, hr, rfl⟩ := Except.map_eq_ok h
    obtain ⟨hval, hrep, route, hfind, ⟨_, -, -, -, rfl⟩ | ⟨hfree, -, hroom, -, rfl⟩⟩ :=
      registerAuthoritativeInner_ok hr
    · exact .frame rfl rfl rfl rfl
    · exact .registration _ _ ⟨rfl, hfree, _, _, _, _, _, _, rfl, rfl, hval, hrep, hroom⟩
        rfl rfl rfl
  case finish | finishRuntime =>
    obtain ⟨active, record, hspec⟩ := finished_of_finishInner h
    exact .finish _ _ _ _ active record rfl rfl hspec
  case acknowledgeHandoffs connectorId throughSequence fault =>
    obtain ⟨-, rfl⟩ := acknowledgeHandoffs_ok h
    refine .compaction connectorId _ rfl ?_ ?_ rfl rfl rfl rfl
    · intro handoff hamb
      simp [hamb]
    · intro handoff hc
      simp [hc]
  case compactLocalTerminalHandoffs connectorId commits fault =>
    obtain ⟨⟨removed, d₁⟩, hr, rfl⟩ := Except.map_eq_ok h
    obtain rfl := compactLocalTerminalHandoffs_ok hr
    refine .compaction connectorId _ rfl ?_ ?_ rfl rfl rfl rfl
    · intro handoff hamb
      simp [keepsHandoff, hamb]
    · intro handoff hc
      simp [keepsHandoff, hc]
  case resolveAmbiguousHandoff identity resolution fault =>
    rcases resolveAmbiguousHandoffInner_ok h with ⟨-, rfl⟩ | ⟨-, hr⟩
    · exact .frame rfl rfl rfl rfl
    · obtain ⟨key, active, record, before, after, hspec⟩ := resolved_of_resolveActive hr
      exact .resolution identity resolution fault key active record before after rfl hspec

theorem terminal_of_finishes (h : request.finishes = some (handle, outcome))
    (hne : outcome ≠ .ambiguous) : request.terminal = some outcome := by
  cases request
  case finish =>
    cases h
    exact if_neg hne
  case finishRuntime =>
    cases h
    exact if_neg hne
  all_goals cases h

/-- **What a request does to fences and barriers**: nothing, or a new local
fence, or a new fence for an offer, or the termination of one fence. -/
theorem attempt_fences (h : d.attempt enc request = .ok d') : (d'.reservations = d.reservations ∧
      d'.consumedAuthoritativeRoutes = d.consumedAuthoritativeRoutes) ∨
    (d'.consumedAuthoritativeRoutes = d.consumedAuthoritativeRoutes ∧ ∃ key fence,
      d.reservations.get? key = none ∧ d'.reservations = d.reservations.insert key fence ∧
        fence.serverRouteId = none) ∨
    (d'.consumedAuthoritativeRoutes = d.consumedAuthoritativeRoutes ∧ ∃ key fence,
      RegistersAt enc d d' request key fence) ∨
    (∃ key active outcome, request.terminal = some outcome ∧
      TerminatesAt enc d d' key active outcome) := by
  rcases attempt_effect h with ⟨hres, hcons, -, -⟩ | ⟨-, -, -, -, -, hres, hcons, -, -⟩ |
    ⟨key, fence, hfree, -, hloc, hres, hcons, -, -⟩ | ⟨key, fence, hreg, hcons, -, -⟩ |
    ⟨_, _, handle, outcome, active, _, -, hfin, hspec⟩ |
    ⟨_, resolution, _, key, active, _, _, _, rfl, hspec⟩
  · exact .inl ⟨hres, hcons⟩
  · exact .inl ⟨hres, hcons⟩
  · exact .inr (.inl ⟨hcons, key, fence, hfree, hres, hloc⟩)
  · exact .inr (.inr (.inl ⟨hcons, key, fence, hreg⟩))
  · rcases hspec.fences with ⟨-, hres, hcons⟩ | ⟨hne, hterm⟩
    · exact .inl ⟨hres, hcons⟩
    · exact .inr (.inr (.inr ⟨_, active, outcome, terminal_of_finishes hfin hne, hterm⟩))
  · exact .inr (.inr (.inr ⟨key, active, _, rfl, hspec.terminates⟩))

end CoordinatorDocument

end Piqae
