/-
Piqae/Server/Rollback.lean

What a refused call of the in-memory topology repository leaves behind.  The
PostgreSQL repository runs each call in a transaction and rolls it back; the
in-memory one checks and writes under one lock, and three of its calls write
before their last check:

* `begin_delivery_attempt` retires leases that ran out, and then may find the
  job, the route or the destination busy;
* `record_identity_decision` rejects a match destination by destination, and
  stops at the first that does not exist;
* `renew_delivery_attempt` moves the lease of the attempt, and then looks at the
  reservation.

The module says for every call when a refusal leaves the repository as it was.
-/
import Piqae.Server.Fence

namespace Piqae.Server

open SortedMap

/-! ### Observations of routes -/

structure RouteObservation where
  id : String
  routeId : String
  sequence : Nat
  printerState : String
  acceptingJobs : Option Bool
  stateReasons : List String
  totalJobs : Nat
  connectorJobs : Nat
  otherPiqaeOrExternalJobs : Nat
  unknownJobs : Nat
  activeJobs : Nat
  heldJobs : Nat
  estimatedBusySeconds : Option Nat
  privacyLevel : String
  /-- A JSON value, as its text. -/
  stockState : String
  observedAt : DateTime
  freshUntil : DateTime
deriving DecidableEq, Repr

/-- The instant in microseconds; PostgreSQL keeps no more of it. -/
def timestampMicros (t : DateTime) : Int := t / 1000

def routeObservationsSemanticallyEqual (stored submitted : RouteObservation) : Bool :=
  if timestampMicros stored.observedAt != timestampMicros submitted.observedAt ||
      timestampMicros stored.freshUntil != timestampMicros submitted.freshUntil then false
  else
    { stored with
      id := submitted.id
      observedAt := submitted.observedAt
      freshUntil := submitted.freshUntil } == submitted

/-- The repository: its topology, and what was observed on its routes. -/
structure Repository where
  topology : Topology
  observations : Table (List RouteObservation)
deriving DecidableEq

inductive RepositoryOp
  | topology (op : TopologyOp)
  | recordRouteObservation (scope : TenantScope) (observation : RouteObservation)
deriving DecidableEq

namespace Repository

def recordRouteObservation (r : Repository) (scope : TenantScope) (observation : RouteObservation) :
    Except StorageError Unit × Repository :=
  if !r.topology.tables.routes.contains ⟨scope, observation.routeId⟩ then (.error .notFound, r)
  else
    let items := (r.observations.get? ⟨scope, observation.routeId⟩).getD []
    match items.find? fun item => item.sequence == observation.sequence with
    | some existing =>
      if routeObservationsSemanticallyEqual existing observation then (.ok (), r)
      else (.error .idempotencyConflict, r)
    | none =>
      if (items.map fun item => item.sequence).max?.any fun latest =>
          decide (observation.sequence ≤ latest) then
        (.error .concurrentStateChange, r)
      else
        (.ok (), { r with
          observations :=
            r.observations.insert ⟨scope, observation.routeId⟩ (items ++ [observation]) })

end Repository

/-! ### What a call returns -/

/-- The answer of a call, without the rows it carries. -/
def TopologyOp.result (digest : String → String) (t : Topology) :
    TopologyOp → Except StorageError Unit
  | .upsertDestination .. => .ok ()
  | .resolveRoute scope choice route =>
    (t.tables.resolveRoute scope choice route).map fun _ => ()
  | .storeRoute _ => .ok ()
  | .recordIdentityEvidence scope evidence => (t.tables.recordIdentityEvidence scope evidence).1
  | .recordIdentityDecision scope now decision =>
    (t.tables.recordIdentityDecision scope now decision).1
  | .reverseIdentityDecision scope reversal => (t.tables.reverseIdentityDecision scope reversal).1
  | .beginDeliveryAttempt scope now choices token request =>
    (t.tables.beginDeliveryAttempt scope now digest choices token request).1.map fun _ => ()
  | .transitionDeliveryAttempt scope now choice attemptId generation token next =>
    (t.tables.transitionDeliveryAttempt scope now digest choice attemptId generation token
      next).1.map fun _ => ()
  | .transitionPostSpoolerAttempt scope now choices jobId agentId routeId next =>
    (t.tables.transitionPostSpoolerAttempt scope now choices jobId agentId routeId
      next).1.map fun _ => ()
  | .markPostSpoolerAttemptUncertain scope now choices jobId =>
    (t.tables.markPostSpoolerAttemptUncertain scope now choices jobId).1.map fun _ => ()
  | .renewDeliveryAttempt scope now reservationId generation token leaseUntil =>
    (t.tables.renewDeliveryAttempt scope now digest reservationId generation token
      leaseUntil).1.map fun _ => ()
  | .enqueueDeliveryUncertaintyResolution scope now choices jobId resolution note actorId
      requestId =>
    (t.tables.enqueueDeliveryUncertaintyResolution scope now choices jobId resolution note actorId
      requestId).1.map fun _ => ()
  | .acknowledgeUncertaintyResolutionCommand scope cursor =>
    (t.tables.acknowledgeUncertaintyResolutionCommand scope cursor).1
  | .finalizeDeliveryUncertaintyResolution scope now requestId =>
    (t.tables.finalizeDeliveryUncertaintyResolution scope now requestId).1.map fun _ => ()
  | .recomputeDestinationAttention scope now destinationId =>
    (t.tables.recomputeDestinationAttention scope now destinationId).1.map fun _ => ()
  | .revokeAgentTopology .. => .ok ()

namespace Repository

variable (digest : String → String)

/-- A call: its answer, and the repository after it. -/
def call (r : Repository) : RepositoryOp → Except StorageError Unit × Repository
  | .topology op => (op.result digest r.topology, { r with topology := r.topology.step digest op })
  | .recordRouteObservation scope observation => r.recordRouteObservation scope observation

def initial : Repository := ⟨.initial, .empty⟩

abbrev run (l : List RepositoryOp) : Repository :=
  Run.exec (fun r op => (r.call digest op).2) initial l

end Repository

/-! ### Calls that check before they write -/

namespace MemoryState

variable {s : MemoryState} {scope : TenantScope} {now : DateTime} {digest : String → String}
  {confidence : IdentityConfidence} {destination : StoredPhysicalDestination}
  {id token jobId : String} {error : StorageError} {choice : Key} {key reservationChoice : Key}
  {decision : IdentityDecision} {destinationId : String} {e : Key × DeliveryAttempt}
  {choices : Choices} {request : NewDeliveryAttempt} {s' : MemoryState}
  {attemptId agentId routeId reservationId resolution actorId requestId : String}
  {generation cursor : Nat} {next : DeliveryAttemptState} {note : Option String}

/-- If the call failed, the tables are those it was made on. -/
def Atomic {α : Type} (s : MemoryState) (outcome : Outcome α) : Prop :=
  ∀ error, outcome.1 = .error error → outcome.2 = s

theorem atomic_recordIdentityEvidence {evidence : IdentityEvidence} :
    s.Atomic (s.recordIdentityEvidence scope evidence) := by
  unfold Atomic
  fun_cases recordIdentityEvidence s scope evidence <;> simp

theorem atomic_regroup : s.Atomic (s.regroup scope now decision) := by
  unfold Atomic
  fun_cases regroup s scope now decision <;> simp

theorem atomic_reverseIdentityDecision : s.Atomic (s.reverseIdentityDecision scope decision) := by
  unfold Atomic
  fun_cases reverseIdentityDecision s scope decision <;> simp

theorem atomic_transitionDeliveryAttempt : s.Atomic
      (s.transitionDeliveryAttempt scope now digest choice attemptId generation token next) := by
  unfold Atomic
  fun_cases transitionDeliveryAttempt s scope now digest choice attemptId generation token next <;>
    simp

theorem atomic_transitionPostSpoolerAttempt :
    s.Atomic (s.transitionPostSpoolerAttempt scope now choices jobId agentId routeId next) := by
  unfold Atomic
  fun_cases transitionPostSpoolerAttempt s scope now choices jobId agentId routeId next <;>
    simp [settleAttempt]

theorem atomic_markPostSpoolerAttemptUncertain :
    s.Atomic (s.markPostSpoolerAttemptUncertain scope now choices jobId) := by
  unfold Atomic
  fun_cases markPostSpoolerAttemptUncertain s scope now choices jobId <;> simp [settleAttempt]

theorem atomic_enqueueDeliveryUncertaintyResolution :
    s.Atomic (s.enqueueDeliveryUncertaintyResolution scope now choices jobId resolution note actorId
      requestId) := by
  unfold Atomic
  fun_cases enqueueDeliveryUncertaintyResolution s scope now choices jobId resolution note actorId
    requestId <;> simp

theorem atomic_acknowledgeUncertaintyResolutionCommand :
    s.Atomic (s.acknowledgeUncertaintyResolutionCommand scope cursor) := by
  unfold Atomic
  fun_cases acknowledgeUncertaintyResolutionCommand s scope cursor <;> simp

theorem atomic_finalizeDeliveryUncertaintyResolution :
    s.Atomic (s.finalizeDeliveryUncertaintyResolution scope now requestId) := by
  unfold Atomic
  fun_cases finalizeDeliveryUncertaintyResolution s scope now requestId <;> simp

theorem atomic_recomputeDestinationAttention :
    s.Atomic (s.recomputeDestinationAttention scope now destinationId) := by
  unfold Atomic
  fun_cases recomputeDestinationAttention s scope now destinationId <;> simp

/-! ### Rejected matches -/

/-- A row that is graded once more. -/
def grade (confidence : IdentityConfidence) (destination : StoredPhysicalDestination) :
    StoredPhysicalDestination :=
  { destination with
    identityConfidence := confidence
    identityRevision := saturatingAdd destination.identityRevision 1 }

theorem grade_iterate (confidence : IdentityConfidence) (destination : StoredPhysicalDestination)
    (n : Nat) : (grade confidence)^[n + 1] destination = { destination with
        identityConfidence := confidence
        identityRevision := saturatingAdd destination.identityRevision (n + 1) } := by
  induction n with
  | zero => rfl
  | succ n ih =>
    rw [Function.iterate_succ_apply', ih]
    simp only [grade, StoredPhysicalDestination.mk.injEq, true_and, and_true, saturatingAdd]
    omega

/-- Grading does not come back to a row: the revision only grows, up to the last. -/
theorem grade_eq_of_iterate {n : Nat} (h : (grade confidence)^[n + 1] destination = destination) :
    grade confidence destination = destination := by
  rw [grade_iterate] at h
  have hrev : saturatingAdd destination.identityRevision (n + 1) =
      destination.identityRevision := congrArg (·.identityRevision) h
  have hconfidence : confidence = destination.identityConfidence :=
    congrArg (·.identityConfidence) h
  have hlast : saturatingAdd destination.identityRevision 1 = destination.identityRevision := by
    simp only [saturatingAdd] at hrev ⊢
    omega
  rw [grade, hlast, hconfidence]

theorem grade_eq_self_iff : grade confidence destination = destination ↔
      destination.identityConfidence = confidence ∧ destination.identityRevision = u64Max := by
  obtain ⟨_, _, stored, _, _, revision, _, _⟩ := destination
  simp only [grade, StoredPhysicalDestination.mk.injEq, saturatingAdd, true_and, and_true]
  refine and_congr eq_comm ?_
  omega

/-- The tables with one destination graded. -/
def graded (s : MemoryState) (scope : TenantScope) (confidence : IdentityConfidence)
    (id : String) : MemoryState :=
  { s with destinations := s.destinations.modify ⟨scope, id⟩ (grade confidence) }

theorem gradeDestinations_cons_of_contains (h : s.destinations.contains ⟨scope, id⟩ = true)
    (ids : List String) : gradeDestinations confidence s scope (id :: ids) =
      gradeDestinations confidence (s.graded scope confidence id) scope ids := by
  rw [gradeDestinations, gradeDestination, if_pos h]
  rfl

theorem gradeDestinations_cons_of_not_contains (h : s.destinations.contains ⟨scope, id⟩ = false)
    (ids : List String) :
    gradeDestinations confidence s scope (id :: ids) = (.error .notFound, s) := by
  rw [gradeDestinations, gradeDestination, if_neg (by simp [h])]

theorem graded_eq_self_iff : s.graded scope confidence id = s ↔
      ∀ destination ∈ s.destinations.get? ⟨scope, id⟩,
        grade confidence destination = destination := by
  rw [← modify_eq_self_iff]
  constructor
  · exact congrArg MemoryState.destinations
  · intro h
    rw [graded, h]

/-- Whatever the loop does, a row was graded some number of times. -/
theorem gradeDestinations_get? (ids : List String)
    (h : s.destinations.get? key = some destination) :
    ∃ n, (gradeDestinations confidence s scope ids).2.destinations.get? key =
      some ((grade confidence)^[n] destination) := by
  induction ids generalizing s destination with
  | nil => exact ⟨0, h⟩
  | cons id ids ih =>
    rcases hpres : s.destinations.contains ⟨scope, id⟩ with - | -
    · rw [gradeDestinations_cons_of_not_contains hpres]
      exact ⟨0, h⟩
    rw [gradeDestinations_cons_of_contains hpres]
    have hrow : (s.graded scope confidence id).destinations.get? key =
        if key = ⟨scope, id⟩ then some (grade confidence destination) else some destination := by
      rw [graded, get?_modify]
      split
      · next hkey => rw [← hkey, h]; rfl
      · exact h
    split_ifs at hrow with hkey
    · obtain ⟨n, hn⟩ := ih hrow
      exact ⟨n + 1, hn⟩
    · exact ih hrow

/-- The loop that failed left the tables alone iff grading leaves every
destination before the missing one alone. -/
theorem gradeDestinations_eq_self_iff (ids : List String)
    (h : (gradeDestinations confidence s scope ids).1 = .error error) :
    (gradeDestinations confidence s scope ids).2 = s ↔
      ∀ id ∈ ids.takeWhile fun id => s.destinations.contains ⟨scope, id⟩,
        ∀ destination ∈ s.destinations.get? ⟨scope, id⟩,
          grade confidence destination = destination := by
  induction ids with
  | nil => cases h
  | cons id ids ih =>
    rcases hpres : s.destinations.contains ⟨scope, id⟩ with - | -
    · rw [gradeDestinations_cons_of_not_contains hpres]
      simp [hpres]
    have htake : (id :: ids).takeWhile (fun id => s.destinations.contains ⟨scope, id⟩) =
        id :: ids.takeWhile fun id => s.destinations.contains ⟨scope, id⟩ :=
      List.takeWhile_cons_of_pos hpres
    rw [htake, List.forall_mem_cons, ← graded_eq_self_iff]
    rw [gradeDestinations_cons_of_contains hpres] at h ⊢
    constructor
    · intro heq
      have hself : s.graded scope confidence id = s := by
        rw [graded_eq_self_iff]
        intro destination hget
        have hrow : (s.graded scope confidence id).destinations.get? ⟨scope, id⟩ =
            some (grade confidence destination) := by
          rw [graded, get?_modify_self, hget]
          rfl
        obtain ⟨n, hn⟩ := gradeDestinations_get? ids hrow
        rw [heq, hget] at hn
        exact grade_eq_of_iterate (n := n) (Option.some.inj hn).symm
      rw [hself] at h heq
      exact ⟨hself, (ih h).mp heq⟩
    · rintro ⟨hself, hrest⟩
      rw [hself] at h ⊢
      exact (ih h).mpr hrest

/-- The checks every decision passes before anything is written. -/
def admitsDecision (s : MemoryState) (scope : TenantScope) (decision : IdentityDecision) : Bool :=
  !(decision.routeIds.any fun id => !s.routes.contains ⟨scope, id⟩) &&
    !(decision.evidenceIds.any fun id => !s.evidence.contains ⟨scope, id⟩) &&
    !decision.routeIds.any (s.routeBusy scope)

/-- Every destination a rejected match grades before it meets a missing one is in
conflict already, and at its last revision. -/
def RejectsAgain (s : MemoryState) (scope : TenantScope) (decision : IdentityDecision) : Prop :=
  ∀ id ∈ (decision.destinationId :: decision.relatedDestinationIds).takeWhile
      fun id => s.destinations.contains ⟨scope, id⟩,
    ∀ destination ∈ s.destinations.get? ⟨scope, id⟩,
      destination.identityConfidence = .conflict ∧ destination.identityRevision = u64Max

theorem applyDecision_eq_self_iff (h : (s.applyDecision scope now decision).1 = .error error) :
    (s.applyDecision scope now decision).2 = s ↔
      (decision.kind = .rejectMatch → s.RejectsAgain scope decision) := by
  rcases hkind : decision.kind <;> simp only [applyDecision, hkind] at h ⊢
  case merge | split => simp [atomic_regroup _ h]
  case confirm =>
    unfold gradeDestination at h ⊢
    split_ifs at h ⊢
    simp
  case rejectMatch =>
    rw [gradeDestinations_eq_self_iff _ h]
    simp only [RejectsAgain, grade_eq_self_iff, forall_const]
  case reverse => simp

theorem recordIdentityDecision_eq_self_iff
    (h : (s.recordIdentityDecision scope now decision).1 = .error error) :
    (s.recordIdentityDecision scope now decision).2 = s ↔
      (decision.kind = .rejectMatch → s.admitsDecision scope decision = true →
        s.RejectsAgain scope decision) := by
  unfold recordIdentityDecision at h ⊢
  unfold admitsDecision
  split_ifs with hkind hrts hevid hbusy
  · simp [hkind]
  · simp [hrts]
  · simp [hevid]
  · simp [hbusy]
  rw [if_neg hkind, if_neg hrts, if_neg hevid, if_neg hbusy] at h
  rcases happ : s.applyDecision scope now decision with ⟨_ | _, s'⟩ <;> rw [happ] at h
  · have hiff := applyDecision_eq_self_iff (congrArg Prod.fst happ)
    rw [happ] at hiff
    rw [hiff]
    simp [hrts, hevid, hbusy]
  · cases h

/-! ### Leases that ran out -/

theorem supersedeStale_eq_self
    (h : ∀ e ∈ s.attempts.entries, e.1.scope = scope → isStale now destinationId e.2 = false) :
    s.supersedeStale scope now destinationId = s := by
  have hstale : ∀ e ∈ s.attempts.entries,
      (e.1.scope == scope && isStale now destinationId e.2) = false := by
    intro e he
    by_cases hsc : e.1.scope = scope
    · rw [h e he hsc, Bool.and_false]
    · simp [hsc]
  have hatts : s.supersedeAttempts scope now (isStale now destinationId) = s := by
    unfold supersedeAttempts
    rw [mapValues_eq_self_iff.mpr fun e he => by rw [hstale e he]; rfl]
  have hids : s.attempts.entries.filter
      (fun e => e.1.scope == scope && isStale now destinationId e.2) = [] := by
    rw [List.filter_eq_nil_iff]
    exact fun e he => by simp [hstale e he]
  unfold supersedeStale
  rw [hids, hatts]
  dsimp only [closeReservations]
  rw [mapValues_eq_self_iff.mpr fun e _ => by simp]

/-- A stale attempt is superseded, whatever becomes of the call. -/
theorem supersedeStale_superseded (he : e ∈ s.attempts.entries) (hsc : e.1.scope = scope)
    (hstale : isStale now destinationId e.2 = true) : (e.1, e.2.advance .superseded now) ∈
      (s.supersedeStale scope now destinationId).attempts.entries := by
  refine mem_mapValues.mpr ⟨e.2, he, ?_⟩
  simp [hsc, hstale]

/-- Nothing has run out that the call would retire: no lease at the destination,
and the job's open attempt is no such lease either. -/
structure NothingStale (s : MemoryState) (scope : TenantScope) (now : DateTime) (choice : Key)
    (request : NewDeliveryAttempt) : Prop where
  destination : ∀ e ∈ s.attempts.entries, e.1.scope = scope →
    isStale now request.destinationId e.2 = false
  job : ∀ e ∈ s.attempts.pick? (fun key attempt =>
      key.scope == scope && attempt.jobId == request.jobId && !attempt.state.isFinal) choice,
    e.2.state ≠ .routeLeased ∨ now < e.2.leaseUntil

/-- A refused call has retired the stale leases of the destination, and made room
for the job if it could. -/
theorem beginDeliveryAttempt_error_cases
    (h : (s.beginDeliveryAttempt scope now digest choices token request).1 = .error error)
    (hadm : s.routeAdmits scope request = true) :
    let cleared := (s.supersedeStale scope now request.destinationId).retireActive scope now
      choices.attempt choices.reservation request.jobId
    (s.beginDeliveryAttempt scope now digest choices token request).2 =
        s.supersedeStale scope now request.destinationId ∧ cleared = .error error ∨
      cleared = .ok (s.beginDeliveryAttempt scope now digest choices token request).2 := by
  unfold beginDeliveryAttempt at h ⊢
  rw [hadm] at h ⊢
  simp only [Bool.not_true, Bool.false_eq_true, if_false] at h ⊢
  split
  · next hret =>
    rw [hret] at h
    exact .inl ⟨rfl, hret.trans (congrArg _ (Except.error.inj h))⟩
  · next s' hret =>
    rw [hret] at h
    refine .inr ?_
    dsimp only at h ⊢
    split_ifs at h ⊢ <;> exact hret

theorem retireActive_of_expired (reservationChoice : Key)
    (hpick : s.attempts.pick? (fun key attempt =>
      key.scope == scope && attempt.jobId == jobId && !attempt.state.isFinal) choice = some e)
    (hlea : e.2.state = .routeLeased) (hexp : e.2.leaseUntil ≤ now) :
    ∃ s', s.retireActive scope now choice reservationChoice jobId = .ok s' ∧
      (e.1, e.2.advance .superseded now) ∈ s'.attempts.entries := by
  have hopen : ¬(e.2.state ≠ .routeLeased || decide (now < e.2.leaseUntil)) = true := by
    simp [hlea, hexp]
  rw [retireActive, hpick]
  dsimp only
  rw [if_neg hopen]
  refine ⟨_, rfl, ?_⟩
  rw [closeReservation_attempts]
  exact mem_mapValues.mpr ⟨e.2, (pick?_some hpick).1, (if_pos rfl).symm⟩

/-- Room that needed nothing retired. -/
theorem retireActive_eq_self (hopen : ∀ e ∈ s.attempts.pick? (fun key attempt =>
        key.scope == scope && attempt.jobId == jobId && !attempt.state.isFinal) choice,
      e.2.state ≠ .routeLeased ∨ now < e.2.leaseUntil)
    (h : s.retireActive scope now choice reservationChoice jobId = .ok s') : s' = s := by
  unfold retireActive at h
  split at h
  · next key active hpick =>
    have hcond := hopen _ hpick
    rw [if_pos (by simpa using hcond)] at h
    cases h
  · split_ifs at h
    exact (Except.ok.inj h).symm

theorem beginDeliveryAttempt_eq_self_iff
    (h : (s.beginDeliveryAttempt scope now digest choices token request).1 = .error error) :
    (s.beginDeliveryAttempt scope now digest choices token request).2 = s ↔
      (s.routeAdmits scope request = true → s.NothingStale scope now choices.attempt request) := by
  rcases hadm : s.routeAdmits scope request with - | -
  · simp [beginDeliveryAttempt, hadm]
  have hcases := beginDeliveryAttempt_error_cases h hadm
  generalize (s.beginDeliveryAttempt scope now digest choices token request).2 = s' at hcases ⊢
  constructor
  · rintro rfl -
    -- a lease that was superseded is not the row it was
    have hnot : ∀ e ∈ s'.attempts.entries, e.2.state = .routeLeased →
        (e.1, e.2.advance .superseded now) ∉ s'.attempts.entries := by
      intro e he hlea hmem
      have heq := congrArg (fun e => e.2.state) (eq_of_mem_of_mem hmem he rfl)
      exact absurd (heq.trans hlea) (by simp [DeliveryAttempt.advance])
    have hdest : ∀ e ∈ s'.attempts.entries, e.1.scope = scope →
        isStale now request.destinationId e.2 = false := by
      intro e he hsc
      rw [Bool.eq_false_iff]
      intro hstale
      have hmem := supersedeStale_superseded he hsc hstale
      refine hnot e he (isStale_iff.mp hstale).2.1 ?_
      rcases hcases with ⟨hcases, -⟩ | hcases
      · exact hcases ▸ hmem
      · exact (mem_retireActive hcases hmem).elim id (·.2)
    refine ⟨hdest, ?_⟩
    intro e he
    rw [supersedeStale_eq_self hdest] at hcases
    by_contra hexp
    simp only [not_or, ne_eq, Decidable.not_not, not_lt] at hexp
    obtain ⟨s'', hret, hmem⟩ :=
      retireActive_of_expired choices.reservation he hexp.1 hexp.2
    rw [hret] at hcases
    rcases hcases with ⟨-, hcases⟩ | hcases
    · cases hcases
    · cases hcases
      exact hnot e (pick?_some he).1 hexp.1 hmem
  · intro hfresh
    obtain ⟨hdest, hjob⟩ := hfresh rfl
    rw [supersedeStale_eq_self hdest] at hcases
    rcases hcases with ⟨hcases, -⟩ | hcases
    · exact hcases
    · exact retireActive_eq_self hjob hcases

/-! ### Renewals -/

/-- A renewal that its attempt allows finds the reservation active, or has nothing
to move. -/
def RenewsActive (s : MemoryState) (scope : TenantScope) (now : DateTime)
    (digest : String → String) (reservationId : String) (generation : Nat) (token : String)
    (leaseUntil : DateTime) : Prop :=
  ∀ reservation ∈ s.reservations.get? ⟨scope, reservationId⟩,
    ∀ attempt ∈ s.attempts.get? ⟨scope, reservation.attemptId⟩,
      attempt.generation = generation → attempt.digest = digest token →
        renewable attempt.state = true → reservation.state = .active ∨
          attempt.leaseUntil = leaseUntil ∧ attempt.updatedAt = now

theorem putAttempt_eq_self_iff {f : DeliveryAttempt → DeliveryAttempt} :
    s.putAttempt key f = s ↔ ∀ attempt ∈ s.attempts.get? key, f attempt = attempt := by
  rw [← modify_eq_self_iff]
  constructor
  · exact congrArg MemoryState.attempts
  · intro h
    rw [putAttempt, h]

theorem renewDeliveryAttempt_eq_self_iff {leaseUntil : DateTime}
    (h : (s.renewDeliveryAttempt scope now digest reservationId generation token leaseUntil).1 =
      .error error) :
    (s.renewDeliveryAttempt scope now digest reservationId generation token leaseUntil).2 = s ↔
      (now < leaseUntil →
        s.RenewsActive scope now digest reservationId generation token leaseUntil) := by
  unfold renewDeliveryAttempt at h ⊢
  unfold RenewsActive
  split_ifs at h ⊢ with hpast
  · simp [Int.not_lt.mpr hpast]
  rcases hres : s.reservations.get? ⟨scope, reservationId⟩ with - | reservation
  · simp
  simp only [hres] at h ⊢
  rcases hatt : s.attempts.get? ⟨scope, reservation.attemptId⟩ with - | attempt
  · simp [hatt]
  simp only [hatt] at h ⊢
  split_ifs at h ⊢ with hfenced hact
  · simp only [Bool.or_eq_true, decide_eq_true_eq, bne_iff_ne, ne_eq, Bool.not_eq_true'] at hfenced
    refine iff_of_true rfl ?_
    rintro - _ ⟨⟩ found hfound hgen hdig hrenewable
    cases hatt.symm.trans hfound
    simp [hgen, hdig, hrenewable] at hfenced
  · simp only [Bool.or_eq_true, decide_eq_true_eq, bne_iff_ne, ne_eq, Bool.not_eq_true', not_or,
      Decidable.not_not, Bool.not_eq_false] at hfenced
    have hput : (s.putAttempt ⟨scope, reservation.attemptId⟩ fun _ =>
        { attempt with leaseUntil := leaseUntil, updatedAt := now }) = s ↔
        attempt.leaseUntil = leaseUntil ∧ attempt.updatedAt = now := by
      rw [putAttempt_eq_self_iff, hatt]
      obtain ⟨id, jobId, destinationId, routeId, generation, state, stored, accepted, handoff,
        spooler, final, created, updated, digest⟩ := attempt
      simp [eq_comm]
    rw [hput]
    constructor
    · rintro hsame - _ ⟨⟩ found hfound - - -
      cases hatt.symm.trans hfound
      exact .inr hsame
    · intro hrenews
      exact (hrenews (Int.not_le.mp hpast) _ rfl _ hatt hfenced.1.1 hfenced.1.2
        hfenced.2).resolve_left hact

end MemoryState

namespace Repository

open MemoryState

variable {digest : String → String} {error : StorageError} {t : Topology}

/-- The calls whose refusal leaves no trace: those that find nothing to write
before the check that refuses them. -/
def WritesLast (digest : String → String) (s : MemoryState) : RepositoryOp → Prop
  | .topology (.recordIdentityDecision scope _ decision) =>
    decision.kind = .rejectMatch → s.admitsDecision scope decision = true →
      s.RejectsAgain scope decision
  | .topology (.beginDeliveryAttempt scope now choices _ request) =>
    s.routeAdmits scope request = true → s.NothingStale scope now choices.attempt request
  | .topology (.renewDeliveryAttempt scope now reservationId generation token leaseUntil) =>
    now < leaseUntil → s.RenewsActive scope now digest reservationId generation token leaseUntil
  | _ => True

theorem recordRouteObservation_error {r : Repository} {scope : TenantScope}
    {observation : RouteObservation}
    (h : (r.recordRouteObservation scope observation).1 = .error error) :
    (r.recordRouteObservation scope observation).2 = r := by
  revert h
  fun_cases recordRouteObservation r scope observation <;> simp

theorem of_map_error {α β : Type} {f : α → β} {x : Except StorageError α}
    (h : x.map f = .error error) : x = .error error := by
  cases x with
  | error _ => exact congrArg _ (Except.error.inj h)
  | ok _ => cases h

theorem withTables_eq_self_iff {s : MemoryState} : { t with tables := s } = t ↔ s = t.tables :=
  ⟨congrArg Topology.tables, fun h => by rw [h]⟩

/-- One call: the tables are as they were iff nothing was written before the check
that refused it. -/
theorem step_eq_self_iff {op : TopologyOp} (h : op.result digest t = .error error) :
    t.step digest op = t ↔ WritesLast digest t.tables (.topology op) := by
  have hkept : ∀ {tables : MemoryState}, tables = t.tables →
      ({ t with tables := tables } = t ↔ True) :=
    fun h => iff_of_true (withTables_eq_self_iff.mpr h) trivial
  cases op with
  | upsertDestination | storeRoute | revokeAgentTopology => cases h
  | resolveRoute =>
    simp only [Topology.step, of_map_error h, WritesLast]
  | recordIdentityEvidence =>
    exact hkept (atomic_recordIdentityEvidence _ h)
  | recordIdentityDecision =>
    exact withTables_eq_self_iff.trans (recordIdentityDecision_eq_self_iff h)
  | reverseIdentityDecision =>
    exact hkept (atomic_reverseIdentityDecision _ h)
  | beginDeliveryAttempt scope now choices token request =>
    have herr := of_map_error h
    have hbegun : t.step digest (.beginDeliveryAttempt scope now choices token request) =
        { t with tables :=
          (t.tables.beginDeliveryAttempt scope now digest choices token request).2 } := by
      simp only [Topology.step, herr]
    rw [hbegun, withTables_eq_self_iff]
    exact beginDeliveryAttempt_eq_self_iff herr
  | transitionDeliveryAttempt =>
    exact hkept (atomic_transitionDeliveryAttempt _ (of_map_error h))
  | transitionPostSpoolerAttempt =>
    exact hkept (atomic_transitionPostSpoolerAttempt _ (of_map_error h))
  | markPostSpoolerAttemptUncertain =>
    exact hkept (atomic_markPostSpoolerAttemptUncertain _ (of_map_error h))
  | renewDeliveryAttempt =>
    exact withTables_eq_self_iff.trans (renewDeliveryAttempt_eq_self_iff (of_map_error h))
  | enqueueDeliveryUncertaintyResolution =>
    exact hkept (atomic_enqueueDeliveryUncertaintyResolution _ (of_map_error h))
  | acknowledgeUncertaintyResolutionCommand =>
    exact hkept (atomic_acknowledgeUncertaintyResolutionCommand _ h)
  | finalizeDeliveryUncertaintyResolution =>
    exact hkept (atomic_finalizeDeliveryUncertaintyResolution _ (of_map_error h))
  | recomputeDestinationAttention =>
    exact hkept (atomic_recomputeDestinationAttention _ (of_map_error h))

/-- **When a refused call changes nothing.** -/
theorem refused_call_changes_nothing_iff (digest : String → String) (l : List RepositoryOp)
    (op : RepositoryOp) (error : StorageError)
    (h : ((run digest l).call digest op).1 = .error error) :
    ((run digest l).call digest op).2 = run digest l ↔
      WritesLast digest (run digest l).topology.tables op := by
  cases op with
  | topology op =>
    rw [← step_eq_self_iff h]
    exact ⟨congrArg topology, fun hsame => congrArg (Repository.mk · _) hsame⟩
  | recordRouteObservation =>
    exact iff_of_true (recordRouteObservation_error h) trivial

/-! ### Samples -/

namespace Sample

open Topology.Sample

def calls (l : List TopologyOp) : List RepositoryOp := l.map .topology

/-- A lease at the shared printer, until 100. -/
def leased : List RepositoryOp := calls (shared ++ [begin 1 "first" "labels" "front"])

/-- The lease ran out; the job of the second call was accepted elsewhere. -/
def expired : List RepositoryOp :=
  calls (shared ++ [.upsertDestination scope (destination "receipts")] ++
    upsertRoute "till" "receipts" "till-node" ++
    [begin 1 "second" "receipts" "till", advance 2 "second" .acceptedByNode,
      begin 3 "first" "labels" "front"])

/-- The node of an accepted attempt is revoked. -/
def revokedNode : List RepositoryOp :=
  calls (shared ++ [begin 1 "first" "labels" "front", advance 2 "first" .acceptedByNode,
    .revokeAgentTopology scope 3 "front-node"])

def rejection : IdentityDecision :=
  ⟨"rejection", .rejectMatch, "labels", ["missing"], [], [], none⟩

def secondBegin : RepositoryOp :=
  .topology (.beginDeliveryAttempt scope 200 ⟨key "second-attempt", key "second-fence"⟩ "token"
    ⟨"second-attempt-2", "second-fence-2", "second", "labels", "back", 300⟩)

end Sample

open Sample

/-- A call on a printer that is leased is refused and changes nothing. -/
theorem refused_call_changes_nothing_iff_leased : ((run id leased).call id
      (.topology (Topology.Sample.begin 50 "second" "labels" "back"))).2 = run id leased :=
  (refused_call_changes_nothing_iff id leased _ .concurrentStateChange
    (by decide +kernel)).mpr fun _ => ⟨by decide +kernel, by decide +kernel⟩

/-- Each of the three calls is refused and has changed the repository. -/
theorem refused_calls_leave_writes :
    (∃ error, ((run id expired).call id secondBegin).1 = .error error ∧
      ((run id expired).call id secondBegin).2 ≠ run id expired) ∧
    (∃ error, ((run id leased).call id
        (.topology (.recordIdentityDecision Topology.Sample.scope 2 rejection))).1 = .error error ∧
      ((run id leased).call id
        (.topology (.recordIdentityDecision Topology.Sample.scope 2 rejection))).2 ≠
          run id leased) ∧ ∃ error, ((run id revokedNode).call id
        (.topology (.renewDeliveryAttempt Topology.Sample.scope 4 "first-fence" 1 "first-token"
          300))).1 = .error error ∧ ((run id revokedNode).call id
        (.topology (.renewDeliveryAttempt Topology.Sample.scope 4 "first-fence" 1 "first-token"
          300))).2 ≠ run id revokedNode :=
  ⟨⟨.concurrentStateChange, by decide +kernel⟩, ⟨.notFound, by decide +kernel⟩,
    ⟨.concurrentStateChange, by decide +kernel⟩⟩

end Repository

end Piqae.Server
