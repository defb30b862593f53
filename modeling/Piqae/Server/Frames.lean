/-
Piqae/Server/Frames.lean

What the operations of the topology repository leave alone.  Attempts and
uncertain deliveries do not concern routes, evidence and the decisions about
them (`Leaves`), and an attempt that moves resolves nothing (`Delivers`).
There is one lemma per operation.
-/
import Piqae.Server.Attempts

namespace Piqae.Server.MemoryState

variable {s s' s'' : MemoryState} {scope : TenantScope} {now : DateTime}

/-- Attempts and uncertain deliveries: routes, evidence and the decisions stay, and
a destination keeps its identifier. -/
structure Leaves (s s' : MemoryState) : Prop where
  routes : s'.routes = s.routes
  evidence : s'.evidence = s.evidence
  snapshots : s'.decisionSnapshots = s.decisionSnapshots
  destinations : ∀ key destination', s'.destinations.get? key = some destination' →
    ∃ destination, s.destinations.get? key = some destination ∧ destination'.id = destination.id

namespace Leaves

theorem frame (hrts : s'.routes = s.routes) (hevid : s'.evidence = s.evidence)
    (hsnaps : s'.decisionSnapshots = s.decisionSnapshots)
    (hdests : s'.destinations = s.destinations) : Leaves s s' :=
  ⟨hrts, hevid, hsnaps, fun _ destination h => ⟨destination, hdests ▸ h, rfl⟩⟩

theorem refl (s : MemoryState) : Leaves s s := frame rfl rfl rfl rfl

theorem trans (h : Leaves s s') (h' : Leaves s' s'') : Leaves s s'' where
  routes := h'.routes.trans h.routes
  evidence := h'.evidence.trans h.evidence
  snapshots := h'.snapshots.trans h.snapshots
  destinations key destination hget := by
    obtain ⟨destination', hget', hid'⟩ := h'.destinations key destination hget
    obtain ⟨destination'', hget'', hid''⟩ := h.destinations key destination' hget'
    exact ⟨destination'', hget'', hid'.trans hid''⟩

/-- Destinations may be rewritten in place. -/
theorem mapDestinations {f : Key → StoredPhysicalDestination → StoredPhysicalDestination}
    (hf : ∀ key destination, (f key destination).id = destination.id) :
    Leaves s { s with destinations := s.destinations.mapValues f } := by
  refine ⟨rfl, rfl, rfl, fun key destination' hget => ?_⟩
  rw [SortedMap.get?_mapValues, Option.map_eq_some_iff] at hget
  obtain ⟨destination, hget, rfl⟩ := hget
  exact ⟨destination, hget, hf key destination⟩

end Leaves

/-- Attempts: no uncertain delivery is resolved, either. -/
structure Delivers (s s' : MemoryState) : Prop extends Leaves s s' where
  uncertaintyResolutions : s'.uncertaintyResolutions = s.uncertaintyResolutions

namespace Delivers

theorem frame (hrts : s'.routes = s.routes) (hevid : s'.evidence = s.evidence)
    (hsnaps : s'.decisionSnapshots = s.decisionSnapshots)
    (hdests : s'.destinations = s.destinations)
    (hrsvs : s'.uncertaintyResolutions = s.uncertaintyResolutions) : Delivers s s' :=
  ⟨.frame hrts hevid hsnaps hdests, hrsvs⟩

theorem refl (s : MemoryState) : Delivers s s := frame rfl rfl rfl rfl rfl

theorem trans (h : Delivers s s') (h' : Delivers s' s'') : Delivers s s'' :=
  ⟨h.toLeaves.trans h'.toLeaves, h'.uncertaintyResolutions.trans h.uncertaintyResolutions⟩

end Delivers

/-- Nothing happened to attempts and their reservations, and no decision about
one was lost. -/
structure SameAttempts (s s' : MemoryState) : Prop where
  attempts : s'.attempts = s.attempts
  reservations : s'.reservations = s.reservations
  resolved : ∀ scope id, s.isResolved scope id = true → s'.isResolved scope id = true

theorem SameAttempts.frame (hatt : s'.attempts = s.attempts)
    (hres : s'.reservations = s.reservations)
    (hunc : s'.uncertaintyResolutions = s.uncertaintyResolutions) : SameAttempts s s' :=
  ⟨hatt, hres, fun _ _ h => by rwa [isResolved, hunc]⟩

theorem SameAttempts.refl (s : MemoryState) : SameAttempts s s := .frame rfl rfl rfl

theorem SameAttempts.trans (h : SameAttempts s s') (h' : SameAttempts s' s'') :
    SameAttempts s s'' :=
  ⟨h'.attempts.trans h.attempts, h'.reservations.trans h.reservations,
    fun scope id hr => h'.resolved scope id (h.resolved scope id hr)⟩

/-- Decisions and resolutions: attempts stay, too. -/
structure Decides (s s' : MemoryState) : Prop extends SameAttempts s s', Leaves s s'

namespace Decides

theorem frame (hatts : s'.attempts = s.attempts)
    (hress : s'.reservations = s.reservations)
    (hrsvs : s'.uncertaintyResolutions = s.uncertaintyResolutions)
    (hleaves : Leaves s s') : Decides s s' :=
  ⟨.frame hatts hress hrsvs, hleaves⟩

theorem refl (s : MemoryState) : Decides s s := ⟨.refl s, .refl s⟩

theorem trans (h : Decides s s') (h' : Decides s' s'') : Decides s s'' :=
  ⟨h.toSameAttempts.trans h'.toSameAttempts, h.toLeaves.trans h'.toLeaves⟩

end Decides

/-! ### Operations on attempts -/

variable {key choice : Key} {choices : Choices} {next : DeliveryAttemptState}
  {attemptId jobId agentId routeId destinationId requestId : String}
  {digest : String → String} {generation : Nat} {token : String}
  {confidence : IdentityConfidence}

theorem delivers_closeReservation {state : ReservationState} :
    Delivers s (s.closeReservation scope now choice attemptId state) := by
  unfold closeReservation
  split <;> exact .frame rfl rfl rfl rfl rfl

theorem delivers_releaseFence :
    Delivers s (s.releaseFence scope now choice attemptId next) := by
  unfold releaseFence
  split_ifs
  · exact delivers_closeReservation
  · exact .refl _

theorem delivers_putAttempt {f : DeliveryAttempt → DeliveryAttempt} :
    Delivers s (s.putAttempt key f) := .frame rfl rfl rfl rfl rfl

theorem delivers_flagUncertain :
    Delivers s (s.flagUncertain scope now next destinationId) := by
  unfold flagUncertain
  split_ifs
  · refine ⟨.mapDestinations fun key destination => ?_, rfl⟩
    split_ifs <;> rfl
  · exact .refl _

theorem delivers_settleAttempt {attempt : DeliveryAttempt} :
    Delivers s (s.settleAttempt scope now choice key attempt next).2 :=
  (delivers_putAttempt.trans delivers_closeReservation).trans delivers_flagUncertain

/-- The open attempt of the job is a lease that ran out, or the job has none. -/
theorem retireActive_ok {reservationChoice : Key}
    (h : s.retireActive scope now choice reservationChoice jobId = .ok s') :
    (∃ key active, (key, active) ∈ s.attempts.entries ∧ (key.scope = scope ∧ active.jobId = jobId) ∧
      active.state = .routeLeased ∧ s' = (s.putAttempt key fun attempt =>
        attempt.advance .superseded now).closeReservation scope now reservationChoice active.id
          .superseded) ∨
    s' = s ∧ ∀ e ∈ s.attempts.entries, e.1.scope = scope → e.2.jobId = jobId →
      e.2.state.isFinal = true := by
  unfold retireActive at h
  split at h
  · next key active hpick =>
    obtain ⟨hmem, hp⟩ := SortedMap.pick?_some hpick
    simp only [Bool.and_eq_true, beq_iff_eq] at hp
    split_ifs at h with hcond
    simp only [ne_eq, Bool.or_eq_true, decide_eq_true_eq, not_or, Decidable.not_not] at hcond
    exact .inl ⟨key, active, hmem, hp.1, hcond.1, (Except.ok.inj h).symm⟩
  · next hpick =>
    split_ifs at h
    refine .inr ⟨(Except.ok.inj h).symm, fun e he hsc hjob => ?_⟩
    simpa [hsc, hjob] using SortedMap.pick?_none hpick e he

theorem delivers_retireActive {reservationChoice : Key}
    (h : s.retireActive scope now choice reservationChoice jobId = .ok s') : Delivers s s' := by
  obtain ⟨_, _, -, -, -, rfl⟩ | ⟨rfl, -⟩ := retireActive_ok h
  · exact delivers_putAttempt.trans delivers_closeReservation
  · exact .refl _

theorem delivers_beginDeliveryAttempt {request : NewDeliveryAttempt} :
    Delivers s (s.beginDeliveryAttempt scope now digest choices token request).2 := by
  have hstale : Delivers s (s.supersedeStale scope now request.destinationId) :=
    .frame rfl rfl rfl rfl rfl
  unfold beginDeliveryAttempt
  split_ifs
  · exact .refl _
  dsimp only
  split
  · exact hstale
  next hret =>
  have hclr := hstale.trans (delivers_retireActive hret)
  split_ifs
  · exact hclr
  · exact hclr
  · exact hclr.trans (.frame rfl rfl rfl rfl rfl)

theorem delivers_transitionDeliveryAttempt : Delivers s
      (s.transitionDeliveryAttempt scope now digest choice attemptId generation token next).2 := by
  unfold transitionDeliveryAttempt
  split
  · exact .refl _
  split_ifs
  · exact .refl _
  · exact (delivers_putAttempt.trans delivers_releaseFence).trans delivers_flagUncertain

theorem delivers_transitionPostSpoolerAttempt :
    Delivers s (s.transitionPostSpoolerAttempt scope now choices jobId agentId routeId next).2 := by
  fun_cases transitionPostSpoolerAttempt s scope now choices jobId agentId routeId next <;>
    first | exact .refl _ | exact delivers_settleAttempt

theorem delivers_markPostSpoolerAttemptUncertain :
    Delivers s (s.markPostSpoolerAttemptUncertain scope now choices jobId).2 := by
  fun_cases markPostSpoolerAttemptUncertain s scope now choices jobId <;>
    first | exact .refl _ | exact delivers_settleAttempt

theorem delivers_renewDeliveryAttempt {reservationId : String} {leaseUntil : DateTime} : Delivers s
      (s.renewDeliveryAttempt scope now digest reservationId generation token leaseUntil).2 := by
  fun_cases renewDeliveryAttempt s scope now digest reservationId generation token leaseUntil <;>
    exact .frame rfl rfl rfl rfl rfl

/-! ### Operations on destinations and resolutions -/

/-- A resolution under a request that had none takes no other away. -/
theorem isResolved_insert {result : DeliveryUncertaintyResolution}
    (hnone : s.uncertaintyResolutions.get? key = none) {scope' : TenantScope} {id : String}
    (h : s.isResolved scope' id = true) :
    ({ s with uncertaintyResolutions :=
      s.uncertaintyResolutions.insert key result } : MemoryState).isResolved scope' id = true := by
  obtain ⟨e, he, hcond⟩ := List.any_eq_true.mp h
  refine List.any_eq_true.mpr ⟨e, SortedMap.mem_insert.mpr (Or.inr ⟨?_, he⟩), hcond⟩
  rintro hkey
  exact SortedMap.get?_eq_none_iff.mp hnone e.2 (hkey ▸ he)

theorem decides_enqueueDeliveryUncertaintyResolution {resolution actorId : String}
    {note : Option String} :
    Decides s (s.enqueueDeliveryUncertaintyResolution scope now choices jobId resolution note
      actorId requestId).2 := by
  fun_cases enqueueDeliveryUncertaintyResolution s scope now choices jobId resolution note actorId
    requestId <;> exact .frame rfl rfl rfl (.frame rfl rfl rfl rfl)

theorem decides_acknowledgeUncertaintyResolutionCommand {cursor : Nat} :
    Decides s (s.acknowledgeUncertaintyResolutionCommand scope cursor).2 := by
  unfold acknowledgeUncertaintyResolutionCommand
  split_ifs <;> exact .frame rfl rfl rfl (.frame rfl rfl rfl rfl)

theorem decides_clearAttention : Decides s (s.clearAttention scope destinationId) := by
  unfold clearAttention
  split_ifs
  · exact .refl _
  · refine ⟨.frame rfl rfl rfl, .mapDestinations fun key destination => ?_⟩
    dsimp only
    split_ifs <;> rfl

theorem decides_finalizeDeliveryUncertaintyResolution :
    Decides s (s.finalizeDeliveryUncertaintyResolution scope now requestId).2 := by
  unfold finalizeDeliveryUncertaintyResolution
  split
  · exact .refl _
  next hnone =>
  split
  · exact .refl _
  split_ifs
  · exact .refl _
  refine .trans ?_ (decides_clearAttention.trans (.frame rfl rfl rfl (.frame rfl rfl rfl rfl)))
  refine ⟨⟨rfl, rfl, ?_⟩, .frame rfl rfl rfl rfl⟩
  exact fun scope' id hrsv => isResolved_insert hnone hrsv

theorem decides_recomputeDestinationAttention :
    Decides s (s.recomputeDestinationAttention scope now destinationId).2 := by
  unfold recomputeDestinationAttention
  split
  · exact .refl _
  next destination hget =>
  refine ⟨.frame rfl rfl rfl, rfl, rfl, rfl, SortedMap.forall_get?_iff.mpr ?_⟩
  exact SortedMap.forall_mem_insert ⟨destination, hget, rfl⟩ fun e he =>
    ⟨e.2, SortedMap.get?_eq_some_iff.mpr he, rfl⟩

theorem decides_gradeDestination {id : String} :
    Decides s (s.gradeDestination scope confidence id).2 := by
  unfold gradeDestination
  split_ifs
  · refine ⟨.frame rfl rfl rfl, .mapDestinations fun key destination => ?_⟩
    split_ifs <;> rfl
  · exact .refl _

theorem decides_gradeDestinations {ids : List String} :
    Decides s (gradeDestinations confidence s scope ids).2 := by
  induction ids generalizing s with
  | nil => exact .refl _
  | cons id ids ih =>
    have hone : Decides s (s.gradeDestination scope confidence id).2 := decides_gradeDestination
    unfold gradeDestinations
    split
    · next hgrade =>
      rw [hgrade] at hone
      exact hone.trans ih
    · next hgrade =>
      rw [hgrade] at hone
      exact hone

end Piqae.Server.MemoryState
