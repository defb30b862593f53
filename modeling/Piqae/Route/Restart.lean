/-
Piqae/Route/Restart.lean

Restart closure.  `open` refuses a journal that is over one of its bounds or
holds an invalid barrier; a coordinator should therefore never write one.  The
bounds are kept by different operations: the route table by the accounting of
`reconcile` (protected routes first, then as many others as fit), barriers,
acknowledgement cursors and the topology log where they grow, and the handoff
journal nowhere but in `reserve`, which is not the only way to a record.

`Restartable` is the invariant; it holds along every run in which evidence is
recorded only while the handoff journal has room and offers name their
connector and job.
-/
import Piqae.Route.Replay

namespace Piqae

open SortedMap List

namespace CoordinatorDocument

variable {enc : Encoders} {d d' d₀ : CoordinatorDocument} {observedAt : DateTime}
  {inventoryRevision : Nat} {printers : List DiscoveredPrinter}

/-! ### The accounting of `reconcile` -/

/-- The loop over discovered printers has taken protected queues and at most
`available` others, and has changed no other row of `d₀`. -/
structure Accounted (d₀ : CoordinatorDocument) (available : Nat) (st : Observation) : Prop where
  frame : TopologyOnly d₀ st.document
  within : st.acceptedUnprotectedRoutes ≤ available
  taken : ∃ others : List String, others.length = st.acceptedUnprotectedRoutes ∧
    ∀ n ∈ st.present, n ∈ d₀.protectedNativeIds ∨ n ∈ others
  rows : ∀ e ∈ st.document.routes.entries, e.1 ∈ st.present ∨ e ∈ d₀.routes.entries

theorem Accounted.record {available : Nat} {st : Observation} (h : Accounted d₀ available st)
    {printer : DiscoveredPrinter}
    (hroom : printer.nativeId ∈ d₀.protectedNativeIds ∨ st.acceptedUnprotectedRoutes < available) :
    Accounted d₀ available (recordPrinter enc d₀.protectedNativeIds
      inventoryRevision observedAt st printer) := by
  obtain ⟨others, hlen, hothers⟩ := h.taken
  set st' := recordPrinter enc d₀.protectedNativeIds inventoryRevision observedAt st printer
  obtain ⟨revision, changes, -, hdoc⟩ : ∃ _ _, _ ∧ st'.document = _ := recordPrinter_document
  have hframe : TopologyOnly d₀ st'.document := h.frame.trans (hdoc ▸ rfl)
  have hrows : ∀ e ∈ st'.document.routes.entries,
      e.1 ∈ printer.nativeId :: st.present ∨ e ∈ d₀.routes.entries := by
    rw [hdoc]
    exact forall_mem_insert (Or.inl mem_cons_self)
      fun e he => (h.rows e he).imp_left (mem_cons_of_mem _)
  by_cases hp : printer.nativeId ∈ d₀.protectedNativeIds
  · have hcnt : st'.acceptedUnprotectedRoutes = st.acceptedUnprotectedRoutes :=
      if_pos (contains_iff_mem.mpr hp)
    exact ⟨hframe, hcnt ▸ h.within,
      ⟨others, hcnt ▸ hlen, forall_mem_cons.mpr ⟨.inl hp, hothers⟩⟩, hrows⟩
  · have hcnt : st'.acceptedUnprotectedRoutes = st.acceptedUnprotectedRoutes + 1 :=
      if_neg (by simpa using hp)
    refine ⟨hframe, ?_, ⟨printer.nativeId :: others, ?_, ?_⟩, hrows⟩
    · rw [hcnt]
      exact hroom.resolve_left hp
    · rw [hcnt, length_cons, hlen]
    · exact forall_mem_cons.mpr
        ⟨.inr mem_cons_self, fun n hn => (hothers n hn).imp_right (mem_cons_of_mem _)⟩

theorem accounted_observePrinters : Accounted d₀ (maxRoutes - d₀.protectedNativeIds.length)
      (d₀.observePrinters enc printers inventoryRevision observedAt) := by
  refine List.foldlRecOn printers _ (motive := Accounted d₀ _) ?_ ?_
  · exact ⟨rfl, Nat.zero_le _, ⟨[], rfl, nofun⟩, fun e he => .inr he⟩
  · intro st hst printer _
    unfold observePrinter
    split_ifs with hseen hfull
    · exact hst
    · exact hst
    · refine hst.record ?_
      by_cases hp : printer.nativeId ∈ d₀.protectedNativeIds
      · exact .inl hp
      · right
        have hfits : ¬ maxRoutes ≤ st.acceptedUnprotectedRoutes + d₀.protectedNativeIds.length := by
          simpa [contains_iff_mem, hp] using hfull
        omega

/-- The rows after some routes have been marked as removed. -/
theorem mem_foldl_removeRoute {removed : List (String × String)} {e : String × DurableRoute}
    (he : e ∈ (removed.foldl (removeRoute observedAt) d).routes.entries) :
    ∃ R, (e.1, R) ∈ d.routes.entries ∧ e.2.routeId = R.routeId ∧
      (e.1 ∈ removed.map Prod.fst → e.2.present = false) ∧
      (R.present = false → e.2.present = false) := by
  induction removed generalizing d with
  | nil => exact ⟨e.2, he, rfl, nofun, fun h => h⟩
  | cons r removed ih =>
    obtain ⟨R, hR, hid, hmarked, habs⟩ := ih he
    obtain ⟨R₀, hR₀, heq⟩ := mem_mapValues.mp hR
    dsimp only at heq hR₀
    refine ⟨R₀, hR₀, ?_, ?_, ?_⟩
    · rw [hid, heq]
      split_ifs <;> rfl
    · intro hmem
      rcases mem_cons.mp hmem with h | h
      · refine habs ?_
        rw [heq, if_pos h]
      · exact hmarked h
    · intro h
      refine habs ?_
      rw [heq]
      split_ifs
      · rfl
      · exact h

theorem routeRequiresRetention_congr {R R' : DurableRoute} (h : TopologyOnly d d')
    (hid : R.routeId = R'.routeId) : d'.routeRequiresRetention R = d.routeRequiresRetention R' := by
  unfold routeRequiresRetention
  rw [h, hid]

theorem topologyOnly_markRemoved {present : List String} :
    TopologyOnly d (d.markRemoved present observedAt) := by
  exact List.foldlRecOn _ _ (motive := TopologyOnly d) rfl fun d' h removed _ => h.trans rfl

/-- **The route table stays within its bound.** -/
theorem size_routes_recordDiscovery (hd : d.routes.size ≤ maxRoutes) :
    (d.recordDiscovery enc printers inventoryRevision observedAt).2.routes.size ≤ maxRoutes := by
  unfold recordDiscovery
  dsimp only
  generalize hd₀ : d.pruneAbsentRoutes = d₀
  have hsize₀ : d₀.routes.size ≤ maxRoutes := by
    rw [← hd₀]
    exact (size_retain_le _).trans hd
  have hprotected : d₀.protectedNativeIds.length ≤ maxRoutes := by
    unfold protectedNativeIds
    rw [SortedMap.length_keys]
    exact (size_retain_le _).trans hsize₀
  have hacc : Accounted d₀ _ (d₀.observePrinters enc printers inventoryRevision observedAt) :=
    accounted_observePrinters
  generalize d₀.observePrinters enc printers inventoryRevision observedAt = st at hacc
  obtain ⟨others, hlen, hothers⟩ := hacc.taken
  have hframe : TopologyOnly d₀ (st.document.markRemoved st.present observedAt) :=
    hacc.frame.trans topologyOnly_markRemoved
  -- every remaining row is of a queue that was taken or is protected
  have hkeys : ∀ e ∈
      (st.document.markRemoved st.present observedAt).pruneAbsentRoutes.routes.entries,
      e.1 ∈ d₀.protectedNativeIds ++ others := by
    intro e he
    obtain ⟨he, hkept⟩ := mem_retain.mp he
    obtain ⟨R, hR, hid, hmarked, habs⟩ := mem_foldl_removeRoute he
    rw [mem_append]
    by_cases hpres : e.1 ∈ st.present
    · exact hothers e.1 hpres
    left
    have hR₀ : (e.1, R) ∈ d₀.routes.entries := (hacc.rows _ hR).resolve_left hpres
    have hgone : e.2.present = false := by
      rcases hRp : R.present with - | -
      · exact habs hRp
      · refine hmarked (mem_map.mpr ⟨(e.1, R.routeId), ?_, rfl⟩)
        refine mem_map.mpr ⟨(e.1, R), mem_filter.mpr ⟨hR, ?_⟩, rfl⟩
        simp [hRp, hpres]
    -- an absent row survives pruning only if its route is retained
    rw [hgone, Bool.false_or, contains_iff_mem] at hkept
    obtain ⟨R', hR', hid'⟩ := mem_map.mp hkept
    have hret := (mem_filter.mp hR').2
    rw [Bool.and_eq_true] at hret
    refine mem_keys.mpr ⟨R, mem_retain.mpr ⟨hR₀, ?_⟩⟩
    have hcongr : _ = d₀.routeRequiresRetention R :=
      routeRequiresRetention_congr hframe (hid'.trans hid)
    exact hcongr ▸ hret.2
  have hle := size_le_of_keys_subset hkeys
  rw [length_append, hlen] at hle
  have hwin := hacc.within
  omega

/-! ### The other bounds -/

theorem length_trimFront {α : Type} {values : List α} {limit : Nat} :
    (trimFront values limit).length ≤ limit := by
  unfold trimFront
  split_ifs with h
  · rw [length_drop]
    omega
  · omega

/-- The bounds that only `reconcile`, acknowledgement and the allocation of
observation sequences can move.  Sequences are reserved in whole ranges, so the
mark never comes so close to the end that a restart could not go on from it. -/
structure Counters (d : CoordinatorDocument) : Prop where
  version : d.version = documentVersion
  topologyChanges : d.topologyChanges.length ≤ maxTopologyChanges
  acknowledged : d.acknowledgedHandoffSequences.size ≤ maxAcknowledgedConnectors
  observationSequence : d.observationSequence ≤ u64Max
  wholeRanges : observationSequenceReservation ∣ d.observationSequence

theorem counters_fresh (ns : Uuid) : Counters (fresh ns) :=
  ⟨rfl, Nat.zero_le _, Nat.zero_le _, Nat.zero_le _, ⟨0, rfl⟩⟩

theorem Counters.repair (h : Counters d) :
    Counters (d.reconcileCoordinationKeys enc).pruneAbsentRoutes :=
  { h with }

/-- The mark is at least a whole range below the largest number. -/
theorem Counters.succ_le (h : Counters d) : d.observationSequence + 1 ≤ u64Max := by
  obtain ⟨k, hk⟩ := h.wholeRanges
  have hle := h.observationSequence
  rw [hk] at hle ⊢
  simp only [observationSequenceReservation, u64Max] at hle ⊢
  omega

theorem length_topologyChanges_recordDiscovery
    (hd : d.topologyChanges.length ≤ maxTopologyChanges) :
    (d.recordDiscovery enc printers inventoryRevision observedAt).2.topologyChanges.length ≤
      maxTopologyChanges := by
  refine recordDiscovery_induction
    (P := fun d => d.topologyChanges.length ≤ maxTopologyChanges) hd ?_ ?_ ?_
  · exact fun _ h => h
  · rintro d' _ _ (rfl | ⟨all, rfl⟩) printer _ h
    · exact h
    · exact length_trimFront
  · exact fun _ _ _ => length_trimFront

theorem Counters.reserveObservations (h : Counters d) {bounded : Nat} (hb : bounded ≤ maxRoutes)
    (hd : RouteCoordinator.reserveObservations d bounded = .ok d') : Counters d' := by
  unfold RouteCoordinator.reserveObservations checkedAdd at hd
  have hmax : max observationSequenceReservation bounded = observationSequenceReservation :=
    Nat.max_eq_left hb
  rw [hmax] at hd
  by_cases hfits : d.observationSequence + observationSequenceReservation ≤ u64Max
  · rw [if_pos hfits] at hd
    cases hd
    exact ⟨h.version, h.topologyChanges, h.acknowledged, hfits,
      (Nat.dvd_add_self_right).mpr h.wholeRanges⟩
  · rw [if_neg hfits] at hd
    cases hd

/-- The fields the counters are about. -/
def counted (d : CoordinatorDocument) :=
  (d.version, d.topologyChanges, d.acknowledgedHandoffSequences, d.observationSequence)

theorem counted_finishInner {connectorId jobId : String} {reservation : RouteReservation}
    {outcome : NativeHandoffOutcome} {nativeJobId : Option String}
    (h : d.finishInner enc connectorId jobId reservation outcome nativeJobId observedAt = .ok d') :
    d'.counted = d.counted := by
  obtain ⟨active, -, -, -, ⟨-, rfl⟩ | ⟨-, d₁, hd₁, rfl⟩⟩ := finishInner_ok h
  · rfl
  · rw [recordConsumedAuthoritativeRoute_frame hd₁]
    rfl

/-- What a request does to the counters. -/
theorem attempt_counted {request : Request} (h : d.attempt enc request = .ok d') :
    (∃ printers inventoryRevision observedAt,
      d' = (d.reconcile enc printers inventoryRevision observedAt).2) ∨
    (∃ count outcome, request = .allocateObservationSequences count outcome) ∨
    (∃ connectorId throughSequence, d.acknowledgeHandoffs connectorId throughSequence = .ok d') ∨
    d'.counted = d.counted := by
  cases request
  case reconcile => exact .inl ⟨_, _, _, (Except.ok.inj h).symm⟩
  case allocateObservationSequences => exact .inr (.inl ⟨_, _, rfl⟩)
  case acknowledgeHandoffs => exact .inr (.inr (.inl ⟨_, _, h⟩))
  all_goals refine .inr (.inr (.inr ?_))
  case reserve =>
    obtain ⟨⟨r, d₁⟩, hr, rfl⟩ := Except.map_eq_ok h
    rcases (reserveInner_ok hr).2 with ⟨_, -, -, -, -, rfl⟩ | ⟨-, -, -, _, _, -, ⟨⟩⟩
    · rfl
    · rfl
  case registerAuthoritative =>
    obtain ⟨⟨reg, d₁⟩, hr, rfl⟩ := Except.map_eq_ok h
    obtain ⟨-, -, _, -, ⟨_, -, -, -, rfl⟩ | ⟨-, -, -, -, rfl⟩⟩ := registerAuthoritativeInner_ok hr
    · rfl
    · rfl
  case finish => exact counted_finishInner h
  case finishRuntime => exact counted_finishInner h
  case compactLocalTerminalHandoffs =>
    obtain ⟨⟨removed, d₁⟩, hr, rfl⟩ := Except.map_eq_ok h
    obtain rfl := compactLocalTerminalHandoffs_ok hr
    rfl
  case resolveAmbiguousHandoff =>
    rcases resolveAmbiguousHandoffInner_ok h with ⟨-, rfl⟩ | ⟨-, hr⟩
    · rfl
    · obtain ⟨_, _, _, _, d₁, -, -, hd₁, rfl⟩ := resolveActive_ok hr
      rw [recordConsumedAuthoritativeRoute_frame hd₁]
      rfl

theorem Counters.attempt (h : Counters d) {request : Request}
    (hatt : d.attempt enc request = .ok d') : Counters d' := by
  rcases attempt_counted hatt with ⟨printers, inventoryRevision, observedAt, rfl⟩ |
    ⟨count, outcome, rfl⟩ | ⟨connectorId, throughSequence, hack⟩ | hsame
  · rw [topologyOnly_reconcile]
    exact { h with topologyChanges := length_topologyChanges_recordDiscovery h.topologyChanges }
  · exact h.reserveObservations (Nat.min_le_right ..) hatt
  · obtain ⟨hroom, rfl⟩ := acknowledgeHandoffs_ok hack
    refine { h with acknowledged := ?_ }
    rcases hroom with hknown | hroom
    · exact (size_insert_le_of_contains hknown).trans h.acknowledged
    · exact size_insert_le.trans hroom
  · simp only [counted, Prod.mk.injEq] at hsame
    obtain ⟨hv, ht, ha, ho⟩ := hsame
    exact ⟨hv ▸ h.version, ht ▸ h.topologyChanges, ha ▸ h.acknowledged,
      ho ▸ h.observationSequence, ho ▸ h.wholeRanges⟩

end CoordinatorDocument

/-! ### The handoff journal -/

/-- Evidence is recorded only while the handoff journal has room for it, and an
offer names its connector and its job. -/
def Request.WithinBounds (d : CoordinatorDocument) : Request → Prop
  | .finish .. | .finishRuntime .. => d.handoffs.length < maxHandoffs
  | .registerAuthoritative connectorId _ jobId _ _ _ => connectorId ≠ "" ∧ jobId ≠ ""
  | _ => True

theorem Request.WithinBounds.room {d : CoordinatorDocument} {request : Request}
    {handle : RouteReservation} {outcome : NativeHandoffOutcome} (hC : request.WithinBounds d)
    (h : request.finishes = some (handle, outcome)) : d.handoffs.length < maxHandoffs := by
  cases request
  case finish => exact hC
  case finishRuntime => exact hC
  all_goals cases h

namespace CoordinatorDocument

variable {enc : Encoders} {d d' : CoordinatorDocument} {request : Request}

theorem length_handoffs_attempt (hd : d.handoffs.length ≤ maxHandoffs)
    (hC : request.WithinBounds d) (h : d.attempt enc request = .ok d') :
    d'.handoffs.length ≤ maxHandoffs := by
  rcases attempt_effect h with ⟨-, -, hh, -⟩ | ⟨_, keep, -, -, -, -, -, hh, -⟩ |
    ⟨_, _, -, -, -, -, -, hh, -⟩ | ⟨_, _, -, -, hh, -⟩ | ⟨_, _, _, _, _, _, -, hfin, hspec⟩ |
    ⟨_, _, _, _, _, record, before, after, -, hspec⟩
  · exact hh ▸ hd
  · rw [hh]
    exact (length_filter_le _ _).trans hd
  · exact hh ▸ hd
  · exact hh ▸ hd
  · rw [hspec.handoffs, length_append]
    exact hC.room hfin
  · have hlen : (before ++ record :: after).length ≤ maxHandoffs := hspec.split ▸ hd
    rw [length_append, length_cons] at hlen
    rw [hspec.handoffs]
    split_ifs
    · refine (length_filter_le _ _).trans ?_
      rwa [length_append, length_cons]
    · rwa [length_append, length_cons]

/-! ### The invariant -/

/-- A reservation whose barrier `open` will accept. -/
def ValidFence (r : DurableReservation) : Prop :=
  r.generation ≠ 0 ∧ r.fencingToken ≠ "" ∧ ∀ a, r.authority = some a →
    a.connectorId ≠ "" ∧ a.serverRouteId ≠ "" ∧ a.localRouteKey ≠ "" ∧ a.jobId ≠ ""

/-- What a coordinator keeps so that it can restart from its own journal. -/
structure Restartable (enc : Encoders) (d : CoordinatorDocument) : Prop where
  counters : Counters d
  handoffs : d.handoffs.length ≤ maxHandoffs
  routes : d.routes.size ≤ maxRoutes
  consumed : d.consumedAuthoritativeRoutes.size ≤ maxConsumedAuthoritativeRoutes
  barriers : ∀ e ∈ d.consumedAuthoritativeRoutes.entries,
    RouteCoordinator.invalidBarrier enc e.1 e.2 = false
  fences : ∀ e ∈ d.reservations.entries, e.2.authority ≠ none → ValidFence e.2

theorem routeId_ne_empty {ns : Uuid} {n : String} : routeId enc ns n ≠ "" := by
  intro h
  have hlist := congrArg String.toList h
  simp [routeId] at hlist

theorem size_routes_attempt (hd : d.routes.size ≤ maxRoutes) (h : d.attempt enc request = .ok d') :
    d'.routes.size ≤ maxRoutes := by
  rcases attempt_routes h with ⟨printers, inventoryRevision, observedAt, -, -, rfl⟩ |
    ⟨_, _, _, _, _, _, _, r, -, hr⟩ | ⟨_, _, _, _, _, _, reg, -, hr⟩ | hrel
  · exact SortedMap.size_mapValues.trans_le (size_routes_recordDiscovery hd)
  · rcases (reserveInner_ok hr).2 with ⟨_, -, -, -, -, rfl⟩ | ⟨-, -, -, _, _, hrts, ⟨⟩⟩
    · exact hd
    · exact hrts.size.trans hd
  · obtain ⟨-, -, _, -, ⟨_, -, -, -, rfl⟩ | ⟨-, -, -, -, rfl⟩⟩ := registerAuthoritativeInner_ok hr
    · exact hd
    · exact hd
  · rw [hrel.routes]
    exact hd

/-- The barrier of a valid fence is valid. -/
theorem invalidBarrier_of_validFence {active : DurableReservation} {a : RouteAuthority}
    {b : ConsumedAuthoritativeRoute} (hv : ValidFence active) (ha : active.authority = some a)
    (hb : b.authority = a) (hg : b.generation = active.generation)
    (hf : b.fencingToken = active.fencingToken) :
    RouteCoordinator.invalidBarrier enc (a.key enc) b = false := by
  obtain ⟨hgen, htok, hnames⟩ := hv
  obtain ⟨hc, hs, hl, hj⟩ := hnames a ha
  subst hb
  simp only [RouteCoordinator.invalidBarrier, Bool.or_eq_false_iff, beq_eq_false_iff_ne,
    bne_eq_false_iff_eq, String.isEmpty_eq_false_iff]
  exact ⟨⟨⟨⟨⟨⟨hg ▸ hgen, hs⟩, hl⟩, hj⟩, hc⟩, hf ▸ htok⟩, rfl⟩

theorem RegistersAt.validFence {key : String} {fence : DurableReservation}
    (h : RegistersAt enc d d' request key fence) (hC : request.WithinBounds d) :
    ValidFence fence := by
  obtain ⟨connectorId, nativeId, jobId, reservation, now, fault, rfl, rfl, hval, -⟩ := h.request
  obtain ⟨-, hsrv, hgen, htok⟩ := offerInvalid_eq_false hval
  refine ⟨hgen, htok, ?_⟩
  intro a ha
  cases ha
  exact ⟨hC.1, hsrv, routeId_ne_empty, hC.2⟩

theorem Restartable.attempt (h : Restartable enc d) (hC : request.WithinBounds d)
    (hatt : d.attempt enc request = .ok d') : Restartable enc d' := by
  have hcnt := h.counters.attempt hatt
  have hlen := length_handoffs_attempt h.handoffs hC hatt
  have hrts := size_routes_attempt h.routes hatt
  rcases attempt_fences hatt with ⟨hres, hcons⟩ | ⟨hcons, key, fence, -, hres, hloc⟩ |
    ⟨hcons, key, fence, hreg⟩ | ⟨key, active, outcome, -, hterm⟩
  · exact ⟨hcnt, hlen, hrts, hcons ▸ h.consumed, hcons ▸ h.barriers, hres ▸ h.fences⟩
  · refine ⟨hcnt, hlen, hrts, hcons ▸ h.consumed, hcons ▸ h.barriers, ?_⟩
    rw [hres]
    exact forall_mem_insert (absurd (by simp [DurableReservation.authority, hloc])) h.fences
  · refine ⟨hcnt, hlen, hrts, hcons ▸ h.consumed, hcons ▸ h.barriers, ?_⟩
    rw [hreg.reservations]
    exact forall_mem_insert (fun _ => hreg.validFence hC) h.fences
  · have hfences : ∀ e ∈ d'.reservations.entries, e.2.authority ≠ none → ValidFence e.2 := by
      intro e he
      rw [hterm.reservations] at he
      exact h.fences e (mem_erase.mp he).1
    rcases hterm.consumes with
      ⟨-, hsame⟩ | ⟨a, b, ha, hb, hg, -, hf, -, ⟨_, -, -, hsame⟩ | ⟨-, hroom, hins⟩⟩
    · exact ⟨hcnt, hlen, hrts, hsame ▸ h.consumed, hsame ▸ h.barriers, hfences⟩
    · exact ⟨hcnt, hlen, hrts, hsame ▸ h.consumed, hsame ▸ h.barriers, hfences⟩
    · refine ⟨hcnt, hlen, hrts, ?_, ?_, hfences⟩
      · rw [hins]
        rcases hroom with hknown | hroom
        · exact (size_insert_le_of_contains hknown).trans h.consumed
        · exact size_insert_le.trans hroom
      · have hact := get?_eq_some_iff.mp hterm.fenced
        have hv := h.fences _ hact (by rw [ha]; exact Option.some_ne_none a)
        rw [hins]
        exact forall_mem_insert (invalidBarrier_of_validFence hv ha hb hg hf) h.barriers

theorem size_routes_repair : (d.reconcileCoordinationKeys enc).pruneAbsentRoutes.routes.size ≤
    d.routes.size :=
  (size_retain_le _).trans SortedMap.size_mapValues.le

theorem Restartable.openable (h : Restartable enc d) : RouteCoordinator.Openable enc d :=
  ⟨h.counters.version, h.handoffs, h.counters.topologyChanges, h.consumed,
    h.counters.acknowledged, h.barriers, h.counters.succ_le, size_routes_repair.trans h.routes⟩

theorem Restartable.repair (h : Restartable enc d) :
    Restartable enc (d.reconcileCoordinationKeys enc).pruneAbsentRoutes :=
  ⟨h.counters.repair, h.handoffs, size_routes_repair.trans h.routes, h.consumed, h.barriers,
    h.fences⟩

theorem restartable_fresh (ns : Uuid) : Restartable enc (fresh ns) where
  counters := counters_fresh ns
  handoffs := Nat.zero_le _
  routes := Nat.zero_le _
  consumed := Nat.zero_le _
  barriers := fun _ he => (SortedMap.mem_empty.mp he).elim
  fences := fun _ he => (SortedMap.mem_empty.mp he).elim

end CoordinatorDocument

open CoordinatorDocument

theorem restartable_kept {enc : Encoders} :
    Installation.Kept enc (Restartable enc) (fun d request => request.WithinBounds d) Set.univ :=
  .of_repair (fun ns _ => restartable_fresh ns) (fun _ h => h.repair)
    (fun _ _ _ h hC hatt => h.attempt hC hatt)

/-- **Restart closure.** In every run that records evidence only while the
handoff journal has room and whose offers name their connector and job, and
whatever restarts and failed writes it has: the journal passes all checks of
`open`, and a restart from it succeeds. -/
theorem restart_succeeds {enc : Encoders} {ops : List Op} (hops : Run.Meets (Installation.step enc)
      (Installation.InputsMeet (fun d request => request.WithinBounds d) Set.univ) .blank ops)
    (ns : Uuid) : (∀ d, (Installation.run enc .blank ops).journal = some d →
      RouteCoordinator.Openable enc d) ∧
    ((Installation.run enc .blank ops).start enc ns .written).1 = .ok () := by
  have hrec := Installation.recorded_of_run restartable_kept hops
  refine ⟨fun d hd => (hrec.journal d hd).openable, ?_⟩
  generalize Installation.run enc .blank ops = i at hrec
  have hopen : RouteCoordinator.Openable enc (i.journal.getD (.fresh ns)) := by
    rcases hj : i.journal with - | d
    · exact (restartable_fresh ns).openable
    · exact (hrec.journal d hj).openable
  simp only [Installation.start, RouteCoordinator.adopt_eq_ok_iff.mpr ⟨hopen, rfl⟩,
    RouteCoordinator.persist]

open Sample

/-- A restart after one offer has been registered and refused. -/
theorem restart_succeeds_office :
    ((Installation.run encoders .blank (opened ++ [.call officeRegistration] ++
      [.call officeRejection])).start encoders installationNamespace .written).1 = .ok () := by
  refine (restart_succeeds ?_ installationNamespace).2
  rw [Run.meets_append]
  constructor
  · refine Run.meets_of_forall ?_ _
    refine forall_mem_concat (List.forall_mem_cons.mpr ⟨fun _ => trivial, ?_⟩) ?_
    · exact List.forall_mem_singleton.mpr fun _ _ _ => trivial
    · exact fun _ _ _ => ⟨by decide, by decide⟩
  · refine ⟨?_, trivial⟩
    intro c hc
    obtain rfl := Installation.running.inj (run_registered.symm.trans hc)
    show registered.document.handoffs.length < maxHandoffs
    decide +kernel

/-! ### A journal that outgrows `open` -/

namespace Sample

def officeOffer (generation : Nat) : CloudRouteReservation := offer "srv-office" officeId generation

/-- The office offer of one generation is registered, and the printer refuses
the job. -/
def refusal (generation : Nat) : List Op :=
  [.call (.registerAuthoritative "cloud" "office" "job-1" (officeOffer generation) 0 noFault),
    .call (.finish "cloud" "job-1" (officeHandle generation) .rejectedBeforeHandoff none 1 noFault)]

/-- The job is offered and refused under `n` generations, with no
acknowledgement between them. -/
def refusals (n : Nat) : List Op := (List.range n).flatMap fun k => refusal (k + 1)

/-- The coordinator after `k` refusals. -/
structure Refused (k : Nat) (c : RouteCoordinator) : Prop where
  operational : c.poisoned = false
  journal : c.journal = some c.document
  version : c.document.version = documentVersion
  installation : c.document.installationNamespace = installationNamespace
  routes : c.document.routes = openedDocument.routes
  reservations : c.document.reservations.entries = []
  barriers : ∀ b ∈ c.document.consumedAuthoritativeRoutes.values,
    b.outcome ≠ .accepted ∧ b.generation ≤ k
  consumed : c.document.consumedAuthoritativeRoutes.size ≤ k
  handoffs : c.document.handoffs.length = k
  rejected : ∀ handoff ∈ c.document.handoffs,
    handoff.outcome = .rejectedBeforeHandoff ∧ handoff.fencingGeneration ≤ k

theorem offerInvalid_office (k : Nat) : offerInvalid officeId (officeOffer (k + 1)) 0 = false := by
  have hconcrete : offerInvalid officeId (officeOffer 1) 0 = false := by decide +kernel
  simp only [offerInvalid, Bool.or_eq_false_iff] at hconcrete ⊢
  obtain ⟨⟨⟨⟨⟨hrt, hsrv⟩, -⟩, htok⟩, hlong⟩, hlease⟩ := hconcrete
  exact ⟨⟨⟨⟨⟨hrt, hsrv⟩, rfl⟩, htok⟩, hlong⟩, hlease⟩

theorem find_office :
    openedDocument.routes.values.find? (·.routeId == officeId) = some (row officeId 0) := by
  decide +kernel

variable {k : Nat} {c : RouteCoordinator}

theorem Refused.replayRefusal (h : Refused k c) :
    c.document.replayRefusal encoders "cloud" "job-1" (officeOffer (k + 1)) = none := by
  unfold CoordinatorDocument.replayRefusal
  rw [if_neg, if_neg, if_neg, if_neg]
  · -- every recorded generation is smaller
    intro hstale
    obtain ⟨m, hm, hle⟩ := (Option.any_eq_true _ _).mp hstale
    obtain ⟨handoff, hh, rfl⟩ := mem_map.mp (List.max?_mem hm)
    have hgen := (h.rejected handoff (mem_filter.mp hh).1).2
    exact absurd (of_decide_eq_true hle) (Nat.not_le.mpr (Nat.lt_succ_of_le hgen))
  · intro hcross
    obtain ⟨handoff, hh, hcross⟩ := any_eq_true.mp hcross
    simp [DurableHandoff.crossed, (h.rejected handoff hh).1] at hcross
  · intro hold
    obtain ⟨b, hb, hold⟩ := (Option.any_eq_true _ _).mp hold
    have hmem := mem_values.mpr ⟨_, get?_eq_some_iff.mp hb⟩
    obtain ⟨hacc, hgen⟩ := h.barriers b hmem
    simp only [Bool.or_eq_true, beq_iff_eq, hacc, false_or, decide_eq_true_eq] at hold
    exact absurd hold (Nat.not_le.mpr (Nat.lt_succ_of_le hgen))
  · intro hacc
    obtain ⟨b, hb, hacc⟩ := any_eq_true.mp hacc
    simp [(h.barriers b hb).1] at hacc

/-- The fence of the office offer. -/
def officeFence (generation : Nat) : DurableReservation :=
  offered "cloud" "job-1" officeId (officeOffer generation)

theorem Refused.register (h : Refused k c) (hk : k < maxConsumedAuthoritativeRoutes) :
    c.document.registerAuthoritativeInner encoders "cloud" "office" "job-1" (officeOffer (k + 1))
        0 = .ok (⟨officeHandle (k + 1), true⟩, { c.document with
        reservations := c.document.reservations.insert officeId (officeFence (k + 1)) }) := by
  have hroom : c.document.barrierJournalFull encoders (authoritativeRouteKey encoders "cloud"
      (officeOffer (k + 1)).routeId (officeOffer (k + 1)).localRouteKey "job-1") = false := by
    have hnone : c.document.activeUnconsumed encoders = [] := by
      simp [activeUnconsumed, SortedMap.values, h.reservations]
    have hsize : ¬ maxConsumedAuthoritativeRoutes ≤ c.document.consumedAuthoritativeRoutes.size :=
      Nat.not_le.mpr (h.consumed.trans_lt hk)
    simp [barrierJournalFull, hnone, hsize]
  have hfree : c.document.reservations.get? officeId = none := by
    rw [get?_eq_none_iff, h.reservations]
    exact fun _ => not_mem_nil
  unfold registerAuthoritativeInner
  simp only [h.installation, routeId_office, offerInvalid_office, h.replayRefusal, h.routes,
    find_office, row, hfree, hroom, Bool.false_eq_true, if_false]
  rfl

theorem Refused.finish (h : Refused k c) (hk : k < maxConsumedAuthoritativeRoutes)
    {d : CoordinatorDocument} (hd : d = { c.document with
      reservations := c.document.reservations.insert officeId (officeFence (k + 1)) }) :
    ∃ d', d.finishInner encoders "cloud" "job-1" (officeHandle (k + 1)) .rejectedBeforeHandoff
        none 1 = .ok d' ∧ Refused (k + 1) { c with document := d', journal := some d' } := by
  have hact : d.reservations.get? officeId = some (officeFence (k + 1)) := by
    rw [hd]
    exact SortedMap.get?_insert_self
  have hval : d.validate (officeHandle (k + 1)) = .ok (officeFence (k + 1)) := by
    unfold CoordinatorDocument.validate
    rw [show (officeHandle (k + 1)).coordinationKey = officeId from rfl, hact]
    exact if_neg (by simp [officeHandle, officeFence, officeOffer, DurableReservation.handle])
  -- the barrier of the new generation replaces the previous one
  have hrec : ∀ d₁ : CoordinatorDocument,
      d₁.consumedAuthoritativeRoutes = c.document.consumedAuthoritativeRoutes →
      d₁.recordConsumedAuthoritativeRoute encoders (officeFence (k + 1)) .rejectedBeforeHandoff
        none 1 = .ok { d₁ with
          consumedAuthoritativeRoutes := c.document.consumedAuthoritativeRoutes.insert
            (authoritativeRouteKey encoders "cloud" "srv-office" officeId "job-1")
            ((officeFence (k + 1)).consumed "srv-office" .rejectedBeforeHandoff none 1) } := by
    intro d₁ hd₁
    unfold recordConsumedAuthoritativeRoute
    simp only [officeFence, offered, officeOffer, offer, hd₁]
    rw [if_neg, if_neg]
    · intro hold
      obtain ⟨b, hb, hold⟩ := (Option.any_eq_true _ _).mp hold
      have hmem := mem_values.mpr ⟨_, get?_eq_some_iff.mp hb⟩
      have hgen := (h.barriers b hmem).2
      exact absurd (of_decide_eq_true hold) (Nat.not_le.mpr (Nat.lt_succ_of_le hgen))
    · have hsize : ¬ maxConsumedAuthoritativeRoutes ≤
          c.document.consumedAuthoritativeRoutes.size := Nat.not_le.mpr (h.consumed.trans_lt hk)
      simp [hsize]
  rcases e : d.finishInner encoders "cloud" "job-1" (officeHandle (k + 1))
    .rejectedBeforeHandoff none 1 with error | d'
  · unfold CoordinatorDocument.finishInner at e
    simp only [hval, bind, Except.bind] at e
    rw [if_neg (by simp [officeFence, offered]), if_neg (by decide), hrec _ (by rw [hd]; rfl)] at e
    cases e
  obtain ⟨active, hval', -, -, ⟨hamb, -⟩ | ⟨-, d₁, hd₁, rfl⟩⟩ := finishInner_ok e
  · cases hamb
  cases hval.symm.trans hval'
  obtain rfl := Except.ok.inj ((hrec _ (by rw [hd]; rfl)).symm.trans hd₁)
  refine ⟨_, rfl, h.operational, rfl, ?_, ?_, ?_, ?_, ?_, ?_, ?_, ?_⟩
  · exact (congrArg CoordinatorDocument.version hd).trans h.version
  · exact (congrArg CoordinatorDocument.installationNamespace hd).trans h.installation
  · exact (congrArg CoordinatorDocument.routes hd).trans h.routes
  · refine eq_nil_iff_forall_not_mem.mpr fun fence hfence => ?_
    obtain ⟨hfence, hne⟩ := mem_erase.mp hfence
    have hres : fence ∈ (c.document.reservations.insert officeId (officeFence (k + 1))).entries :=
      by rwa [hd] at hfence
    rcases mem_insert.mp hres with rfl | ⟨-, hres⟩
    · exact hne rfl
    · rw [h.reservations] at hres
      cases hres
  · intro b hb
    obtain ⟨key, hb⟩ := mem_values.mp hb
    rcases mem_insert.mp hb with hb | ⟨-, hb⟩
    · cases hb
      exact ⟨NativeHandoffOutcome.noConfusion, le_rfl⟩
    · exact (h.barriers b (mem_values.mpr ⟨key, hb⟩)).imp_right Nat.le_succ_of_le
  · exact size_insert_le.trans (Nat.succ_le_succ h.consumed)
  · rw [hd]
    exact length_append.trans (congrArg (· + 1) h.handoffs)
  · rw [hd]
    exact forall_mem_append.mpr
      ⟨fun handoff hh => (h.rejected handoff hh).imp_right Nat.le_succ_of_le,
        forall_mem_singleton.mpr ⟨rfl, le_rfl⟩⟩

theorem Refused.refusal (h : Refused k c) (hk : k < maxConsumedAuthoritativeRoutes) :
    ∃ c', Installation.run encoders (.running c) (refusal (k + 1)) = .running c' ∧
      Refused (k + 1) c' := by
  obtain ⟨d', hd', href⟩ := h.finish hk rfl
  refine ⟨_, ?_, href⟩
  have hreg : c.transact _ noFault = _ :=
    RouteCoordinator.transact_written h.operational (h.register hk) rfl
  rw [Sample.refusal, ← singleton_append, Installation.run_append, Installation.run_call,
    Installation.run_call]
  simp only [RouteCoordinator.call, outcomeOnly, RouteCoordinator.registerAuthoritative, hreg]
  rw [RouteCoordinator.finish, RouteCoordinator.transact_unit_written ?_ hd' rfl]
  exact h.operational

theorem refused_refusals (h : Refused 0 c) (hk : k ≤ maxConsumedAuthoritativeRoutes) :
    ∃ c', Installation.run encoders (.running c) (refusals k) = .running c' ∧ Refused k c' := by
  induction k with
  | zero => exact ⟨c, rfl, h⟩
  | succ k ih =>
    obtain ⟨c₁, hrun, hc₁⟩ := ih (Nat.le_of_succ_le hk)
    obtain ⟨c₂, hrun₂, hc₂⟩ := hc₁.refusal hk
    refine ⟨c₂, ?_, hc₂⟩
    rw [refusals, range_succ, flatMap_append, Installation.run_append]
    rw [refusals] at hrun
    rw [hrun, flatMap_singleton]
    exact hrun₂

theorem refused_opened : Refused 0 openedCoordinator := by
  refine ⟨rfl, rfl, rfl, rfl, rfl, rfl, ?_, le_rfl, rfl, ?_⟩
  · nofun
  · nofun

end Sample

/-- The control plane's reservations are not counted against the handoff
journal: 513 offers refused before an acknowledgement leave a journal that
`open` refuses. -/
theorem journal_outgrows_open :
    ∃ c, Installation.run encoders .blank (opened ++ refusals 513) = .running c ∧
      c.poisoned = false ∧ c.journal = some c.document ∧ c.document.handoffs.length = 513 ∧
      ((Installation.run encoders .blank (opened ++ refusals 513)).start encoders
        installationNamespace .written).1 =
          bail "route coordinator state exceeds supported bounds" := by
  obtain ⟨c, hrun, h⟩ := refused_refusals (k := 513) refused_opened (by decide)
  have hall : Installation.run encoders .blank (opened ++ refusals 513) = .running c := by
    rw [Installation.run_append, run_opened, hrun]
  refine ⟨c, hall, h.operational, h.journal, h.handoffs, ?_⟩
  have hlong : c.document.handoffs.length > maxHandoffs := by
    rw [h.handoffs]
    decide
  rw [hall]
  simp only [Installation.start, Installation.journal, h.journal, RouteCoordinator.adopt,
    Option.getD_some, h.version, ne_eq, not_true_eq_false, if_false, hlong, true_or, if_true, bail]

end Piqae
