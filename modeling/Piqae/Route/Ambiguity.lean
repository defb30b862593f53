/-
Piqae/Route/Ambiguity.lean

Ambiguities.  An ambiguous record and the fence it keeps up are written by one
call of `finish` and taken away by one resolution, but they live in different
tables and carry the identity of the handoff separately.  `Paired` says that
they agree: every ambiguous record has its fence, no two ambiguous records
share an identity, and nothing in the journal or among the barriers already
decides an identity that is still fenced.

The pairing survives every request that names the fence it finishes and
finishes it only once (`Request.NamesFence`).  `finish` does not ask for
either, so it can also break it.
-/
import Piqae.Route.Replay

namespace Piqae

open SortedMap List

namespace CoordinatorDocument

variable {enc : Encoders} {K : KeySpace} {d d' : CoordinatorDocument} {key : String}
  {request : Request}

/-! ### Room for barriers -/

theorem mem_activeUnconsumed : key ∈ d.activeUnconsumed enc ↔
      (∃ e ∈ d.reservations.entries, ∃ a, e.2.authority = some a ∧ a.key enc = key) ∧
        d.consumedAuthoritativeRoutes.contains key = false := by
  simp only [activeUnconsumed, mem_dedup, mem_filter, mem_filterMap,
    SortedMap.values, mem_map, Bool.not_eq_true']
  constructor
  · rintro ⟨⟨r, ⟨e, he, rfl⟩, hkey⟩, hnew⟩
    obtain ⟨serverRouteId, hs, rfl⟩ := Option.map_eq_some_iff.mp hkey
    exact ⟨⟨e, he, _, Option.map_eq_some_iff.mpr ⟨serverRouteId, hs, rfl⟩, rfl⟩, hnew⟩
  · rintro ⟨⟨e, he, a, ha, rfl⟩, hnew⟩
    obtain ⟨serverRouteId, hs, rfl⟩ := Option.map_eq_some_iff.mp ha
    exact ⟨⟨e.2, ⟨e, he, rfl⟩, Option.map_eq_some_iff.mpr ⟨serverRouteId, hs, rfl⟩⟩, hnew⟩

theorem length_activeUnconsumed_le {l : List String}
    (h : ∀ key ∈ d.activeUnconsumed enc, key ∈ l) : (d.activeUnconsumed enc).length ≤ l.length :=
  (subperm_of_subset (nodup_dedup _) h).length_le

/-- Every active reservation can still leave its barrier. -/
def Room (enc : Encoders) (d : CoordinatorDocument) : Prop :=
  d.consumedAuthoritativeRoutes.size + (d.activeUnconsumed enc).length ≤
    maxConsumedAuthoritativeRoutes

theorem Room.fits (h : Room enc d) {e : String × DurableReservation}
    (he : e ∈ d.reservations.entries) {a : RouteAuthority} (ha : e.2.authority = some a) :
    d.consumedAuthoritativeRoutes.contains (a.key enc) = true ∨
      d.consumedAuthoritativeRoutes.size < maxConsumedAuthoritativeRoutes := by
  rcases hc : d.consumedAuthoritativeRoutes.contains (a.key enc) with - | -
  · right
    have hmem : a.key enc ∈ d.activeUnconsumed enc :=
      mem_activeUnconsumed.mpr ⟨⟨e, he, a, ha, rfl⟩, hc⟩
    have hpos := length_pos_of_mem hmem
    unfold Room at h
    omega
  · exact .inl rfl

/-- Fewer fences with authority and no fewer barriers need no more room. -/
theorem Room.shrink (h : Room enc d)
    (hres : ∀ e ∈ d'.reservations.entries, ∀ a, e.2.authority = some a → e ∈ d.reservations.entries)
    (hcons : d'.consumedAuthoritativeRoutes = d.consumedAuthoritativeRoutes) : Room enc d' := by
  have hle : (d'.activeUnconsumed enc).length ≤ (d.activeUnconsumed enc).length := by
    apply length_activeUnconsumed_le
    intro key hkey
    obtain ⟨⟨e, he, a, ha, hk⟩, hnew⟩ := mem_activeUnconsumed.mp hkey
    exact mem_activeUnconsumed.mpr ⟨⟨e, hres e he a ha, a, ha, hk⟩, hcons ▸ hnew⟩
  unfold Room at h ⊢
  rw [hcons]
  omega

theorem Room.register (h : Room enc d) {fence : DurableReservation}
    (hreg : RegistersAt enc d d' request key fence)
    (hcons : d'.consumedAuthoritativeRoutes = d.consumedAuthoritativeRoutes) : Room enc d' := by
  obtain ⟨connectorId, nativeId, jobId, reservation, now, fault, -, rfl, hval, -, hroom⟩ :=
    hreg.request
  rw [(offerInvalid_eq_false hval).1] at hroom
  generalize hk : authoritativeRouteKey enc connectorId reservation.routeId
    (routeId enc d.installationNamespace nativeId) jobId = barrier at hroom
  -- the new fence adds at most its own key
  have hmem : ∀ key' ∈ d'.activeUnconsumed enc, key' = barrier ∧
      d.consumedAuthoritativeRoutes.contains barrier = false ∨ key' ∈ d.activeUnconsumed enc := by
    intro key' hkey'
    obtain ⟨⟨e, he, a, ha, rfl⟩, hnew⟩ := mem_activeUnconsumed.mp hkey'
    rw [hcons] at hnew
    rw [hreg.reservations] at he
    rcases mem_insert.mp he with rfl | ⟨-, he⟩
    · left
      cases ha
      exact ⟨hk, hk ▸ hnew⟩
    · exact .inr (mem_activeUnconsumed.mpr ⟨⟨e, he, a, ha, rfl⟩, hnew⟩)
  unfold Room at h ⊢
  rw [hcons]
  by_cases hknown : d.consumedAuthoritativeRoutes.contains barrier = false ∧
      barrier ∉ d.activeUnconsumed enc
  · have hfree : d.consumedAuthoritativeRoutes.size + (d.activeUnconsumed enc).length <
        maxConsumedAuthoritativeRoutes := by
      simpa [barrierJournalFull, hknown.1, hknown.2] using hroom
    have hle : (d'.activeUnconsumed enc).length ≤ (barrier :: d.activeUnconsumed enc).length := by
      apply length_activeUnconsumed_le
      intro key' hkey'
      rcases hmem key' hkey' with ⟨rfl, -⟩ | hold
      · exact mem_cons_self
      · exact mem_cons_of_mem _ hold
    rw [length_cons] at hle
    omega
  · have hle : (d'.activeUnconsumed enc).length ≤ (d.activeUnconsumed enc).length := by
      apply length_activeUnconsumed_le
      intro key' hkey'
      rcases hmem key' hkey' with ⟨rfl, hnew⟩ | hold
      · by_contra hout
        exact hknown ⟨hnew, hout⟩
      · exact hold
    omega

theorem Room.terminate (h : Room enc d) {active : DurableReservation}
    {outcome : NativeHandoffOutcome} (hterm : TerminatesAt enc d d' key active outcome) :
    Room enc d' := by
  have hsub : ∀ e ∈ d'.reservations.entries, e ∈ d.reservations.entries := by
    intro e he
    rw [hterm.reservations] at he
    exact (mem_erase.mp he).1
  rcases hterm.consumes with ⟨-, hsame⟩ | ⟨a, b, ha, -, -, -, -, -, ⟨_, -, -, hsame⟩ | ⟨-, -, hins⟩⟩
  · exact h.shrink (fun e he _ _ => hsub e he) hsame
  · exact h.shrink (fun e he _ _ => hsub e he) hsame
  -- the barrier takes the place that was kept for it
  have hact := get?_eq_some_iff.mp hterm.fenced
  have hmem : ∀ key' ∈ d'.activeUnconsumed enc,
      key' ∈ d.activeUnconsumed enc ∧ key' ≠ a.key enc := by
    intro key' hkey'
    obtain ⟨⟨e, he, a', ha', rfl⟩, hnew⟩ := mem_activeUnconsumed.mp hkey'
    rw [hins, contains_eq_false_iff] at hnew
    have hne : a'.key enc ≠ a.key enc := by
      intro heq
      rw [heq, SortedMap.get?_insert_self] at hnew
      cases hnew
    rw [get?_insert_ne hne, ← contains_eq_false_iff] at hnew
    exact ⟨mem_activeUnconsumed.mpr ⟨⟨e, hsub e he, a', ha', rfl⟩, hnew⟩, hne⟩
  unfold Room at h ⊢
  rw [hins]
  rcases hc : d.consumedAuthoritativeRoutes.contains (a.key enc) with - | -
  · have hkept : a.key enc ∈ d.activeUnconsumed enc :=
      mem_activeUnconsumed.mpr ⟨⟨_, hact, a, ha, rfl⟩, hc⟩
    have hle : (d'.activeUnconsumed enc).length ≤
        ((d.activeUnconsumed enc).erase (a.key enc)).length := by
      apply length_activeUnconsumed_le
      intro key' hkey'
      obtain ⟨hold, hne⟩ := hmem key' hkey'
      exact (mem_erase_of_ne hne).mpr hold
    rw [length_erase_of_mem hkept] at hle
    have hpos := length_pos_of_mem hkept
    have hsize := size_insert_le (m := d.consumedAuthoritativeRoutes) (k := a.key enc) (v := b)
    omega
  · have hle : (d'.activeUnconsumed enc).length ≤ (d.activeUnconsumed enc).length :=
      length_activeUnconsumed_le fun key' hkey' => (hmem key' hkey').1
    have hsize := size_insert_le_of_contains (v := b) hc
    omega

theorem Room.attempt (h : Room enc d) (hatt : d.attempt enc request = .ok d') : Room enc d' := by
  rcases attempt_fences hatt with ⟨hres, hcons⟩ | ⟨hcons, key, fence, -, hres, hloc⟩ |
    ⟨hcons, key, fence, hreg⟩ | ⟨key, active, outcome, -, hterm⟩
  · exact h.shrink (fun e he _ _ => hres ▸ he) hcons
  · refine h.shrink (fun e he a ha => ?_) hcons
    rw [hres] at he
    rcases mem_insert.mp he with rfl | ⟨-, he⟩
    · simp [DurableReservation.authority, hloc] at ha
    · exact he
  · exact h.register hreg hcons
  · exact h.terminate hterm

end CoordinatorDocument

/-! ### Records and fences -/

/-- The request keeps records and fences recognisable: evidence names the route
of the fence it is about and comes before any ambiguous record of it, a local
fence gets an id that nothing recorded carries, and no offer repeats the
identity of a barrier. -/
def Request.NamesFence (d : CoordinatorDocument) : Request → Prop
  | .finish _ _ handle _ _ _ _ | .finishRuntime _ _ handle _ _ _ _ _ =>
    ∀ active, d.validate handle = .ok active → handle.localRouteKey = active.localRouteKey ∧
      ∀ handoff ∈ d.handoffs, handoff.identity = active.identity → handoff.outcome ≠ .ambiguous
  | .reserve _ _ _ _ reservationId _ _ =>
    (∀ handoff ∈ d.handoffs, handoff.reservationId ≠ reservationId) ∧
      ∀ barrier ∈ d.consumedAuthoritativeRoutes.values, barrier.reservationId ≠ reservationId
  | .registerAuthoritative connectorId _ jobId reservation _ _ =>
    ∀ barrier ∈ d.consumedAuthoritativeRoutes.values, barrier.identity ≠
      ⟨connectorId, jobId, reservation.localRouteKey, reservation.reservationId,
        reservation.generation⟩
  | _ => True

theorem Request.NamesFence.finishes {d : CoordinatorDocument} {request : Request}
    {handle : RouteReservation} {outcome : NativeHandoffOutcome} (hC : request.NamesFence d)
    (h : request.finishes = some (handle, outcome)) {active : DurableReservation}
    (hact : d.validate handle = .ok active) :
    active.recordedAs handle.localRouteKey = active.identity ∧
      ∀ handoff ∈ d.handoffs, handoff.identity = active.identity →
        handoff.outcome ≠ .ambiguous := by
  have hnames : handle.localRouteKey = active.localRouteKey ∧ ∀ handoff ∈ d.handoffs,
      handoff.identity = active.identity → handoff.outcome ≠ .ambiguous := by
    cases request
    case finish | finishRuntime =>
      cases h
      exact hC active hact
    all_goals cases h
  refine ⟨?_, hnames.2⟩
  rw [hnames.1]
  rfl

namespace CoordinatorDocument

variable {enc : Encoders} {K : KeySpace} {d d' : CoordinatorDocument} {key : String}
  {active : DurableReservation} {outcome : NativeHandoffOutcome}
  {before after : List DurableHandoff} {record handoff : DurableHandoff}
  {e : String × DurableReservation}

/-- Two records are not ambiguous about one identity. -/
def Apart (handoff handoff' : DurableHandoff) : Prop :=
  handoff.outcome = .ambiguous → handoff'.outcome = .ambiguous →
    handoff.identity ≠ handoff'.identity

/-- Ambiguous records and fences belong together. -/
structure Paired (enc : Encoders) (K : KeySpace) (d : CoordinatorDocument) : Prop where
  owned : Owned enc K d
  room : Room enc d
  fenced : ∀ handoff ∈ d.handoffs, handoff.outcome = .ambiguous →
    ∃ e ∈ d.reservations.entries, e.2.identity = handoff.identity
  single : d.handoffs.Pairwise Apart
  unresolved : ∀ e ∈ d.reservations.entries, ∀ handoff ∈ d.handoffs,
    handoff.identity = e.2.identity → handoff.outcome = .ambiguous
  unconsumed : ∀ e ∈ d.reservations.entries, ∀ barrier ∈ d.consumedAuthoritativeRoutes.values,
    barrier.identity ≠ e.2.identity

theorem Owned.eq_of_identity (h : Owned enc K d) {e' : String × DurableReservation}
    (he : e ∈ d.reservations.entries) (he' : e' ∈ d.reservations.entries)
    (hid : e.2.identity = e'.2.identity) : e = e' :=
  h.unique e he e' he' (congrArg HandoffIdentity.localRouteKey hid)

/-- The journal may lose records while fences and barriers stay. -/
theorem Paired.frame (h : Paired enc K d) (hown : Owned enc K d') (hroom : Room enc d')
    (hres : d'.reservations = d.reservations)
    (hcons : d'.consumedAuthoritativeRoutes = d.consumedAuthoritativeRoutes)
    (hhand : d'.handoffs.Sublist d.handoffs) : Paired enc K d' := by
  refine ⟨hown, hroom, ?_, h.single.sublist hhand, ?_, ?_⟩
  · rw [hres]
    exact fun handoff hh => h.fenced handoff (hhand.subset hh)
  · rw [hres]
    exact fun e he handoff hh => h.unresolved e he handoff (hhand.subset hh)
  · rw [hcons, hres]
    exact h.unconsumed

/-- A new fence with an identity that no record and no barrier carries. -/
theorem Paired.grant (h : Paired enc K d) (hown : Owned enc K d') (hroom : Room enc d')
    {fence : DurableReservation} (hfree : d.reservations.get? key = none)
    (hres : d'.reservations = d.reservations.insert key fence)
    (hcons : d'.consumedAuthoritativeRoutes = d.consumedAuthoritativeRoutes)
    (hhand : d'.handoffs = d.handoffs)
    (hrecs : ∀ handoff ∈ d.handoffs, handoff.identity ≠ fence.identity)
    (hbarriers : ∀ barrier ∈ d.consumedAuthoritativeRoutes.values,
      barrier.identity ≠ fence.identity) : Paired enc K d' := by
  refine ⟨hown, hroom, ?_, ?_, ?_, ?_⟩
  · intro handoff hh hamb
    rw [hhand] at hh
    obtain ⟨e, he, hid⟩ := h.fenced handoff hh hamb
    have hne : e.1 ≠ key := by
      intro heq
      exact get?_eq_none_iff.mp hfree e.2 (heq ▸ he)
    exact ⟨e, hres ▸ mem_insert.mpr (.inr ⟨hne, he⟩), hid⟩
  · rw [hhand]
    exact h.single
  · rw [hhand, hres]
    exact forall_mem_insert (fun handoff hh hid => absurd hid (hrecs handoff hh)) h.unresolved
  · rw [hcons, hres]
    exact forall_mem_insert hbarriers h.unconsumed

/-- The end of a fence whose ambiguous records have all been decided. -/
theorem Paired.terminate (h : Paired enc K d) (hown : Owned enc K d') (hroom : Room enc d')
    (hterm : TerminatesAt enc d d' key active outcome)
    (hsub : ∀ handoff ∈ d'.handoffs, handoff ∈ d.handoffs ∨
      handoff.identity = active.identity ∧ handoff.outcome ≠ .ambiguous)
    (hgone : ∀ handoff ∈ d'.handoffs, handoff.identity = active.identity →
      handoff.outcome ≠ .ambiguous) (hsing : d'.handoffs.Pairwise Apart) : Paired enc K d' := by
  have hact := get?_eq_some_iff.mp hterm.fenced
  have hother : ∀ e ∈ d'.reservations.entries, e ∈ d.reservations.entries ∧
      e.2.identity ≠ active.identity := by
    intro e he
    rw [hterm.reservations] at he
    obtain ⟨he, hne⟩ := mem_erase.mp he
    exact ⟨he, fun hid => hne (congrArg Prod.fst (h.owned.eq_of_identity he hact hid))⟩
  refine ⟨hown, hroom, ?_, hsing, ?_, ?_⟩
  · intro handoff hh hamb
    have hne : handoff.identity ≠ active.identity := fun hid => hgone handoff hh hid hamb
    rcases hsub handoff hh with hold | ⟨hid, -⟩
    · obtain ⟨e, he, hid⟩ := h.fenced handoff hold hamb
      refine ⟨e, ?_, hid⟩
      rw [hterm.reservations, mem_erase]
      refine ⟨he, fun hkey => hne ?_⟩
      rw [← hid, eq_of_mem_of_mem he hact hkey]
    · exact absurd hid hne
  · intro e he handoff hh hid
    obtain ⟨he, hne⟩ := hother e he
    rcases hsub handoff hh with hold | ⟨hid', -⟩
    · exact h.unresolved e he handoff hold hid
    · exact absurd (hid.symm.trans hid') hne
  · intro e he barrier hb
    obtain ⟨he, hne⟩ := hother e he
    rcases hterm.barrier_of_mem hb with hold | hnew
    · exact h.unconsumed e he barrier hold
    · exact fun hid => hne (hid.symm.trans hnew.2.1)

/-- The record of an identity can be decided in place. -/
theorem pairwise_apart_resolve (hne : outcome ≠ .ambiguous)
    (h : (before ++ record :: after).Pairwise Apart) :
    (before ++ { record with outcome := outcome } :: after).Pairwise Apart := by
  obtain ⟨hbef, haft, hcross⟩ := pairwise_append.mp h
  refine pairwise_append.mpr ⟨hbef, ?_, ?_⟩
  · refine pairwise_cons.mpr ⟨?_, (pairwise_cons.mp haft).2⟩
    intro handoff _ hamb
    exact absurd hamb hne
  · intro handoff hh handoff' hh'
    rcases mem_cons.mp hh' with rfl | hh'
    · intro _ hamb
      exact absurd hamb hne
    · exact hcross handoff hh handoff' (mem_cons_of_mem _ hh')

theorem Paired.attempt (hK : RouteIdsDistinct enc K) (h : Paired enc K d) {request : Request}
    (hnames : request.NamesIn K) (hC : request.NamesFence d)
    (hatt : d.attempt enc request = .ok d') : Paired enc K d' := by
  have howned := h.owned.attempt hK hnames hatt
  have hroom := h.room.attempt hatt
  rcases attempt_effect hatt with ⟨hres, hcons, hhand, -⟩ |
    ⟨_, keep, -, hkeep, -, hres, hcons, hhand, -⟩ |
    ⟨key, fence, hfree, hreq, -, hres, hcons, hhand, -⟩ | ⟨key, fence, hreg, hcons, hhand, -⟩ |
    ⟨_, _, handle, outcome, active, record, -, hfin, hspec⟩ |
    ⟨_, resolution, _, key, active, record, before, after, -, hspec⟩
  · exact h.frame howned hroom hres hcons (hhand ▸ .refl _)
  · exact h.frame howned hroom hres hcons (hhand ▸ filter_sublist)
  · -- the id of a local fence is new
    obtain ⟨nativeId, now, fencingToken, fault, rfl⟩ := hreq
    refine h.grant howned hroom hfree hres hcons hhand ?_ ?_
    · exact fun handoff hh hid => hC.1 handoff hh (congrArg HandoffIdentity.reservationId hid)
    · exact fun barrier hb hid => hC.2 barrier hb (congrArg HandoffIdentity.reservationId hid)
  · -- an offer that passed the replay check is newer than every record of its job
    have hfree := hreg.free
    have hres := hreg.reservations
    obtain ⟨connectorId, nativeId, jobId, reservation, now, fault, rfl, rfl, hval, hrep, -⟩ :=
      hreg.request
    refine h.grant howned hroom hfree hres hcons hhand ?_ ?_
    · intro handoff hh hid
      obtain ⟨hc, hj, -, -, hg⟩ := HandoffIdentity.mk.inj hid
      have hlt := ((replayRefusal_eq_none hrep).2.2 handoff hh hc hj).2
      exact absurd hg (Nat.ne_of_lt hlt)
    · intro barrier hb hid
      refine hC barrier hb (hid.trans ?_)
      rw [(offerInvalid_eq_false hval).1]
      rfl
  · -- the new record names its fence, and is the first to be ambiguous about it
    obtain ⟨hown, hfst⟩ := hC.finishes hfin hspec.valid
    have hid := hspec.identity
    rw [hown] at hid
    have hhand := hspec.handoffs
    have hact := get?_eq_some_iff.mp (validate_ok hspec.valid).1
    have hsing : d'.handoffs.Pairwise Apart := by
      rw [hhand]
      refine pairwise_append.mpr ⟨h.single, pairwise_singleton _ _, ?_⟩
      intro handoff hh handoff' hh' hamb' _ hid'
      rw [mem_singleton.mp hh', hid] at hid'
      exact hfst handoff hh hid' hamb'
    rcases hspec.fences with ⟨hamb, hres, hcons⟩ | ⟨hne, hterm⟩
    · refine ⟨howned, hroom, ?_, hsing, ?_, ?_⟩
      · rw [hhand, hres]
        exact forall_mem_append.mpr
          ⟨h.fenced, forall_mem_singleton.mpr fun _ => ⟨_, hact, hid.symm⟩⟩
      · rw [hhand, hres]
        exact fun e he => forall_mem_append.mpr
          ⟨h.unresolved e he, forall_mem_singleton.mpr fun _ => hspec.recorded.trans hamb⟩
      · rw [hres, hcons]
        exact h.unconsumed
    · rw [← hspec.recorded] at hne
      refine h.terminate howned hroom hterm ?_ ?_ hsing
      · rw [hhand]
        exact forall_mem_append.mpr
          ⟨fun _ => .inl, forall_mem_singleton.mpr (.inr ⟨hid, hne⟩)⟩
      · rw [hhand]
        exact forall_mem_append.mpr ⟨hfst, forall_mem_singleton.mpr fun _ => hne⟩
  · -- the resolved record was the only ambiguous one of its fence
    have hne := resolution_outcome_ne resolution
    have hsplit := hspec.split
    have hid := hspec.recorded.trans hspec.fence.symm
    have hsing := h.single
    rw [hsplit] at hsing
    have hsub : ∀ handoff ∈ d'.handoffs,
        handoff ∈ before ++ { record with outcome := resolution.outcome } :: after := by
      intro handoff hh
      rw [hspec.handoffs] at hh
      split_ifs at hh
      · exact (mem_filter.mp hh).1
      · exact hh
    have hapart := pairwise_apart_resolve hne hsing
    refine h.terminate howned hroom hspec.terminates ?_ ?_ ?_
    · intro handoff hh
      rw [hsplit]
      rcases mem_append.mp (hsub handoff hh) with hh | hh
      · exact .inl (mem_append_left _ hh)
      · rcases mem_cons.mp hh with rfl | hh
        · exact .inr ⟨hid, hne⟩
        · exact .inl (mem_append_right _ (mem_cons_of_mem _ hh))
    · intro handoff hh hid' hamb'
      rcases mem_append.mp (hsub handoff hh) with hh | hh
      · exact (pairwise_append.mp hsing).2.2 handoff hh record mem_cons_self hamb'
          hspec.ambiguous (hid'.trans hid.symm)
      · rcases mem_cons.mp hh with rfl | hh
        · exact hne hamb'
        · exact hspec.last handoff hh (hid'.trans hspec.fence) hamb'
    · rw [hspec.handoffs]
      split_ifs
      · exact hapart.filter _
      · exact hapart

theorem Paired.repair (hK : RouteIdsDistinct enc K) (h : Paired enc K d) :
    Paired enc K (d.reconcileCoordinationKeys enc).pruneAbsentRoutes :=
  { h with owned := h.owned.repair hK }

theorem paired_fresh {ns : Uuid} (hns : ns ∈ K.namespaces) : Paired enc K (fresh ns) where
  owned := owned_fresh hns
  room := Nat.zero_le _
  fenced := nofun
  single := List.Pairwise.nil
  unresolved := fun _ he => (SortedMap.mem_empty.mp he).elim
  unconsumed := fun _ he => (SortedMap.mem_empty.mp he).elim

/-! ### Resolution -/

theorem recordConsumedAuthoritativeRoute_of_fits (h : ∀ a, active.authority = some a →
      d.consumedAuthoritativeRoutes.contains (a.key enc) = true ∨
        d.consumedAuthoritativeRoutes.size < maxConsumedAuthoritativeRoutes)
    (outcome : NativeHandoffOutcome) (nativeJobId : Option String) (observedAt : DateTime) :
    ∃ d₁, d.recordConsumedAuthoritativeRoute enc active outcome nativeJobId observedAt =
      .ok d₁ := by
  unfold recordConsumedAuthoritativeRoute
  rcases hs : active.serverRouteId with - | serverRouteId
  · exact ⟨d, rfl⟩
  have hfits := h _ (Option.map_eq_some_iff.mpr ⟨serverRouteId, hs, rfl⟩)
  dsimp only
  rw [if_neg]
  · split_ifs
    · exact ⟨_, rfl⟩
    · exact ⟨_, rfl⟩
  · rcases hfits with hknown | hroom
    · simp only [RouteAuthority.key] at hknown
      simp [hknown]
    · simp only [Bool.and_eq_true, decide_eq_true_eq, not_and, Nat.not_le]
      exact fun _ => hroom

/-- Nothing has decided the identity of an active fence yet. -/
theorem Paired.priorResolution (h : Paired enc K d) (he : e ∈ d.reservations.entries) :
    d.priorResolution e.2.identity = none := by
  have hbar : d.consumedAuthoritativeRoutes.values.find? (·.identity == e.2.identity) = none := by
    rw [List.find?_eq_none]
    intro barrier hb hid
    exact h.unconsumed e he barrier hb (by simpa using hid)
  unfold CoordinatorDocument.priorResolution
  rw [hbar]
  rcases hlatest : d.latestHandoff e.2.identity with - | handoff
  · rfl
  have hmem : handoff ∈ d.handoffs := mem_reverse.mp (mem_of_find?_eq_some hlatest)
  have hid : handoff.identity = e.2.identity := by simpa using List.find?_some hlatest
  simp [Option.filter, h.unresolved e he handoff hmem hid]

theorem resolveActive_eq {identity : HandoffIdentity} {resolution : AmbiguousHandoffResolution}
    {handoffs : List DurableHandoff} {d₁ : CoordinatorDocument}
    (hprior : d.priorResolution identity = none)
    (hfind : d.reservations.findEntry? (fun _ reservation => reservation.identity == identity) =
      some (key, active))
    (hu : updateLast (fun handoff => handoff.identity == identity && handoff.outcome == .ambiguous)
      (fun handoff => { handoff with outcome := resolution.outcome }) d.handoffs =
        some (record, handoffs))
    (hd₁ : { d with handoffs := handoffs }.recordConsumedAuthoritativeRoute enc active
      resolution.outcome record.nativeJobId record.observedAt = .ok d₁) :
    d.resolveAmbiguousHandoffInner enc identity resolution = .ok { d₁ with
      reservations := d₁.reservations.erase key
      handoffs := if record.sequence ≤
          (d₁.acknowledgedHandoffSequences.get? identity.connectorId).getD 0
        then d₁.handoffs.filter (·.sequence != record.sequence) else d₁.handoffs } := by
  simp only [resolveAmbiguousHandoffInner, hprior, resolveActive, hfind, hu, orBail, bind,
    Except.bind, hd₁]

theorem not_mem_of_apart (h : (before ++ record :: after).Pairwise Apart)
    (hrec : record.outcome = .ambiguous) (hamb : handoff.outcome = .ambiguous)
    (hid : handoff.identity = record.identity) : handoff ∉ before ∧ handoff ∉ after := by
  obtain ⟨-, haft, hcross⟩ := pairwise_append.mp h
  constructor
  · intro hh
    exact hcross handoff hh record mem_cons_self hamb hrec hid
  · intro hh
    exact (pairwise_cons.mp haft).1 handoff hh hrec hamb hid.symm

/-- The record after its resolution: decided in place, or dropped when it had
been acknowledged. -/
def RecordResolved (d d' : CoordinatorDocument) (handoff : DurableHandoff)
    (outcome : NativeHandoffOutcome) : Prop :=
  handoff ∉ d'.handoffs ∧
    if handoff.sequence ≤ (d.acknowledgedHandoffSequences.get? handoff.connectorId).getD 0
    then { handoff with outcome := outcome } ∉ d'.handoffs
    else { handoff with outcome := outcome } ∈ d'.handoffs

theorem recordResolved_of_split (hne : outcome ≠ .ambiguous) (hamb : handoff.outcome = .ambiguous)
    (hout : handoff ∉ before ∧ handoff ∉ after) (hhand : d'.handoffs =
      if handoff.sequence ≤ (d.acknowledgedHandoffSequences.get? handoff.connectorId).getD 0
      then (before ++ { handoff with outcome := outcome } :: after).filter
        (·.sequence != handoff.sequence)
      else before ++ { handoff with outcome := outcome } :: after) :
    RecordResolved d d' handoff outcome := by
  have hgone : handoff ∉ before ++ { handoff with outcome := outcome } :: after := by
    rw [mem_append, mem_cons]
    refine not_or.mpr ⟨hout.1, not_or.mpr ⟨fun heq => ?_, hout.2⟩⟩
    exact hne ((congrArg DurableHandoff.outcome heq).symm.trans hamb)
  unfold RecordResolved
  rw [hhand]
  split_ifs
  · refine ⟨fun hh => hgone (mem_filter.mp hh).1, ?_⟩
    intro hh
    have hseq := (mem_filter.mp hh).2
    simp at hseq
  · exact ⟨hgone, mem_append_right _ mem_cons_self⟩

/-- **An ambiguity can be resolved** either way, and its resolution removes the
fence and decides the record. -/
theorem Paired.resolves (h : Paired enc K d) (hh : handoff ∈ d.handoffs)
    (hamb : handoff.outcome = .ambiguous) :
    ∃ key active, d.reservations.get? key = some active ∧ active.identity = handoff.identity ∧
      ∀ resolution, ∃ d', d.resolveAmbiguousHandoffInner enc handoff.identity resolution = .ok d' ∧
        d'.reservations.get? key = none ∧ RecordResolved d d' handoff resolution.outcome := by
  obtain ⟨⟨key, active⟩, he, hid⟩ := h.fenced handoff hh hamb
  refine ⟨key, active, get?_eq_some_iff.mpr he, hid, ?_⟩
  intro resolution
  have hprior : d.priorResolution handoff.identity = none := hid ▸ h.priorResolution he
  have hfind : d.reservations.findEntry? (fun _ reservation =>
      reservation.identity == handoff.identity) = some (key, active) := by
    rcases hf : d.reservations.findEntry? fun _ reservation =>
      reservation.identity == handoff.identity with - | e
    · have hnot := findEntry?_none hf _ he
      simp [hid] at hnot
    · obtain ⟨hmem, hid'⟩ := findEntry?_some hf
      have heq : e.2.identity = active.identity := (beq_iff_eq.mp hid').trans hid.symm
      rw [h.owned.eq_of_identity hmem he heq]
  rcases hu : updateLast (fun other : DurableHandoff =>
      other.identity == handoff.identity && other.outcome == .ambiguous)
    (fun other => { other with outcome := resolution.outcome }) d.handoffs with
    - | ⟨record, handoffs⟩
  · have hnot := updateLast_eq_none hu handoff hh
    simp [hamb] at hnot
  obtain ⟨before, after, hsplit, rfl, hrec, -⟩ := updateLast_eq_some hu
  simp only [Bool.and_eq_true, beq_iff_eq] at hrec
  -- the record found is the one asked about: no other is ambiguous about the identity
  have hsing := h.single
  rw [hsplit] at hsing
  have hout := not_mem_of_apart hsing hrec.2 hamb hrec.1.symm
  obtain rfl : handoff = record := by
    rw [hsplit, mem_append, mem_cons] at hh
    exact (hh.resolve_left hout.1).resolve_right hout.2
  obtain ⟨d₁, hd₁⟩ : ∃ d₁, { d with handoffs := before ++ { handoff with
      outcome := resolution.outcome } :: after }.recordConsumedAuthoritativeRoute enc active
        resolution.outcome handoff.nativeJobId handoff.observedAt = .ok d₁ := by
    apply recordConsumedAuthoritativeRoute_of_fits
    exact fun a ha => h.room.fits he ha
  refine ⟨_, resolveActive_eq hprior hfind hu hd₁, ?_, ?_⟩
  · exact get?_erase_self
  · rw [recordConsumedAuthoritativeRoute_frame hd₁]
    exact recordResolved_of_split (resolution_outcome_ne resolution) hamb hout rfl

end CoordinatorDocument

open CoordinatorDocument

theorem paired_kept {enc : Encoders} {K : KeySpace} (hK : RouteIdsDistinct enc K) :
    Installation.Kept enc (Paired enc K)
      (fun d request => request.NamesIn K ∧ request.NamesFence d) K.namespaces :=
  .of_repair (fun _ hns => paired_fresh hns) (fun _ h => h.repair hK)
    (fun _ _ _ h hC hatt => h.attempt hK hC.1 hC.2 hatt)

/-- **Every ambiguity is resolvable.** In every run whose evidence names the
fence it is about and finishes it once, whose local reservations draw new ids,
and whose offers repeat no consumed identity: each ambiguous record has an
active fence of the same identity, and a resolution of that identity, either
way, succeeds when its write does, removes the fence and decides the record. -/
theorem ambiguity_resolvable {enc : Encoders} {K : KeySpace} (hK : RouteIdsDistinct enc K)
    {ops : List Op} (hops : Run.Meets (Installation.step enc) (Installation.InputsMeet
      (fun d request => request.NamesIn K ∧ request.NamesFence d) K.namespaces) .blank ops)
    {c : RouteCoordinator} (hrun : Installation.run enc .blank ops = .running c)
    {handoff : DurableHandoff} (hh : handoff ∈ c.document.handoffs)
    (hamb : handoff.outcome = .ambiguous) :
    ∃ key active, c.document.reservations.get? key = some active ∧
      active.identity = handoff.identity ∧
      ∀ resolution fault, c.poisoned = false → fault.persist = .written →
        ∃ d', c.resolveAmbiguousHandoff enc handoff.identity resolution fault =
            (.ok (), { c with document := d', journal := some d' }) ∧
          d'.reservations.get? key = none ∧
          RecordResolved c.document d' handoff resolution.outcome := by
  have hrec := Installation.recorded_of_run (paired_kept hK) hops
  have hpaired : Paired enc K c.document := hrec.document c hrun
  obtain ⟨key, active, hact, hid, hrs⟩ := hpaired.resolves hh hamb
  refine ⟨key, active, hact, hid, ?_⟩
  intro resolution fault hp hfault
  obtain ⟨d', hd', hgone, hrecord⟩ := hrs resolution
  exact ⟨d', RouteCoordinator.transact_unit_written hp hd' hfault, hgone, hrecord⟩

namespace Sample

/-- A local reservation of the office queue for a job of the connector `cloud`. -/
def officeReserve : Request := .reserve "cloud" "office" "job-1" 0 1#128 2#128 noFault

def localHandle : RouteReservation :=
  (localReservation officeId "cloud" "job-1" 0 1#128 2#128 1).handle officeId officeId

/-- Evidence of the given outcome on the local reservation. -/
def officeEvidence (outcome : NativeHandoffOutcome) : Request :=
  .finish "cloud" "job-1" localHandle outcome none 1 noFault

def reserved : RouteCoordinator := (openedCoordinator.call encoders officeReserve).2

/-- The native call timed out: its outcome is unknown, and the queue is fenced. -/
def inDoubt : RouteCoordinator := (reserved.call encoders (officeEvidence .ambiguous)).2

/-- Later the native call is found to have been accepted. -/
def settled : RouteCoordinator := (inDoubt.call encoders (officeEvidence .accepted)).2

/-- The record of the doubt. -/
def doubt : DurableHandoff where
  sequence := 1
  connectorId := "cloud"
  serverRouteId := none
  localRouteKey := officeId
  jobId := "job-1"
  reservationId := 1#128
  fencingGeneration := 1
  fencingToken := Uuid.text 2#128
  observedAt := 1
  outcome := .ambiguous
  nativeJobId := none

theorem run_reserved :
    Installation.run encoders .blank (opened ++ [.call officeReserve]) = .running reserved := by
  rw [Installation.run_append, run_opened, Installation.run_call]
  rfl

theorem run_inDoubt : Installation.run encoders .blank (opened ++ [.call officeReserve] ++
      [.call (officeEvidence .ambiguous)]) = .running inDoubt := by
  rw [Installation.run_append, run_reserved, Installation.run_call]
  rfl

end Sample

open Sample

/-- The doubt about the office reservation is resolved. -/
theorem ambiguity_resolvable_office :
    ∃ d', inDoubt.resolveAmbiguousHandoff encoders doubt.identity .releaseForRetry noFault =
        (.ok (), { inDoubt with document := d', journal := some d' }) ∧
      RecordResolved inDoubt.document d' doubt .rejectedBeforeHandoff := by
  have hfacts : doubt ∈ inDoubt.document.handoffs ∧ inDoubt.poisoned = false := by
    decide +kernel
  have hmeets : Run.Meets (.step encoders) (Installation.InputsMeet
      (fun d request => request.NamesIn keySpace ∧ request.NamesFence d) keySpace.namespaces) .blank
        (opened ++ [.call officeReserve] ++ [.call (officeEvidence .ambiguous)]) := by
    rw [Run.meets_append, Run.meets_append]
    refine ⟨⟨?_, ?_, trivial⟩, ?_, trivial⟩
    · refine Run.meets_of_forall ?_ _
      intro op hop i
      have hnames := opened_namesIn op hop
      rcases List.mem_cons.mp hop with rfl | hop
      · exact hnames
      · rw [List.mem_singleton.mp hop] at hnames ⊢
        exact fun _ _ => ⟨hnames, trivial⟩
    · intro c hc
      obtain rfl := Installation.running.inj (run_opened.symm.trans hc)
      exact ⟨.inl rfl, nofun, nofun⟩
    · intro c hc
      obtain rfl := Installation.running.inj (run_reserved.symm.trans hc)
      have hresd : reserved.document.validate localHandle =
            .ok (localReservation officeId "cloud" "job-1" 0 1#128 2#128 1) ∧
          reserved.document.handoffs = [] := by
        decide +kernel
      refine ⟨trivial, ?_⟩
      intro active hact
      cases hresd.1.symm.trans hact
      refine ⟨rfl, ?_⟩
      rw [hresd.2]
      exact nofun
  obtain ⟨key, active, -, -, hrs⟩ :=
    ambiguity_resolvable routeIdsDistinct hmeets run_inDoubt hfacts.1 rfl
  obtain ⟨d', hd', -, hrec⟩ := hrs .releaseForRetry noFault hfacts.2 rfl
  exact ⟨d', hd', hrec⟩

/-- Evidence may come twice: an accepted handoff after an ambiguous one takes the
fence away and leaves the ambiguous record, which no resolution can decide. -/
theorem ambiguity_stuck : Installation.run encoders .blank (opened ++ [.call officeReserve] ++
      [.call (officeEvidence .ambiguous)] ++ [.call (officeEvidence .accepted)]) =
        .running settled ∧ settled.poisoned = false ∧ doubt ∈ settled.document.handoffs ∧
    (∀ e ∈ settled.document.reservations.entries, e.2.identity ≠ doubt.identity) ∧
    doubt ∈ (settled.resolveAmbiguousHandoff encoders doubt.identity .releaseForRetry
      noFault).2.document.handoffs ∧
    doubt ∈ (settled.resolveAmbiguousHandoff encoders doubt.identity .confirmAccepted
      noFault).2.document.handoffs := by
  constructor
  · rw [Installation.run_append, run_inDoubt, Installation.run_call]
    rfl
  · decide +kernel

end Piqae
