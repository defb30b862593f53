/-
Piqae/Route/Barrier.lean

Replay barriers.  A terminated authoritative reservation leaves a barrier
under the digest of its authority: connector, server route, local route and
job.  This module proves the invariant that makes the barriers trustworthy
(`Ledger`): a barrier is filed under its own authority, and the barrier of an
active reservation, if there is one, is older than the reservation and not
accepted.
-/
import Piqae.Route.Evidence
import Piqae.Route.Ownership

namespace Piqae

open SortedMap

/-! ### The names of offers -/

/-- The names under which the control plane offers reservations in a run. -/
structure OfferSpace where
  connectors : Set String
  serverRoutes : Set String
  jobs : Set String

/-- An offer uses names of the offer space. -/
def Request.OffersIn (O : OfferSpace) : Request → Prop
  | .registerAuthoritative connectorId _ jobId reservation _ _ =>
    connectorId ∈ O.connectors ∧ reservation.routeId ∈ O.serverRoutes ∧ jobId ∈ O.jobs
  | _ => True

/-- The authorities that can arise over a key space and an offer space. -/
def Authorities (enc : Encoders) (K : KeySpace) (O : OfferSpace) : Set RouteAuthority :=
  { a | a.connectorId ∈ O.connectors ∧ a.serverRouteId ∈ O.serverRoutes ∧
    (∃ ns ∈ K.namespaces, ∃ n ∈ K.natives, a.localRouteKey = routeId enc ns n) ∧
    a.jobId ∈ O.jobs }

/-- Different authorities of the run have different barrier keys. -/
def BarrierKeysDistinct (enc : Encoders) (K : KeySpace) (O : OfferSpace) : Prop :=
  Set.InjOn (RouteAuthority.key enc) (Authorities enc K O)

namespace CoordinatorDocument

variable {enc : Encoders} {K : KeySpace} {O : OfferSpace} {d d' : CoordinatorDocument}
  {a : RouteAuthority} {request : Request} {key : String} {reservation : CloudRouteReservation}
  {fence : DurableReservation}

/-! ### The ledger -/

/-- Barriers are filed under their own authority, and the barrier of an active
reservation is older than it and not accepted. -/
structure Ledger (enc : Encoders) (K : KeySpace) (O : OfferSpace) (d : CoordinatorDocument) :
    Prop where
  owned : Owned enc K d
  keyed : ∀ e ∈ d.consumedAuthoritativeRoutes.entries,
    e.1 = e.2.authority.key enc ∧ e.2.authority ∈ Authorities enc K O
  offers : ∀ e ∈ d.reservations.entries, ∀ a, e.2.authority = some a → a ∈ Authorities enc K O
  above : ∀ e ∈ d.reservations.entries, ∀ a, e.2.authority = some a →
    ∀ b, d.consumedAuthoritativeRoutes.get? (a.key enc) = some b →
      b.generation < e.2.generation ∧ b.outcome ≠ .accepted

/-- What `replayRefusal` lets pass. -/
theorem replayRefusal_eq_none {connectorId jobId : String}
    (h : d.replayRefusal enc connectorId jobId reservation = none) :
    (∀ b ∈ d.consumedAuthoritativeRoutes.values, b.connectorId = connectorId → b.jobId = jobId →
      b.outcome ≠ .accepted) ∧
    (∀ b, d.consumedAuthoritativeRoutes.get? (authoritativeRouteKey enc connectorId
      reservation.routeId reservation.localRouteKey jobId) = some b →
        b.outcome ≠ .accepted ∧ b.generation < reservation.generation) ∧
    (∀ handoff ∈ d.handoffs, handoff.connectorId = connectorId → handoff.jobId = jobId →
      handoff.outcome = .rejectedBeforeHandoff ∧
        handoff.fencingGeneration < reservation.generation) := by
  unfold replayRefusal at h
  split_ifs at h with hacc hkey hcross hstale
  refine ⟨?_, ?_, ?_⟩
  · intro b hb hc hj ho
    exact hacc (List.any_eq_true.mpr ⟨b, hb, by simp [hc, hj, ho]⟩)
  · intro b hb
    rw [hb] at hkey
    simp only [Option.any_some, Bool.or_eq_true, beq_iff_eq, decide_eq_true_eq, not_or,
      Nat.not_le] at hkey
    exact hkey
  · intro handoff hh hc hj
    constructor
    · rcases ho : handoff.outcome with - | - | -
      · exact absurd (List.any_eq_true.mpr ⟨handoff, hh, by
          simp [DurableHandoff.crossed, hc, hj, ho]⟩) hcross
      · rfl
      · exact absurd (List.any_eq_true.mpr ⟨handoff, hh, by
          simp [DurableHandoff.crossed, hc, hj, ho]⟩) hcross
    · by_contra hle
      refine hstale ?_
      have hmem : handoff.fencingGeneration ∈ ((d.handoffs.filter fun handoff =>
          handoff.connectorId == connectorId && handoff.jobId == jobId).map
            (·.fencingGeneration)) :=
        List.mem_map.mpr ⟨handoff, List.mem_filter.mpr ⟨hh, by simp [hc, hj]⟩, rfl⟩
      rcases hmax : ((d.handoffs.filter fun handoff =>
          handoff.connectorId == connectorId && handoff.jobId == jobId).map
            (·.fencingGeneration)).max? with - | m
      · rw [List.max?_eq_none_iff] at hmax
        rw [hmax] at hmem
        cases hmem
      · have hm := (List.max?_eq_some_iff.mp hmax).2 _ hmem
        rw [hmax]
        exact decide_eq_true ((Nat.le_of_not_lt hle).trans hm)

theorem authority_localRouteKey {r : DurableReservation} (h : r.authority = some a) :
    a.localRouteKey = r.localRouteKey := by
  obtain ⟨serverRouteId, -, rfl⟩ := Option.map_eq_some_iff.mp h
  rfl

theorem offerInvalid_eq_false {expectedRoute : String} {now : DateTime}
    (h : offerInvalid expectedRoute reservation now = false) :
    reservation.localRouteKey = expectedRoute ∧ reservation.routeId ≠ "" ∧
      reservation.generation ≠ 0 ∧ reservation.fencingToken ≠ "" := by
  simp only [offerInvalid, Bool.or_eq_false_iff, bne_eq_false_iff_eq, beq_eq_false_iff_ne,
    String.isEmpty_eq_false_iff] at h
  exact ⟨h.1.1.1.1.1, h.1.1.1.1.2, h.1.1.1.2, h.1.1.2⟩

/-- A fence for an offer is above the barriers it passed. -/
theorem RegistersAt.above (h : RegistersAt enc d d' request key fence)
    (ha : fence.authority = some a) : ∀ b, d.consumedAuthoritativeRoutes.get? (a.key enc) = some b →
      b.generation < fence.generation ∧ b.outcome ≠ .accepted := by
  obtain ⟨connectorId, nativeId, jobId, reservation, now, fault, -, rfl, hval, hrep, -⟩ :=
    h.request
  cases ha
  intro b hb
  obtain ⟨-, hkey, -⟩ := replayRefusal_eq_none hrep
  rw [(offerInvalid_eq_false hval).1] at hkey
  obtain ⟨hacc, hgen⟩ := hkey b hb
  exact ⟨hgen, hacc⟩

theorem RegistersAt.authority_mem (h : RegistersAt enc d d' request key fence)
    (hns : d.installationNamespace ∈ K.namespaces) (hnames : request.NamesIn K)
    (hoffers : request.OffersIn O) (ha : fence.authority = some a) : a ∈ Authorities enc K O := by
  obtain ⟨connectorId, nativeId, jobId, reservation, now, fault, rfl, rfl, -⟩ := h.request
  cases ha
  exact ⟨hoffers.1, hoffers.2.1, ⟨_, hns, nativeId, hnames, rfl⟩, hoffers.2.2⟩

/-- Two active reservations of one authority are one. -/
theorem Ledger.eq_of_key (hO : BarrierKeysDistinct enc K O) (h : Ledger enc K O d)
    {e e' : String × DurableReservation} (he : e ∈ d.reservations.entries)
    (he' : e' ∈ d.reservations.entries) {a' : RouteAuthority} (ha : e.2.authority = some a)
    (ha' : e'.2.authority = some a') (hkey : a.key enc = a'.key enc) : e = e' := by
  obtain rfl := hO (h.offers e he a ha) (h.offers e' he' a' ha') hkey
  refine h.owned.unique e he e' he' ?_
  rw [← authority_localRouteKey ha, ← authority_localRouteKey ha']

theorem Ledger.terminate (hO : BarrierKeysDistinct enc K O) (h : Ledger enc K O d)
    (hown : Owned enc K d') {active : DurableReservation} {outcome : NativeHandoffOutcome}
    (hterm : TerminatesAt enc d d' key active outcome) : Ledger enc K O d' := by
  have hact := get?_eq_some_iff.mp hterm.fenced
  have hsub : ∀ e ∈ d'.reservations.entries, e ∈ d.reservations.entries ∧ e.1 ≠ key := by
    intro e he
    rw [hterm.reservations] at he
    exact mem_erase.mp he
  rcases hterm.consumes with ⟨-, hsame⟩ | ⟨a, b, ha, hba, hgen, -, -, -, hcases⟩
  · exact ⟨hown, hsame ▸ h.keyed, fun e he => h.offers e (hsub e he).1,
      hsame ▸ fun e he => h.above e (hsub e he).1⟩
  · rcases hcases with ⟨-, -, -, hsame⟩ | ⟨-, -, hins⟩
    · exact ⟨hown, hsame ▸ h.keyed, fun e he => h.offers e (hsub e he).1,
        hsame ▸ fun e he => h.above e (hsub e he).1⟩
    · refine ⟨hown, ?_, fun e he => h.offers e (hsub e he).1, ?_⟩
      · rw [hins]
        exact forall_mem_insert (by rw [hba]; exact ⟨rfl, h.offers _ hact a ha⟩) h.keyed
      · -- a remaining reservation has another authority, so its barrier is untouched
        intro e he a' ha' b' hb'
        obtain ⟨he, hne⟩ := hsub e he
        have hkey : a'.key enc ≠ a.key enc := by
          intro hkey
          exact hne (congrArg Prod.fst (h.eq_of_key hO he hact ha' ha hkey))
        rw [hins, get?_insert_ne hkey] at hb'
        exact h.above e he a' ha' b' hb'

theorem Ledger.attempt (hK : RouteIdsDistinct enc K) (hO : BarrierKeysDistinct enc K O)
    (h : Ledger enc K O d) (hnames : request.NamesIn K) (hoffers : request.OffersIn O)
    (hatt : d.attempt enc request = .ok d') : Ledger enc K O d' := by
  have hown := h.owned.attempt hK hnames hatt
  rcases attempt_fences hatt with ⟨hres, hcons⟩ | ⟨hcons, key, fence, -, hres, hloc⟩ |
    ⟨hcons, key, fence, hreg⟩ | ⟨key, active, outcome, -, hterm⟩
  · refine ⟨hown, hcons ▸ h.keyed, hres ▸ h.offers, ?_⟩
    rw [hres, hcons]
    exact h.above
  · have hnone : fence.authority = none := by simp [DurableReservation.authority, hloc]
    refine ⟨hown, hcons ▸ h.keyed, ?_, ?_⟩
    · rw [hres]
      exact forall_mem_insert (fun a ha => by cases hnone.symm.trans ha) h.offers
    · rw [hres, hcons]
      exact forall_mem_insert (fun a ha => by cases hnone.symm.trans ha) h.above
  · refine ⟨hown, hcons ▸ h.keyed, ?_, ?_⟩
    · rw [hreg.reservations]
      exact forall_mem_insert
        (fun _ => hreg.authority_mem h.owned.fenced.named.installation hnames hoffers) h.offers
    · rw [hreg.reservations, hcons]
      exact forall_mem_insert (fun _ => hreg.above) h.above
  · exact h.terminate hO hown hterm

end CoordinatorDocument

open CoordinatorDocument

/-- **Every document of a run keeps the ledger of barriers.** -/
theorem ledger_kept {enc : Encoders} {K : KeySpace} {O : OfferSpace}
    (hK : RouteIdsDistinct enc K) (hO : BarrierKeysDistinct enc K O) :
    Installation.Kept enc (Ledger enc K O)
      (fun _ request => request.NamesIn K ∧ request.OffersIn O) K.namespaces :=
  .of_repair
    (fun _ hns => ⟨owned_fresh hns, fun _ he => (SortedMap.mem_empty.mp he).elim,
      fun _ he => (SortedMap.mem_empty.mp he).elim, fun _ he => (SortedMap.mem_empty.mp he).elim⟩)
    (fun _ h => { h with owned := h.owned.repair hK })
    (fun _ _ _ h hC hatt => h.attempt hK hO hC.1 hC.2 hatt)

end Piqae
