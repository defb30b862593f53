/-
Piqae/Route/Replay.lean

Replay of offers.  Once an authoritative reservation has been terminated, the
offer it came from must not be taken again, and after an accepted handoff the
job must not be taken at all, whatever is acknowledged, compacted, rediscovered
or restarted in between.

The barrier of the terminated reservation survives all of that (`Barred`), and
an accepted barrier refuses every later offer of the job.  A barrier with
another outcome refuses by generation, but only under its own key, which names
the route: an old offer is refused on the route it was consumed on, or while
its record is still in the journal.
-/
import Piqae.Route.Barrier

namespace Piqae

open SortedMap List

/-! ### Terminations and the evidence they leave -/

namespace CoordinatorDocument

/-- The barrier evidence that an authoritative reservation of this connector,
job and generation was terminated with this outcome. -/
structure Barred (connectorId jobId : String) (generation : Nat) (outcome : NativeHandoffOutcome)
    (d : CoordinatorDocument) : Prop where
  generation : ∃ e ∈ d.consumedAuthoritativeRoutes.entries,
    e.2.connectorId = connectorId ∧ e.2.jobId = jobId ∧ generation ≤ e.2.generation
  accepted : outcome = .accepted → ∃ e ∈ d.consumedAuthoritativeRoutes.entries,
    e.2.connectorId = connectorId ∧ e.2.jobId = jobId ∧ e.2.outcome = .accepted

variable {enc : Encoders} {K : KeySpace} {O : OfferSpace} {d d' : CoordinatorDocument}
  {connectorId jobId : String} {g : Nat} {outcome : NativeHandoffOutcome} {request : Request}

/-- A termination leaves its evidence: no older barrier stands in the way. -/
theorem barred_of_terminatesAt (h : Ledger enc K O d) {key : String} {active : DurableReservation}
    (hterm : TerminatesAt enc d d' key active outcome) (hc : active.connectorId = connectorId)
    (hj : active.jobId = jobId) (hg : active.generation = g) (hs : active.serverRouteId ≠ none) :
    Barred connectorId jobId g outcome d' := by
  have hact := get?_eq_some_iff.mp hterm.fenced
  obtain ⟨serverRouteId, hsrv⟩ := Option.ne_none_iff_exists'.mp hs
  rcases hterm.consumes with ⟨hnone, -⟩ | ⟨a, b, ha, hba, hgen, -, -, hout, hcases⟩
  · simp [DurableReservation.authority, hsrv] at hnone
  have hids : b.connectorId = connectorId ∧ b.jobId = jobId := by
    have ha' := ha
    simp only [DurableReservation.authority, hsrv, Option.map_some, Option.some.injEq] at ha'
    rw [← ha'] at hba
    exact ⟨(congrArg RouteAuthority.connectorId hba).trans hc,
      (congrArg RouteAuthority.jobId hba).trans hj⟩
  rcases hcases with ⟨old, hold, hge, -⟩ | ⟨-, -, hins⟩
  · exact absurd (h.above _ hact a ha old hold).1 (Nat.not_lt.mpr hge)
  · have hmem : (a.key enc, b) ∈ d'.consumedAuthoritativeRoutes.entries := by
      rw [hins]
      exact mem_insert.mpr (.inl rfl)
    exact ⟨⟨_, hmem, hids.1, hids.2, (hgen.trans hg).ge⟩,
      fun ho => ⟨_, hmem, hids.1, hids.2, hout.trans ho⟩⟩

/-- A barrier is replaced only by one of the same authority and a later
generation, and never once it is accepted. -/
theorem Ledger.barrier_persists (hO : BarrierKeysDistinct enc K O) (h : Ledger enc K O d)
    (hatt : d.attempt enc request = .ok d') {e : String × ConsumedAuthoritativeRoute}
    (he : e ∈ d.consumedAuthoritativeRoutes.entries) : e ∈ d'.consumedAuthoritativeRoutes.entries ∨
      e.2.outcome ≠ .accepted ∧ ∃ e' ∈ d'.consumedAuthoritativeRoutes.entries,
        e'.2.authority = e.2.authority ∧ e.2.generation < e'.2.generation := by
  rcases attempt_fences hatt with ⟨-, hcons⟩ | ⟨hcons, -⟩ | ⟨hcons, -⟩ |
    ⟨key, active, out, -, hterm⟩
  · exact .inl (hcons ▸ he)
  · exact .inl (hcons ▸ he)
  · exact .inl (hcons ▸ he)
  have hact := get?_eq_some_iff.mp hterm.fenced
  rcases hterm.consumes with ⟨-, hsame⟩ | ⟨a, b, ha, hba, hgen, -, -, -, hcases⟩
  · exact .inl (hsame ▸ he)
  rcases hcases with ⟨-, -, -, hsame⟩ | ⟨hnew, -, hins⟩
  · exact .inl (hsame ▸ he)
  by_cases hkey : e.1 = a.key enc
  · -- the new barrier takes the place of this one
    right
    have hget : d.consumedAuthoritativeRoutes.get? (a.key enc) = some e.2 :=
      get?_eq_some_iff.mpr (hkey ▸ he)
    obtain ⟨hown, hspace⟩ := h.keyed e he
    have hauth : e.2.authority = a := hO hspace (h.offers _ hact a ha) (hown ▸ hkey)
    refine ⟨(h.above _ hact a ha e.2 hget).2, (a.key enc, b), ?_, hba.trans hauth.symm, ?_⟩
    · rw [hins]
      exact mem_insert.mpr (.inl rfl)
    · rw [hgen]
      exact hnew e.2 hget
  · left
    rw [hins]
    exact mem_insert.mpr (.inr ⟨hkey, he⟩)

theorem Barred.attempt (hO : BarrierKeysDistinct enc K O) (h : Ledger enc K O d)
    (hb : Barred connectorId jobId g outcome d) (hatt : d.attempt enc request = .ok d') :
    Barred connectorId jobId g outcome d' := by
  constructor
  · obtain ⟨e, he, hc, hj, hg⟩ := hb.generation
    rcases h.barrier_persists hO hatt he with he' | ⟨-, e', he', hauth, hlt⟩
    · exact ⟨e, he', hc, hj, hg⟩
    · exact ⟨e', he', (congrArg RouteAuthority.connectorId hauth).trans hc,
        (congrArg RouteAuthority.jobId hauth).trans hj, hg.trans hlt.le⟩
  · intro ho
    obtain ⟨e, he, hc, hj, hacc⟩ := hb.accepted ho
    rcases h.barrier_persists hO hatt he with he' | ⟨hne, -⟩
    · exact ⟨e, he', hc, hj, hacc⟩
    · exact absurd hacc hne

/-- The offer, if it is not above a barrier of its connector and job, is for
the server route and the local route of that barrier; or its job still has a
record of that generation in the journal. -/
def StaleOnlyOnItsRoute (d : CoordinatorDocument) (connectorId jobId : String)
    (reservation : CloudRouteReservation) : Prop :=
  ∀ b ∈ d.consumedAuthoritativeRoutes.values, b.connectorId = connectorId → b.jobId = jobId →
    reservation.generation ≤ b.generation →
      (b.serverRouteId = reservation.routeId ∧ b.localRouteKey = reservation.localRouteKey) ∨
      ∃ handoff ∈ d.handoffs, handoff.connectorId = connectorId ∧ handoff.jobId = jobId ∧
        reservation.generation ≤ handoff.fencingGeneration

theorem replayRefusal_of_accepted (hb : Barred connectorId jobId g .accepted d)
    (reservation : CloudRouteReservation) :
    d.replayRefusal enc connectorId jobId reservation ≠ none := by
  intro hnone
  obtain ⟨e, he, hc, hj, hacc⟩ := hb.accepted rfl
  exact (replayRefusal_eq_none hnone).1 e.2 (mem_values.mpr ⟨e.1, he⟩) hc hj hacc

theorem replayRefusal_of_stale (h : Ledger enc K O d) (hb : Barred connectorId jobId g outcome d)
    {reservation : CloudRouteReservation} (hstale : reservation.generation ≤ g)
    (hrt : d.StaleOnlyOnItsRoute connectorId jobId reservation) :
    d.replayRefusal enc connectorId jobId reservation ≠ none := by
  intro hnone
  obtain ⟨-, hkey, hjr⟩ := replayRefusal_eq_none hnone
  obtain ⟨e, he, hc, hj, hg⟩ := hb.generation
  have hle := hstale.trans hg
  rcases hrt e.2 (mem_values.mpr ⟨e.1, he⟩) hc hj hle with ⟨hs, hl⟩ | ⟨handoff, hh, hhc, hhj, hhg⟩
  · -- on its own route the offer meets its barrier
    have hown : e.1 = authoritativeRouteKey enc connectorId reservation.routeId
        reservation.localRouteKey jobId := by
      rw [(h.keyed e he).1, ← hc, ← hj, ← hs, ← hl]
      rfl
    have hget : d.consumedAuthoritativeRoutes.get? (authoritativeRouteKey enc connectorId
        reservation.routeId reservation.localRouteKey jobId) = some e.2 := by
      rw [← hown]
      exact get?_eq_some_iff.mpr he
    exact absurd (hkey e.2 hget).2 (Nat.not_lt.mpr hle)
  · exact absurd (hjr handoff hh hhc hhj).2 (Nat.not_lt.mpr hhg)

end CoordinatorDocument

open CoordinatorDocument

/-! ### Along a run -/

/-- The request terminates an authoritative reservation of this connector, job
and generation: the live document holds its fence, and the document without it
reaches the journal. -/
structure Terminates (enc : Encoders) (c : RouteCoordinator) (request : Request)
    (connectorId jobId : String) (generation : Nat) (outcome : NativeHandoffOutcome) : Prop where
  operational : c.poisoned = false
  terminal : request.terminal = some outcome
  fence : ∃ key active d', c.document.reservations.get? key = some active ∧
    active.connectorId = connectorId ∧ active.jobId = jobId ∧
    active.generation = generation ∧ active.serverRouteId ≠ none ∧
    c.document.attempt enc request = .ok d' ∧ d'.reservations.get? key = none ∧
    (c.call enc request).2.journal = some d'

/-- The input draws the names of its offer from the offer space. -/
def Op.OffersIn (O : OfferSpace) : Op → Prop
  | .start _ _ => True
  | .call request => request.OffersIn O

variable {enc : Encoders} {K : KeySpace} {O : OfferSpace} {connectorId jobId : String} {g : Nat}
  {outcome : NativeHandoffOutcome} {c : RouteCoordinator} {request : Request} {ops : List Op}
  {fault : Fault}

theorem meets_offersIn (hops : ∀ op ∈ ops, op.NamesIn K ∧ op.OffersIn O) (i : Installation) :
    Run.Meets (Installation.step enc) (Installation.InputsMeet
      (fun _ request => request.NamesIn K ∧ request.OffersIn O) K.namespaces) i ops := by
  refine Run.meets_of_forall ?_ i
  intro op hop i
  cases op
  case start => exact (hops _ hop).1
  case call => exact fun _ _ => hops _ hop

/-- A request that terminates a reservation leaves memory and disk in agreement
or fail-stops. -/
theorem RouteCoordinator.call_terminal_synced {d' : CoordinatorDocument} (hp : c.poisoned = false)
    (hterm : request.terminal ≠ none) (hatt : c.document.attempt enc request = .ok d')
    (hp' : (c.call enc request).2.poisoned = false) :
    (c.call enc request).2.journal = some (c.call enc request).2.document := by
  cases request
  case finish =>
    exact transact_synced hp (congrArg unitResult hatt) hp'
  case finishRuntime connectorId jobId reservation outcome nativeJobId observedAt first second =>
    have hinner : unitResult (c.document.finishInner enc connectorId jobId reservation outcome
        nativeJobId observedAt) = .ok ((), d') := congrArg unitResult hatt
    simp only [call, finishRuntime] at hp' ⊢
    rcases retryOnce_cases (c := c) (fun c fault => c.finish enc connectorId jobId reservation
      outcome nativeJobId observedAt fault) first second with
      ⟨h, -⟩ | ⟨error, c₁, e, ⟨hp₁, h⟩ | ⟨hp₁, ⟨h, -⟩ | ⟨error₂, c₂, -, h⟩⟩⟩
    · rw [h] at hp' ⊢
      exact transact_synced hp hinner hp'
    · rw [h] at hp'
      cases hp'.symm.trans hp₁
    · rw [h] at hp' ⊢
      -- the retry starts from the rolled-back document
      have hd : c₁.document = c.document := transact_rolledBack e hp₁
      exact transact_synced hp₁ (hd ▸ hinner) hp'
    · rw [h] at hp'
      cases hp'
  case resolveAmbiguousHandoff =>
    exact transact_synced hp (congrArg unitResult hatt) hp'
  all_goals exact absurd rfl hterm

/-- The document that reaches the journal carries the evidence. -/
theorem Terminates.barred (h : Ledger enc K O c.document)
    (hterm : Terminates enc c request connectorId jobId g outcome) :
    ∃ d', c.document.attempt enc request = .ok d' ∧ Barred connectorId jobId g outcome d' ∧
      (c.call enc request).2.journal = some d' := by
  obtain ⟨key, active, d', hact, hc, hj, hg, hs, hatt, hgone, hjr⟩ := hterm.fence
  refine ⟨d', hatt, ?_, hjr⟩
  rcases attempt_fences hatt with ⟨hres, -⟩ | ⟨-, key', fence, hfree, hres, -⟩ |
    ⟨-, key', fence, hreg⟩ | ⟨key', active', outcome', hterminal, hat⟩
  · -- the fence would still be there
    rw [hres, hact] at hgone
    cases hgone
  · have hne : key ≠ key' := fun heq => by rw [heq, hfree] at hact; cases hact
    rw [hres, get?_insert_ne hne, hact] at hgone
    cases hgone
  · have hne : key ≠ key' := fun heq => by rw [heq, hreg.free] at hact; cases hact
    rw [hreg.reservations, get?_insert_ne hne, hact] at hgone
    cases hgone
  · have hkey : key = key' := by
      by_contra hne
      rw [hat.reservations, get?_erase_ne hne, hact] at hgone
      cases hgone
    subst hkey
    cases hact.symm.trans hat.fenced
    cases hterm.terminal.symm.trans hterminal
    exact barred_of_terminatesAt h hat hc hj hg hs

theorem Terminates.holding (h : Ledger enc K O c.document)
    (hterm : Terminates enc c request connectorId jobId g outcome) :
    Installation.Holding (Barred connectorId jobId g outcome)
      (.running (c.call enc request).2) := by
  obtain ⟨d', hatt, hbar, hjr⟩ := hterm.barred h
  refine ⟨⟨d', hjr, hbar⟩, ?_⟩
  rintro c' ⟨⟩ hp'
  have hterminal : request.terminal ≠ none := by
    rw [hterm.terminal]
    exact Option.some_ne_none _
  have hsync := RouteCoordinator.call_terminal_synced hterm.operational hterminal hatt hp'
  cases hjr.symm.trans hsync
  exact hbar

/-- **Evidence of a termination lasts**: it is on disk, and in memory while the
coordinator is operational, after every continuation of the run. -/
theorem holding_of_run (hK : RouteIdsDistinct enc K) (hO : BarrierKeysDistinct enc K O)
    {i : Installation} (hled : Installation.Recorded (Ledger enc K O) i)
    (hheld : Installation.Holding (Barred connectorId jobId g outcome) i)
    (hops : ∀ op ∈ ops, op.NamesIn K ∧ op.OffersIn O) :
    Installation.Recorded (Ledger enc K O) (Installation.run enc i ops) ∧
      Installation.Holding (Barred connectorId jobId g outcome) (Installation.run enc i ops) := by
  refine (meets_offersIn hops i).invariant (P := fun i =>
    Installation.Recorded (Ledger enc K O) i ∧
      Installation.Holding (Barred connectorId jobId g outcome) i) ?_ ⟨hled, hheld⟩
  intro i op ⟨hled, hheld⟩ hop
  refine ⟨Installation.recorded_step (ledger_kept hK hO) i op hled hop, hheld.step ?_ ?_⟩
  · exact fun d hd => ⟨hd.generation, hd.accepted⟩
  · intro c request d hi _ hbar hatt
    exact hbar.attempt hO (hled.document c hi) hatt

/-- An offer that the replay check refuses is refused. -/
theorem RouteCoordinator.registerAuthoritative_refused {nativeId : String}
    {reservation : CloudRouteReservation} {now : DateTime}
    (h : c.poisoned = false → c.document.replayRefusal enc connectorId jobId reservation ≠ none) :
    ∃ error, (c.registerAuthoritative enc connectorId nativeId jobId reservation now fault).1 =
      .error error := by
  rcases e : c.registerAuthoritative enc connectorId nativeId jobId reservation now fault with
    ⟨error | reg, c'⟩
  · exact ⟨error, rfl⟩
  · obtain ⟨hp, d', hinner, -⟩ := transact_ok e
    exact absurd (registerAuthoritativeInner_ok hinner).2.1 (h hp)

/-- **A terminated offer does not regain authority.** After an authoritative
reservation of a connector and job has been terminated at generation `g`, and
whatever acknowledgements, reconciliations, restarts and failed writes follow:
if the outcome was an accepted handoff, every later offer of the job is
refused; otherwise every later offer of generation at most `g` is refused that
comes for the route of the barrier it does not exceed, or while the job's
record is still in the journal. -/
theorem terminated_offer_refused (hK : RouteIdsDistinct enc K) (hO : BarrierKeysDistinct enc K O)
    {before between : List Op} {request : Request}
    (hops : ∀ op ∈ before ++ .call request :: between, op.NamesIn K ∧ op.OffersIn O)
    {c₁ c₂ : RouteCoordinator} (hbefore : Installation.run enc .blank before = .running c₁)
    (hterm : Terminates enc c₁ request connectorId jobId g outcome)
    (hrun : Installation.run enc .blank (before ++ .call request :: between) = .running c₂)
    (nativeId : String) (reservation : CloudRouteReservation) (now : DateTime) (fault : Fault) :
    (outcome = .accepted → ∃ error,
      (c₂.registerAuthoritative enc connectorId nativeId jobId reservation now fault).1 =
        .error error) ∧ (reservation.generation ≤ g →
      c₂.document.StaleOnlyOnItsRoute connectorId jobId reservation → ∃ error,
        (c₂.registerAuthoritative enc connectorId nativeId jobId reservation now fault).1 =
          .error error) := by
  have hstep : Installation.run enc .blank (before ++ [.call request]) =
      .running (c₁.call enc request).2 := by
    rw [Installation.run_append, hbefore, Installation.run_call]
  have hled₁ : Ledger enc K O c₁.document := by
    have hrec : Installation.Recorded (Ledger enc K O) (.run enc .blank before) :=
      Installation.recorded_of_run (ledger_kept hK hO)
        (meets_offersIn (fun op hop => hops op (mem_append_left _ hop)) .blank)
    exact hrec.document c₁ hbefore
  have hled₂ : Installation.Recorded (Ledger enc K O) (.running (c₁.call enc request).2) := by
    rw [← hstep]
    refine Installation.recorded_of_run (ledger_kept hK hO) (meets_offersIn ?_ .blank)
    intro op hop
    refine hops op ?_
    exact forall_mem_concat (fun _ => mem_append_left _) (mem_append_right _ mem_cons_self) op hop
  have hbetween : ∀ op ∈ between, op.NamesIn K ∧ op.OffersIn O :=
    fun op hop => hops op (mem_append_right _ (mem_cons_of_mem _ hop))
  have hheld := holding_of_run hK hO hled₂ (hterm.holding hled₁) hbetween
  rw [← hstep, ← Installation.run_append, append_assoc, singleton_append, hrun] at hheld
  obtain ⟨hled, hbar⟩ := hheld
  constructor
  · intro ho
    refine RouteCoordinator.registerAuthoritative_refused fun hp => ?_
    subst ho
    exact replayRefusal_of_accepted (hbar.document c₂ rfl hp) reservation
  · intro hstale hrt
    refine RouteCoordinator.registerAuthoritative_refused fun hp => ?_
    exact replayRefusal_of_stale (hled.document c₂ rfl) (hbar.document c₂ rfl hp) hstale hrt

/-- A terminal `finish` that succeeds terminates the reservation it names. -/
theorem terminates_of_finish {c' : RouteCoordinator} {handle : RouteReservation}
    {nativeJobId : Option String} {observedAt : DateTime} {active : DurableReservation}
    (ho : outcome ≠ .ambiguous)
    (h : c.finish enc connectorId jobId handle outcome nativeJobId observedAt fault =
      (.ok (), c')) (hact : c.document.reservations.get? handle.coordinationKey = some active)
    (hs : active.serverRouteId ≠ none) :
    Terminates enc c (.finish connectorId jobId handle outcome nativeJobId observedAt fault)
      connectorId jobId active.generation outcome := by
  obtain ⟨hp, d₁, hd₁, rfl⟩ := RouteCoordinator.transact_unit_ok h
  obtain ⟨active', hval, hc, hj, -⟩ := finishInner_ok hd₁
  cases hact.symm.trans (validate_ok hval).1
  obtain ⟨active'', hterm⟩ := terminatesAt_finishInner ho hd₁
  refine ⟨hp, if_neg ho, _, active, d₁, hact, hc, hj, rfl, hs, hd₁, ?_, ?_⟩
  · rw [hterm.reservations]
    exact get?_erase_self
  · show (c.finish enc connectorId jobId handle outcome nativeJobId observedAt fault).2.journal = _
    rw [h]

namespace Sample

def offerSpace : OfferSpace where
  connectors := {"cloud"}
  serverRoutes := {"srv-office", "srv-lab"}
  jobs := {"job-1"}

/-- The authorities of the offer space, one for each pair of routes. -/
def authorities : List RouteAuthority :=
  [⟨"cloud", "srv-office", officeId, "job-1"⟩, ⟨"cloud", "srv-office", labId, "job-1"⟩,
    ⟨"cloud", "srv-lab", officeId, "job-1"⟩, ⟨"cloud", "srv-lab", labId, "job-1"⟩]

theorem mem_authorities {a : RouteAuthority}
    (ha : a ∈ Authorities encoders keySpace offerSpace) : a ∈ authorities := by
  obtain ⟨c, s, l, j⟩ := a
  obtain ⟨rfl, hs, ⟨ns, rfl, n, hn, rfl⟩, rfl⟩ := ha
  rcases hs with rfl | rfl <;> rcases hn with rfl | rfl <;>
    simp only [routeId_office, routeId_lab] <;> decide

theorem opened_offersIn : ∀ op ∈ opened, op.NamesIn keySpace ∧ op.OffersIn offerSpace :=
  fun op hop => ⟨opened_namesIn op hop,
    forall_mem_cons.mpr ⟨trivial, forall_mem_singleton.mpr trivial⟩ op hop⟩

theorem barrierKeysDistinct : BarrierKeysDistinct encoders keySpace offerSpace := by
  have hkeys : (authorities.map (RouteAuthority.key encoders)).Nodup := by decide +kernel
  intro a ha a' ha' h
  exact inj_on_of_nodup_map hkeys (mem_authorities ha) (mem_authorities ha') h

/-- An offer of `job-1` on a queue. -/
def offer (serverRouteId localRouteKey : String) (generation : Nat) : CloudRouteReservation where
  routeId := serverRouteId
  localRouteKey := localRouteKey
  reservationId := 1#128
  generation := generation
  fencingToken := "token"
  leaseExpiresAt := 10

/-- The handle on the reservation for an office offer. -/
def officeHandle (generation : Nat) : RouteReservation :=
  (offered "cloud" "job-1" officeId (offer "srv-office" officeId generation)).handle officeId
    officeId

/-- Generation 2 of the job is offered on the office queue. -/
def officeRegistration : Request :=
  .registerAuthoritative "cloud" "office" "job-1" (offer "srv-office" officeId 2) 0 noFault

/-- The printer refuses the job before handoff. -/
def officeRejection : Request :=
  .finish "cloud" "job-1" (officeHandle 2) .rejectedBeforeHandoff none 1 noFault

/-- The control plane acknowledges the record of the refusal. -/
def acknowledgement : Request := .acknowledgeHandoffs "cloud" 1 noFault

/-- The coordinator with the office offer registered, before the refusal. -/
def registered : RouteCoordinator := (openedCoordinator.call encoders officeRegistration).2

/-- The coordinator after the refusal and its acknowledgement. -/
def acknowledged : RouteCoordinator :=
  ((registered.call encoders officeRejection).2.call encoders acknowledgement).2

theorem run_registered : Installation.run encoders .blank (opened ++ [.call officeRegistration]) =
      .running registered := by
  rw [Installation.run_append, run_opened, Installation.run_call]
  rfl

theorem run_acknowledged : Installation.run encoders .blank (opened ++ [.call officeRegistration] ++
      .call officeRejection :: [.call acknowledgement]) = .running acknowledged := by
  rw [Installation.run_append, run_registered]
  rfl

theorem terminates_officeRejection :
    Terminates encoders registered officeRejection "cloud" "job-1" 2 .rejectedBeforeHandoff := by
  have hfacts : (registered.call encoders officeRejection).1 = .ok () ∧
      registered.document.reservations.get? officeId =
        some (offered "cloud" "job-1" officeId (offer "srv-office" officeId 2)) := by
    decide +kernel
  exact terminates_of_finish (by decide) (Prod.ext hfacts.1 rfl) hfacts.2 (by decide)

end Sample

open Sample

/-- A barrier that names the route does not stop the job on another route: once
the record of generation 2 is acknowledged, generation 1 is registered on the
lab queue. -/
theorem stale_offer_registered_elsewhere :
    Installation.run encoders .blank (opened ++ [.call officeRegistration]) = .running registered ∧
    Terminates encoders registered officeRejection "cloud" "job-1" 2 .rejectedBeforeHandoff ∧
    Installation.run encoders .blank (opened ++ [.call officeRegistration] ++
      .call officeRejection :: [.call acknowledgement]) = .running acknowledged ∧
    (acknowledged.registerAuthoritative encoders "cloud" "lab" "job-1" (offer "srv-lab" labId 1) 0
      noFault).1 =
        .ok ⟨(offered "cloud" "job-1" labId (offer "srv-lab" labId 1)).handle labId labId, true⟩ :=
  ⟨run_registered, terminates_officeRejection, run_acknowledged, by decide +kernel⟩

/-- On its own route the old offer meets its barrier. -/
theorem terminated_offer_refused_office :
    ∃ error, (acknowledged.registerAuthoritative encoders "cloud" "office" "job-1"
      (offer "srv-office" officeId 1) 0 noFault).1 = .error error := by
  refine (terminated_offer_refused routeIdsDistinct barrierKeysDistinct ?_ run_registered
    terminates_officeRejection run_acknowledged "office" (offer "srv-office" officeId 1) 0
    noFault).2 (by decide) ?_
  · refine forall_mem_append.mpr
      ⟨forall_mem_concat opened_offersIn ⟨.inl rfl, rfl, .inl rfl, rfl⟩, ?_⟩
    exact forall_mem_cons.mpr ⟨⟨trivial, trivial⟩, forall_mem_singleton.mpr ⟨trivial, trivial⟩⟩
  · have hrt : ∀ b ∈ acknowledged.document.consumedAuthoritativeRoutes.values,
        b.serverRouteId = "srv-office" ∧ b.localRouteKey = officeId := by
      decide +kernel
    exact fun b hb _ _ _ => .inl (hrt b hb)

end Piqae
