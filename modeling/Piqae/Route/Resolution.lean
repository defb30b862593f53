/-
Piqae/Route/Resolution.lean

Replayed resolutions.  The journal of the coordinator and the command cursor
of a connector are separate stores, so a crash between them delivers the same
resolution again.  It is recognised from the barrier or from the record that
the first delivery left (`priorResolution`).

A barrier is left for an authoritative fence only, and the record of an
acknowledged ambiguity is dropped when it is resolved: a local-only fence
whose ambiguity had been acknowledged leaves nothing (`Forgets`), and that is
the only case in which a replay is not recognised.
-/
import Piqae.Route.Ambiguity

namespace Piqae

open SortedMap List

/-- The resolution that decides the other way. -/
def AmbiguousHandoffResolution.other : AmbiguousHandoffResolution → AmbiguousHandoffResolution
  | releaseForRetry => confirmAccepted
  | confirmAccepted => releaseForRetry

namespace CoordinatorDocument

variable {enc : Encoders} {K : KeySpace} {O : OfferSpace} {d d' : CoordinatorDocument}
  {identity : HandoffIdentity} {resolution : AmbiguousHandoffResolution} {record : DurableHandoff}
  {before after : List DurableHandoff} {outcome : NativeHandoffOutcome}

theorem outcome_other_ne : resolution.outcome ≠ resolution.other.outcome := by
  cases resolution <;> decide

/-- The latest record of an identity among those that `keep` lets stay. -/
def latestKept (d : CoordinatorDocument) (identity : HandoffIdentity)
    (keep : DurableHandoff → Bool) : Option DurableHandoff :=
  (d.handoffs.filter keep).reverse.find? (·.identity == identity)

/-- Resolving this identity with this outcome leaves no trace of the outcome:
the fence is local-only, its ambiguous record has been acknowledged, and no
other record of the identity has the outcome. -/
def Forgets (d : CoordinatorDocument) (identity : HandoffIdentity)
    (outcome : NativeHandoffOutcome) : Prop :=
  d.priorResolution identity = none ∧
  (∃ e ∈ d.reservations.entries, e.2.identity = identity ∧ e.2.serverRouteId = none) ∧
  ∃ record, d.latestHandoff identity = some record ∧
    record.sequence ≤ (d.acknowledgedHandoffSequences.get? identity.connectorId).getD 0 ∧
    ∀ other, d.latestKept identity (·.sequence != record.sequence) = some other →
      other.outcome ≠ outcome

/-! ### What a resolution leaves behind -/

theorem find?_barrier_eq_none (h : d.priorResolution identity = none) :
    d.consumedAuthoritativeRoutes.values.find? (·.identity == identity) = none := by
  unfold priorResolution at h
  split at h
  · cases h
  · assumption

theorem latestHandoff_eq (hid : record.identity = identity)
    (hsplit : d.handoffs = before ++ record :: after)
    (haft : ∀ handoff ∈ after, handoff.identity ≠ identity) :
    d.latestHandoff identity = some record := by
  have hnone : after.reverse.find? (·.identity == identity) = none := by
    rw [List.find?_eq_none]
    intro handoff hh
    simpa using haft handoff (mem_reverse.mp hh)
  unfold latestHandoff
  rw [hsplit, reverse_append, reverse_cons, append_assoc, singleton_append,
    List.find?_append, hnone, Option.none_or, List.find?_cons_of_pos]
  exact beq_iff_eq.mpr hid

/-- While nothing has decided the identity, its last ambiguous record is its
last record. -/
theorem latestHandoff_of_split (hprior : d.priorResolution identity = none)
    (hid : record.identity = identity) (hsplit : d.handoffs = before ++ record :: after)
    (hlast : ∀ handoff ∈ after, handoff.identity = identity → handoff.outcome ≠ .ambiguous) :
    d.latestHandoff identity = some record ∧ ∀ handoff ∈ after, handoff.identity ≠ identity := by
  have haft : ∀ handoff ∈ after, handoff.identity ≠ identity := by
    intro handoff hh heq
    -- a later record of the identity would be terminal and decide it
    rcases hf : after.reverse.find? (·.identity == identity) with - | later
    · have hnone := List.find?_eq_none.mp hf handoff (mem_reverse.mpr hh)
      simp [heq] at hnone
    · have hlatest : d.latestHandoff identity = some later := by
        unfold latestHandoff
        rw [hsplit, reverse_append, reverse_cons, append_assoc, List.find?_append, hf]
        rfl
      have hmem := mem_reverse.mp (mem_of_find?_eq_some hf)
      have hout := hlast later hmem (by simpa using List.find?_some hf)
      unfold priorResolution at hprior
      rw [find?_barrier_eq_none (by unfold priorResolution; exact hprior), hlatest] at hprior
      simp [Option.filter, hout] at hprior
  exact ⟨latestHandoff_eq hid hsplit haft, haft⟩

theorem priorResolution_of_latest
    (hbar : d.consumedAuthoritativeRoutes.values.find? (·.identity == identity) = none)
    (hlatest : d.latestHandoff identity = some record) (hne : record.outcome ≠ .ambiguous) :
    d.priorResolution identity = some record.outcome := by
  unfold priorResolution
  rw [hbar, hlatest]
  simp [Option.filter, hne]

/-- An authoritative fence leaves its outcome in the barrier. -/
theorem priorResolution_of_authority (hled : Ledger enc K O d)
    (hprior : d.priorResolution identity = none) {key : String} {active : DurableReservation}
    (hterm : TerminatesAt enc d d' key active outcome) (hid : active.identity = identity)
    (hs : active.serverRouteId ≠ none) : d'.priorResolution identity = some outcome := by
  have hact := get?_eq_some_iff.mp hterm.fenced
  rcases hterm.consumes with ⟨hnone, -⟩ | ⟨a, b, ha, hba, hgen, hrid, -, hout, ⟨old, hold, hle, -⟩ |
    ⟨-, -, hins⟩⟩
  · exact absurd (Option.map_eq_none_iff.mp hnone) hs
  · -- an active fence is above every barrier of its authority
    have habove := (hled.above _ hact a ha old hold).1
    exact absurd hle (Nat.not_le.mpr habove)
  have hbar : d'.consumedAuthoritativeRoutes.values.find? (·.identity == identity) = some b := by
    rcases hf : d'.consumedAuthoritativeRoutes.values.find? (·.identity == identity) with - | b'
    · have hmem : b ∈ d'.consumedAuthoritativeRoutes.values :=
        mem_values.mpr ⟨a.key enc, hins ▸ mem_insert.mpr (.inl rfl)⟩
      have hnot := List.find?_eq_none.mp hf b hmem
      rw [barrier_identity ha hba hgen hrid, hid] at hnot
      simp at hnot
    · obtain ⟨k, hb'⟩ := mem_values.mp (mem_of_find?_eq_some hf)
      have hid' := List.find?_some hf
      rw [hins] at hb'
      rcases mem_insert.mp hb' with heq | ⟨-, hold⟩
      · obtain ⟨-, rfl⟩ := Prod.mk.inj heq
        exact hf
      · have hnot := List.find?_eq_none.mp (find?_barrier_eq_none hprior) b'
          (mem_values.mpr ⟨k, hold⟩)
        exact absurd hid' hnot
  unfold priorResolution
  rw [hbar, ← hout]

/-- A local-only fence leaves its outcome in the record, if the record stays. -/
theorem priorResolution_of_local (hprior : d.priorResolution identity = none)
    (hid : record.identity = identity) (hsplit : d.handoffs = before ++ record :: after)
    (hlast : ∀ handoff ∈ after, handoff.identity ≠ identity) (hne : outcome ≠ .ambiguous)
    (hcons : d'.consumedAuthoritativeRoutes = d.consumedAuthoritativeRoutes) (hhand : d'.handoffs =
      if record.sequence ≤ (d.acknowledgedHandoffSequences.get? identity.connectorId).getD 0
      then (before ++ { record with outcome := outcome } :: after).filter
        (·.sequence != record.sequence)
      else before ++ { record with outcome := outcome } :: after) :
    d'.priorResolution identity = some outcome ↔
      (record.sequence ≤ (d.acknowledgedHandoffSequences.get? identity.connectorId).getD 0 →
        ∃ other, d.latestKept identity (·.sequence != record.sequence) = some other ∧
          other.outcome = outcome) := by
  have hbar : d'.consumedAuthoritativeRoutes.values.find? (·.identity == identity) = none := by
    rw [hcons]
    exact find?_barrier_eq_none hprior
  by_cases hack :
      record.sequence ≤ (d.acknowledgedHandoffSequences.get? identity.connectorId).getD 0
  · -- the record goes, so an earlier one has to remember
    have hlatest : d'.latestHandoff identity =
        d.latestKept identity (·.sequence != record.sequence) := by
      unfold latestHandoff latestKept
      rw [hhand, if_pos hack, hsplit]
      simp [filter_append]
    rcases hl : d.latestKept identity (·.sequence != record.sequence) with - | other
    · unfold priorResolution
      rw [hbar, hlatest, hl]
      simp [hack]
    · rw [hl] at hlatest
      constructor
      · intro h _
        refine ⟨other, rfl, ?_⟩
        unfold priorResolution at h
        rw [hbar, hlatest] at h
        by_cases hamb : other.outcome = .ambiguous
        · simp [Option.filter, hamb] at h
        · simpa [Option.filter, hamb] using h
      · intro h
        obtain ⟨other', heq, rfl⟩ := h hack
        cases heq
        exact priorResolution_of_latest hbar hlatest hne
  · rw [if_neg hack] at hhand
    refine ⟨fun _ h => absurd h hack, fun _ => ?_⟩
    exact priorResolution_of_latest hbar (latestHandoff_eq (by exact hid) hhand hlast) hne

/-- **What a resolution leaves behind**: its outcome, unless it forgets it. -/
theorem priorResolution_resolved (hled : Ledger enc K O d)
    (h : d.resolveAmbiguousHandoffInner enc identity resolution = .ok d') :
    d'.priorResolution identity = some resolution.outcome ↔
      ¬ d.Forgets identity resolution.outcome := by
  rcases resolveAmbiguousHandoffInner_ok h with ⟨hprior, rfl⟩ | ⟨hprior, hact⟩
  · refine ⟨fun _ hforgets => ?_, fun _ => hprior⟩
    cases hprior.symm.trans hforgets.1
  have hne := resolution_outcome_ne resolution
  rcases resolved_of_resolveActive hact with
    ⟨key, active, record, before, after, hid, hterm, hrid, -, hsplit, hlast, -, hhand⟩
  obtain ⟨hlatest, haft⟩ := latestHandoff_of_split hprior hrid hsplit hlast
  have hmem := get?_eq_some_iff.mp hterm.fenced
  by_cases hs : active.serverRouteId = none
  · have hcons : d'.consumedAuthoritativeRoutes = d.consumedAuthoritativeRoutes := by
      rcases hterm.consumes with ⟨-, hsame⟩ | ⟨a, _, ha, -⟩
      · exact hsame
      · simp [DurableReservation.authority, hs] at ha
    rw [priorResolution_of_local hprior hrid hsplit haft hne hcons hhand]
    constructor
    · rintro hkept ⟨-, -, record', hlatest', hack, hno⟩
      cases hlatest.symm.trans hlatest'
      obtain ⟨other, hother, hout⟩ := hkept hack
      exact hno other hother hout
    · intro hforgets hack
      by_contra hnone
      refine hforgets ⟨hprior, ⟨_, hmem, hid, hs⟩, record, hlatest, hack, ?_⟩
      exact fun other hother hout => hnone ⟨other, hother, hout⟩
  · refine ⟨fun _ => ?_, fun _ => priorResolution_of_authority hled hprior hterm hid hs⟩
    rintro ⟨-, ⟨e, he, hid', hloc⟩, -⟩
    have heq := hled.owned.eq_of_identity he hmem (hid'.trans hid.symm)
    rw [heq] at hloc
    exact hs hloc

/-! ### Replays -/

/-- A resolution that is remembered succeeds again without a change, and the
other one is refused. -/
theorem resolve_of_prior (enc : Encoders)
    (h : d.priorResolution identity = some resolution.outcome) :
    d.resolveAmbiguousHandoffInner enc identity resolution = .ok d ∧
      d.resolveAmbiguousHandoffInner enc identity resolution.other =
        bail "ambiguous handoff was already resolved differently" := by
  unfold resolveAmbiguousHandoffInner
  rw [h]
  exact ⟨if_pos rfl, if_neg outcome_other_ne⟩

/-- A resolution that is forgotten is refused when it comes again. -/
theorem resolve_of_forgotten (hled : Ledger enc K O d)
    (h : d.resolveAmbiguousHandoffInner enc identity resolution = .ok d')
    (hprior : d'.priorResolution identity ≠ some resolution.outcome) :
    ∃ error, d'.resolveAmbiguousHandoffInner enc identity resolution = .error error := by
  rcases hp : d'.priorResolution identity with - | outcome
  · rcases resolveAmbiguousHandoffInner_ok h with ⟨hsame, rfl⟩ | ⟨-, hact⟩
    · exact absurd hsame hprior
    obtain ⟨key, active, -, -, -, hid, hterm, -⟩ := resolved_of_resolveActive hact
    have hmem := get?_eq_some_iff.mp hterm.fenced
    -- the fence is gone, and it was the only one of the identity
    have hnone : d'.reservations.findEntry? (fun _ reservation =>
        reservation.identity == identity) = none := by
      rcases hf : d'.reservations.findEntry? fun _ reservation =>
        reservation.identity == identity with - | e
      · rfl
      · obtain ⟨he, hid'⟩ := findEntry?_some hf
        rw [hterm.reservations] at he
        obtain ⟨he, hkey⟩ := mem_erase.mp he
        have heq := hled.owned.eq_of_identity he hmem ((beq_iff_eq.mp hid').trans hid.symm)
        exact absurd (congrArg Prod.fst heq) hkey
    simp [resolveAmbiguousHandoffInner, hp, resolveActive, hnone, orBail, bail, bind, Except.bind]
  · have hne : outcome ≠ resolution.outcome := fun heq => hprior (heq ▸ hp)
    simp [resolveAmbiguousHandoffInner, hp, hne, bail]

end CoordinatorDocument

open CoordinatorDocument

/-- The resolution can be delivered again, at once or after a restart: it
succeeds and changes no document, and the other resolution is refused and
changes nothing. -/
def Replays (enc : Encoders) (c : RouteCoordinator) (identity : HandoffIdentity)
    (resolution : AmbiguousHandoffResolution) : Prop :=
  ∀ c₂, (c₂ = c ∨ ∃ ns, (Installation.running c).start enc ns .written = (.ok (), .running c₂)) →
    (∀ fault, fault.persist = .written →
      c₂.resolveAmbiguousHandoff enc identity resolution fault =
        (.ok (), { c₂ with journal := some c₂.document })) ∧
    ∀ fault, ∃ error,
      c₂.resolveAmbiguousHandoff enc identity resolution.other fault = (.error error, c₂)

theorem RouteCoordinator.start_running {enc : Encoders} {c c₂ : RouteCoordinator} {ns : Uuid}
    (hj : c.journal = some c.document)
    (h : (Installation.running c).start enc ns .written = (.ok (), .running c₂)) :
    c₂.poisoned = false ∧
      c₂.document = (c.document.reconcileCoordinationKeys enc).pruneAbsentRoutes := by
  simp only [Installation.start, Installation.journal, hj] at h
  rcases e : adopt enc (some c.document) ns with error | c₁
  · rw [e] at h
    cases h
  · rw [e] at h
    obtain ⟨-, rfl⟩ := adopt_eq_ok_iff.mp e
    cases h
    exact ⟨rfl, rfl⟩

/-- **Resolutions are idempotent and single-valued, except for those that are
forgotten.** In every state of every run: when a resolution succeeds, its
replay succeeds without a change and the other resolution is refused, now and
after a restart, exactly if the fence is authoritative, or its record has not
been acknowledged, or another record of the identity has the outcome. -/
theorem resolution_replays_iff {enc : Encoders} {K : KeySpace} {O : OfferSpace}
    (hK : RouteIdsDistinct enc K) (hO : BarrierKeysDistinct enc K O) {ops : List Op}
    (hops : ∀ op ∈ ops, op.NamesIn K ∧ op.OffersIn O) {c c₁ : RouteCoordinator}
    (hrun : Installation.run enc .blank ops = .running c) {identity : HandoffIdentity}
    {resolution : AmbiguousHandoffResolution} {fault : Fault}
    (hok : c.resolveAmbiguousHandoff enc identity resolution fault = (.ok (), c₁)) :
    Replays enc c₁ identity resolution ↔ ¬ c.document.Forgets identity resolution.outcome := by
  have hled : Ledger enc K O c.document := by
    have hrec : Installation.Recorded (Ledger enc K O) (.run enc .blank ops) :=
      Installation.recorded_of_run (ledger_kept hK hO) (meets_offersIn hops .blank)
    exact hrec.document c hrun
  obtain ⟨hp, d₁, hd₁, rfl⟩ := RouteCoordinator.transact_unit_ok hok
  rw [← priorResolution_resolved hled hd₁]
  constructor
  · intro hreplays
    by_contra hprior
    obtain ⟨error, herr⟩ := resolve_of_forgotten hled hd₁ hprior
    have hagain := (hreplays _ (Or.inl rfl)).1 ⟨.written, true⟩ rfl
    obtain ⟨-, d₂, hd₂, -⟩ := RouteCoordinator.transact_unit_ok hagain
    cases herr.symm.trans hd₂
  · intro hprior c₂ hc₂
    -- opening changes routes only, so the outcome is remembered after it as well
    have hsame : c₂.poisoned = false ∧
        c₂.document.priorResolution identity = some resolution.outcome := by
      rcases hc₂ with rfl | ⟨ns, hstart⟩
      · exact ⟨hp, hprior⟩
      · obtain ⟨hp₂, hdoc⟩ := RouteCoordinator.start_running rfl hstart
        refine ⟨hp₂, ?_⟩
        rw [hdoc]
        exact hprior
    have hprior₂ := resolve_of_prior enc hsame.2
    constructor
    · intro fault hfault
      exact RouteCoordinator.transact_unit_written hsame.1 hprior₂.1 hfault
    · exact fun _ => RouteCoordinator.transact_unit_refused hprior₂.2

namespace Sample

/-- The doubt about the office reservation, acknowledged by the control plane. -/
def acknowledgedDoubt : RouteCoordinator := (inDoubt.call encoders acknowledgement).2

/-- The doubt is resolved: the job may be printed again. -/
def released (c : RouteCoordinator) : Fallible Unit × RouteCoordinator :=
  c.resolveAmbiguousHandoff encoders doubt.identity .releaseForRetry noFault

theorem namesIn_inDoubt : ∀ op ∈ opened ++ [.call officeReserve] ++
    [.call (officeEvidence .ambiguous)], op.NamesIn keySpace ∧ op.OffersIn offerSpace :=
  forall_mem_concat (forall_mem_concat opened_offersIn ⟨.inl rfl, trivial⟩) ⟨trivial, trivial⟩

end Sample

open Sample

/-- The release of the doubt can be replayed. -/
theorem resolution_replays_iff_office :
    Replays encoders (released inDoubt).2 doubt.identity .releaseForRetry := by
  have hfacts : (released inDoubt).1 = .ok () ∧
      inDoubt.document.latestHandoff doubt.identity = some doubt ∧
      (inDoubt.document.acknowledgedHandoffSequences.get? "cloud").getD 0 = 0 := by
    decide +kernel
  obtain ⟨hok, hlatest, hack⟩ := hfacts
  refine (resolution_replays_iff routeIdsDistinct barrierKeysDistinct namesIn_inDoubt run_inDoubt
    (Prod.ext hok rfl)).mpr ?_
  rintro ⟨-, -, record, hrec, hseq, -⟩
  cases hlatest.symm.trans hrec
  rw [show (doubt.identity.connectorId : String) = "cloud" from rfl, hack] at hseq
  cases hseq

/-- A local-only fence whose doubt has been acknowledged: the release succeeds,
and the same command delivered again is refused. -/
theorem replayed_release_refused :
    Installation.run encoders .blank (opened ++ [.call officeReserve] ++
      [.call (officeEvidence .ambiguous)] ++ [.call acknowledgement]) = .running acknowledgedDoubt ∧
    (released acknowledgedDoubt).1 = .ok () ∧ (released (released acknowledgedDoubt).2).1 =
      bail "ambiguous route reservation does not match active fence" := by
  constructor
  · rw [Installation.run_append, run_inDoubt, Installation.run_call]
    rfl
  · decide +kernel

end Piqae
