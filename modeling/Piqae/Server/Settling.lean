/-
Piqae/Server/Settling.lean

What every operation of the topology repository but the beginning of an attempt
does to attempts and reservations: attempts only move forward, nothing becomes
fenced that was not, and an active reservation ends only when no attempt needs
its fence any more.  `Settles` says so of two states of the tables, and there is
one lemma per operation.
-/
import Piqae.Server.Frames

namespace Piqae.Server

open SortedMap

namespace DeliveryAttemptState

/-- The states in which an attempt needs the fence of its destination. -/
def isFenced : DeliveryAttemptState → Bool
  | routeLeased | acceptedByNode | queuedLocal | handingToSpooler => true
  | _ => false

/-- An attempt can go from `state` to `next`: final states stay, and the fence is
not taken up again. -/
structure Follows (state next : DeliveryAttemptState) : Prop where
  final : state.isFinal = true → next = state
  fenced : next.isFenced = true → state.isFenced = true

theorem Follows.refl (state : DeliveryAttemptState) : Follows state state := ⟨fun _ => rfl, id⟩

variable {a b : DeliveryAttemptState}

theorem Follows.trans {c : DeliveryAttemptState} (h : Follows a b) (h' : Follows b c) :
    Follows a c := by
  constructor
  · intro hfin
    have hab := h.final hfin
    rw [← hab] at hfin
    exact (h'.final hfin).trans hab
  · exact fun hc => h.fenced (h'.fenced hc)

theorem follows_of_valid (h : validAttemptTransition a b = true) : Follows a b := by
  cases a <;> cases b <;> first | exact ⟨by decide, by decide⟩ | cases h

end DeliveryAttemptState

open DeliveryAttemptState

/-- Two states of one attempt. -/
structure DeliveryAttempt.Continues (attempt next : DeliveryAttempt) : Prop where
  id : next.id = attempt.id
  jobId : next.jobId = attempt.jobId
  destinationId : next.destinationId = attempt.destinationId
  routeId : next.routeId = attempt.routeId
  generation : next.generation = attempt.generation
  state : attempt.state.Follows next.state

theorem DeliveryAttempt.Continues.refl (attempt : DeliveryAttempt) : attempt.Continues attempt :=
  ⟨rfl, rfl, rfl, rfl, rfl, .refl _⟩

theorem DeliveryAttempt.Continues.trans {a b c : DeliveryAttempt} (h : a.Continues b)
    (h' : b.Continues c) : a.Continues c :=
  ⟨h'.id.trans h.id, h'.jobId.trans h.jobId, h'.destinationId.trans h.destinationId,
    h'.routeId.trans h.routeId, h'.generation.trans h.generation, h.state.trans h'.state⟩

theorem DeliveryAttempt.continues_advance {attempt : DeliveryAttempt} {next : DeliveryAttemptState}
    (h : attempt.state.Follows next) (now : DateTime) :
    attempt.Continues (attempt.advance next now) :=
  ⟨rfl, rfl, rfl, rfl, rfl, h⟩

/-- Two states of one reservation. -/
structure RouteReservation.SameFence (reservation next : RouteReservation) : Prop where
  routeId : next.routeId = reservation.routeId
  destinationId : next.destinationId = reservation.destinationId
  attemptId : next.attemptId = reservation.attemptId

namespace MemoryState

variable {s s' s'' : MemoryState} {scope : TenantScope} {now : DateTime} {key choice : Key}
  {attempt : DeliveryAttempt} {f : DeliveryAttempt → DeliveryAttempt} {state : ReservationState}
  {p : DeliveryAttempt → Bool} {e : Key × DeliveryAttempt} {digest : String → String}
  {token : String} {request : NewDeliveryAttempt} {started : StartedDeliveryAttempt}
  {cleared : MemoryState} {next : DeliveryAttemptState} {choices : Choices} {generation : Nat}
  {attemptId jobId agentId routeId destinationId : String} {decision : IdentityDecision}

/-- Attempts are stored under their id. -/
def Keyed (s : MemoryState) : Prop := ∀ e ∈ s.attempts.entries, e.2.id = e.1.id

/-- No attempt of that id needs its fence. -/
def Unfenced (s : MemoryState) (scope : TenantScope) (attemptId : String) : Prop :=
  ∀ e ∈ s.attempts.entries, e.1.scope = scope → e.2.id = attemptId → e.2.state.isFenced = false

structure Settles (s s' : MemoryState) : Prop where
  attempts : ∀ e ∈ s'.attempts.entries,
    ∃ attempt, (e.1, attempt) ∈ s.attempts.entries ∧ attempt.Continues e.2
  present : ∀ e ∈ s.attempts.entries, ∃ attempt, (e.1, attempt) ∈ s'.attempts.entries
  reservations : ∀ e ∈ s'.reservations.entries, e.2.state = .active →
    ∃ reservation, (e.1, reservation) ∈ s.reservations.entries ∧
      reservation.state = .active ∧ reservation.SameFence e.2
  kept : ∀ e ∈ s.reservations.entries, e.2.state = .active →
    (∃ reservation, (e.1, reservation) ∈ s'.reservations.entries ∧
      reservation.state = .active ∧ e.2.SameFence reservation) ∨
    s'.Unfenced e.1.scope e.2.attemptId

namespace Settles

theorem frame (hatt : s'.attempts = s.attempts) (hres : s'.reservations = s.reservations) :
    Settles s s' := by
  constructor
  · intro e he
    exact ⟨e.2, hatt ▸ he, .refl _⟩
  · intro e he
    exact ⟨e.2, hatt ▸ he⟩
  · intro e he hact
    exact ⟨e.2, hres ▸ he, hact, rfl, rfl, rfl⟩
  · intro e he hact
    exact .inl ⟨e.2, hres ▸ he, hact, rfl, rfl, rfl⟩

theorem refl (s : MemoryState) : Settles s s := frame rfl rfl

/-- What needs no fence keeps needing none. -/
theorem unfenced (h : Settles s s') (hun : s.Unfenced scope attemptId) :
    s'.Unfenced scope attemptId := by
  intro e he hsc hid
  obtain ⟨attempt, ha, hcont⟩ := h.attempts e he
  have hfree := hun _ ha hsc (hcont.id.symm.trans hid)
  by_contra hfenced
  rw [Bool.not_eq_false] at hfenced
  exact absurd (hcont.state.fenced hfenced) (by simpa using hfree)

theorem trans (h : Settles s s') (h' : Settles s' s'') : Settles s s'' := by
  constructor
  · intro e he
    obtain ⟨b, hb, hbc⟩ := h'.attempts e he
    obtain ⟨a, ha, hab⟩ := h.attempts _ hb
    exact ⟨a, ha, hab.trans hbc⟩
  · intro e he
    obtain ⟨b, hb⟩ := h.present e he
    exact h'.present (e.1, b) hb
  · intro e he hact
    obtain ⟨b, hb, hba, hbc⟩ := h'.reservations e he hact
    obtain ⟨a, ha, haa, hab⟩ := h.reservations _ hb hba
    exact ⟨a, ha, haa, hbc.routeId.trans hab.routeId, hbc.destinationId.trans hab.destinationId,
      hbc.attemptId.trans hab.attemptId⟩
  · intro e he hact
    rcases h.kept e he hact with ⟨b, hb, hba, hab⟩ | hun
    · rcases h'.kept _ hb hba with ⟨c, hc, hca, hbc⟩ | hun
      · exact .inl ⟨c, hc, hca, hbc.routeId.trans hab.routeId,
          hbc.destinationId.trans hab.destinationId, hbc.attemptId.trans hab.attemptId⟩
      · exact .inr (hab.attemptId ▸ hun)
    · exact .inr (h'.unfenced hun)

theorem keyed (h : Settles s s') (hk : s.Keyed) : s'.Keyed := by
  intro e he
  obtain ⟨a, ha, hcont⟩ := h.attempts e he
  exact hcont.id.trans (hk _ ha)

end Settles

/-! ### The building blocks -/

theorem settles_mapAttempts {f : Key → DeliveryAttempt → DeliveryAttempt}
    (hf : ∀ e ∈ s.attempts.entries, e.2.Continues (f e.1 e.2)) :
    Settles s { s with attempts := s.attempts.mapValues f } := by
  constructor
  · intro e he
    obtain ⟨a, ha, heq⟩ := mem_mapValues.mp he
    exact ⟨a, ha, heq ▸ hf _ ha⟩
  · intro e he
    exact ⟨_, mem_mapValues_of_mem he⟩
  · intro e he hact
    exact ⟨e.2, he, hact, rfl, rfl, rfl⟩
  · intro e he hact
    exact .inl ⟨e.2, he, hact, rfl, rfl, rfl⟩

/-- One attempt moves on. -/
theorem settles_putAttempt (hmem : (key, attempt) ∈ s.attempts.entries)
    (hf : attempt.Continues (f attempt)) : Settles s (s.putAttempt key f) := by
  refine settles_mapAttempts ?_
  rintro ⟨key', other⟩ he
  split_ifs with hkey
  · obtain ⟨-, rfl⟩ := Prod.mk.inj (eq_of_mem_of_mem he hmem hkey)
    exact hf
  · exact .refl _

theorem settles_mapReservations {g : Key → RouteReservation → RouteReservation}
    (hg : ∀ e ∈ s.reservations.entries, e.2.SameFence (g e.1 e.2) ∧
      ((g e.1 e.2).state = .active → e.2.state = .active) ∧
      (e.2.state = .active → (g e.1 e.2).state = .active ∨ s.Unfenced e.1.scope e.2.attemptId)) :
    Settles s { s with reservations := s.reservations.mapValues g } := by
  constructor
  · intro e he
    exact ⟨e.2, he, .refl _⟩
  · intro e he
    exact ⟨e.2, he⟩
  · intro e he hact
    obtain ⟨r, hr, heq⟩ := mem_mapValues.mp he
    obtain ⟨hsame, hback, -⟩ := hg _ hr
    rw [heq] at hact ⊢
    exact ⟨r, hr, hback hact, hsame⟩
  · intro e he hact
    obtain ⟨hsame, -, hkept⟩ := hg e he
    rcases hkept hact with hstill | hun
    · exact .inl ⟨_, mem_mapValues_of_mem he, hstill, hsame⟩
    · exact .inr hun

theorem settles_closeReservations {p : RouteReservation → Bool} (hst : state ≠ .active)
    (hp : ∀ e ∈ s.reservations.entries, e.1.scope = scope → p e.2 = true →
      e.2.state = .active → s.Unfenced scope e.2.attemptId) :
    Settles s (s.closeReservations scope now p state) := by
  refine settles_mapReservations ?_
  intro e he
  split_ifs with hcond
  · simp only [Bool.and_eq_true, beq_iff_eq] at hcond
    obtain ⟨⟨hsc, hpe⟩, hact⟩ := hcond
    refine ⟨⟨rfl, rfl, rfl⟩, fun h => absurd h hst, fun _ => .inr ?_⟩
    rw [hsc]
    exact hp e he hsc hpe hact
  · exact ⟨⟨rfl, rfl, rfl⟩, id, .inl⟩

theorem settles_closeReservation (hst : state ≠ .active)
    (hun : s.Unfenced scope attemptId) :
    Settles s (s.closeReservation scope now choice attemptId state) := by
  unfold closeReservation
  split
  · exact .refl _
  · next key reservation hpick =>
    obtain ⟨hmem, hp⟩ := pick?_some hpick
    simp only [Bool.and_eq_true, beq_iff_eq] at hp
    refine settles_mapReservations ?_
    rintro ⟨key', r⟩ he
    split_ifs with hkey
    · subst hkey
      have heq : r = reservation := by
        simpa using eq_of_mem_of_mem he hmem rfl
      subst heq
      refine ⟨⟨rfl, rfl, rfl⟩, fun h => absurd h hst, fun _ => .inr ?_⟩
      rw [hp.1.1, hp.1.2]
      exact hun
    · exact ⟨⟨rfl, rfl, rfl⟩, id, .inl⟩

theorem settles_flagUncertain :
    Settles s (s.flagUncertain scope now next destinationId) := by
  unfold flagUncertain
  split_ifs
  · exact .frame rfl rfl
  · exact .refl _

theorem settles_supersedeAttempts
    (hp : ∀ attempt, p attempt = true → attempt.state = .routeLeased) :
    Settles s (s.supersedeAttempts scope now p) := by
  refine settles_mapAttempts ?_
  intro e he
  split_ifs with hcond
  · refine DeliveryAttempt.continues_advance ?_ now
    rw [hp e.2 (Bool.and_eq_true _ _ ▸ hcond).2]
    exact follows_of_valid rfl
  · exact .refl _

/-! ### The operations -/

/-- Attempts of one id in one tenant are one attempt. -/
theorem Keyed.key_eq (hk : s.Keyed) {e' : Key × DeliveryAttempt} (he : e ∈ s.attempts.entries)
    (he' : e' ∈ s.attempts.entries) (hsc : e.1.scope = e'.1.scope) (hid : e.2.id = e'.2.id) :
    e = e' := by
  refine eq_of_mem_of_mem he he' ?_
  rcases hkey : e.1 with ⟨scope, id⟩
  rcases hkey' : e'.1 with ⟨scope', id'⟩
  have h1 := hk e he
  have h2 := hk e' he'
  simp only [hkey, hkey'] at h1 h2 hsc
  rw [hsc, ← h1, ← h2, hid]

/-- Once an attempt has left the fenced states, its id needs no fence. -/
theorem unfenced_putAttempt (hk : s.Keyed) (hmem : (key, attempt) ∈ s.attempts.entries)
    (hnext : ∀ attempt, (f attempt).state.isFenced = false) :
    (s.putAttempt key f).Unfenced key.scope attempt.id := by
  intro e he hsc heid
  obtain ⟨a, ha, heq⟩ := mem_mapValues.mp he
  by_cases hkey : e.1 = key
  · rw [heq, if_pos hkey]
    exact hnext a
  · rw [if_neg hkey] at heq
    exact absurd (congrArg Prod.fst (hk.key_eq ha hmem hsc (heq ▸ heid))) hkey

theorem isStale_iff :
    isStale now destinationId attempt = true ↔ attempt.destinationId = destinationId ∧
      attempt.state = .routeLeased ∧ attempt.leaseUntil ≤ now := by
  simp [isStale, and_assoc]

theorem settles_supersedeStale (hk : s.Keyed) :
    Settles s (s.supersedeStale scope now destinationId) := by
  have hp : ∀ attempt, isStale now destinationId attempt = true → attempt.state = .routeLeased :=
    fun attempt h => (isStale_iff.mp h).2.1
  refine (settles_supersedeAttempts hp).trans (settles_closeReservations (by decide) ?_)
  intro r hr hsc hstale hact e he hescope heid
  -- the attempt of the reservation is one of those superseded before
  obtain ⟨a, ha, heq⟩ := mem_mapValues.mp he
  rw [List.contains_iff_mem, List.mem_map] at hstale
  obtain ⟨e', he', hid'⟩ := hstale
  obtain ⟨hmem', hcond'⟩ := List.mem_filter.mp he'
  rw [Bool.and_eq_true, beq_iff_eq] at hcond'
  have hida : a.id = e.2.id := by
    rw [heq]
    split_ifs <;> rfl
  have hone := hk.key_eq ha hmem' (hescope.trans hcond'.1.symm) (hida.trans (heid.trans hid'.symm))
  rw [← hone] at hcond'
  rw [heq, if_pos (by rw [Bool.and_eq_true, beq_iff_eq]; exact hcond')]
  rfl

theorem settles_retireActive (hk : s.Keyed) {reservationChoice : Key}
    (h : s.retireActive scope now choice reservationChoice jobId = .ok s') : Settles s s' := by
  obtain ⟨key, active, hmem, ⟨rfl, -⟩, hlea, rfl⟩ | ⟨rfl, -⟩ := retireActive_ok h
  · have hput : Settles s (s.putAttempt key fun attempt => attempt.advance .superseded now) := by
      refine settles_putAttempt hmem (DeliveryAttempt.continues_advance ?_ now)
      rw [hlea]
      exact follows_of_valid rfl
    refine hput.trans (settles_closeReservation (by decide) ?_)
    exact unfenced_putAttempt hk hmem fun _ => rfl
  · exact .refl _

/-! ### Beginning an attempt -/

/-- The tables that only decide whom to admit. -/
structure SameRoutes (s s' : MemoryState) : Prop where
  routes : s'.routes = s.routes
  uncertaintyResolutions : s'.uncertaintyResolutions = s.uncertaintyResolutions

theorem closeReservation_attempts :
    (s.closeReservation scope now choice attemptId state).attempts = s.attempts := by
  unfold closeReservation
  split <;> rfl

theorem Delivers.sameRoutes (h : Delivers s s') : SameRoutes s s' :=
  ⟨h.routes, h.uncertaintyResolutions⟩

/-- An attempt was granted: `cleared` are the tables with the leases that ran out
superseded, `s'` those with the new attempt. -/
structure Grants (s : MemoryState) (scope : TenantScope) (now : DateTime)
    (digest : String → String) (token : String) (request : NewDeliveryAttempt)
    (started : StartedDeliveryAttempt) (cleared s' : MemoryState) : Prop where
  admitted : s.routeAdmits scope request = true
  retired : ∃ choices : Choices, (s.supersedeStale scope now request.destinationId).retireActive
    scope now choices.attempt choices.reservation request.jobId = .ok cleared
  free : cleared.handoffBusy scope request = false
  certain : cleared.hasUnresolvedDestinationUncertainty scope request.destinationId = false
  attempt : started.attempt =
    newAttempt now request (cleared.nextGeneration scope request.jobId) (digest token)
  reservation : started.reservation =
    newReservation now request (cleared.nextGeneration scope request.jobId)
  tables : s' = { cleared with
    attempts := cleared.attempts.insert ⟨scope, request.attemptId⟩ started.attempt
    reservations := cleared.reservations.insert ⟨scope, request.reservationId⟩ started.reservation }

theorem Grants.settles (h : Grants s scope now digest token request started cleared s')
    (hk : s.Keyed) : Settles s cleared := by
  obtain ⟨choices, hret⟩ := h.retired
  have hstale : Settles s (s.supersedeStale scope now request.destinationId) :=
    settles_supersedeStale hk
  exact hstale.trans (settles_retireActive (hstale.keyed hk) hret)

theorem Grants.sameRoutes (h : Grants s scope now digest token request started cleared s') :
    SameRoutes s cleared := by
  obtain ⟨choices, hret⟩ := h.retired
  have hretired := delivers_retireActive hret
  exact ⟨hretired.routes, hretired.uncertaintyResolutions⟩

/-- A call either grants an attempt or only supersedes leases that ran out. -/
theorem beginDeliveryAttempt_cases (hk : s.Keyed) (digest : String → String) (choices : Choices)
    (token : String) (request : NewDeliveryAttempt) :
    (∃ error, (s.beginDeliveryAttempt scope now digest choices token request).1 = .error error ∧
      Settles s (s.beginDeliveryAttempt scope now digest choices token request).2 ∧
      SameRoutes s (s.beginDeliveryAttempt scope now digest choices token request).2) ∨
    ∃ started cleared,
      (s.beginDeliveryAttempt scope now digest choices token request).1 = .ok started ∧
      Grants s scope now digest token request started cleared
        (s.beginDeliveryAttempt scope now digest choices token request).2 := by
  have hstale : Settles s (s.supersedeStale scope now request.destinationId) :=
    settles_supersedeStale hk
  unfold beginDeliveryAttempt
  split_ifs with hadm
  · exact .inl ⟨_, rfl, .refl _, rfl, rfl⟩
  dsimp only
  split
  · exact .inl ⟨_, rfl, hstale, rfl, rfl⟩
  · next cleared hret =>
    have hset := hstale.trans (settles_retireActive (hstale.keyed hk) hret)
    have hretired := delivers_retireActive hret
    have hrts : SameRoutes s cleared := ⟨hretired.routes, hretired.uncertaintyResolutions⟩
    split_ifs with hbusy hunc
    · exact .inl ⟨_, rfl, hset, hrts⟩
    · exact .inl ⟨_, rfl, hset, hrts⟩
    · refine .inr ⟨_, cleared, rfl, ?_, ⟨choices, hret⟩, ?_, ?_, rfl, rfl, rfl⟩
      · simpa using hadm
      · simpa using hbusy
      · simpa using hunc

/-! ### Moving an attempt along -/

theorem settles_transitionDeliveryAttempt (hk : s.Keyed) : Settles s
      (s.transitionDeliveryAttempt scope now digest choice attemptId generation token next).2 := by
  unfold transitionDeliveryAttempt
  split
  · exact .refl _
  · next attempt hget =>
    have hmem := get?_eq_some_iff.mp hget
    split_ifs with hcond
    · exact .refl _
    simp only [Bool.or_eq_true, Bool.not_eq_true', not_or, Bool.not_eq_false] at hcond
    have hput : Settles s (s.putAttempt ⟨scope, attemptId⟩ fun _ => attempt.transition next now) :=
      settles_putAttempt hmem ⟨rfl, rfl, rfl, rfl, rfl, follows_of_valid hcond.2⟩
    refine hput.trans (.trans ?_ settles_flagUncertain)
    unfold releaseFence
    split_ifs with hrel
    · refine settles_closeReservation (by cases next <;> decide) ?_
      have hfree : next.isFenced = false := by
        revert hrel
        cases next <;> decide
      have hid : attempt.id = attemptId := hk _ hmem
      have hun := unfenced_putAttempt hk hmem (f := fun _ => attempt.transition next now)
        fun _ => hfree
      rwa [hid] at hun
    · exact .refl _

theorem settles_settleAttempt (hk : s.Keyed) (hmem : (key, attempt) ∈ s.attempts.entries)
    (hsc : key.scope = scope) (hpost : postSpooler attempt.state = true)
    (hfol : attempt.state.Follows next) :
    Settles s (s.settleAttempt scope now choice key attempt next).2 := by
  have hput : Settles s (s.putAttempt key fun _ => attempt.advance next now) :=
    settles_putAttempt hmem (DeliveryAttempt.continues_advance hfol now)
  refine hput.trans (.trans (settles_closeReservation (by decide) ?_) settles_flagUncertain)
  have hfree : next.isFenced = false := by
    rw [Bool.eq_false_iff]
    intro hfenced
    have := hfol.fenced hfenced
    revert hpost this
    cases attempt.state <;> decide
  have hun := unfenced_putAttempt hk hmem (f := fun _ => attempt.advance next now) fun _ => hfree
  rwa [hsc] at hun

theorem latestAttempt_some (h : s.latestAttempt scope p choice = some e) :
    e ∈ s.attempts.entries ∧ e.1.scope = scope ∧ p e.2 = true := by
  obtain ⟨hmem, hp⟩ := pick?_some h
  simp only [Bool.and_eq_true, beq_iff_eq] at hp
  exact ⟨hmem, hp.1.1, hp.1.2⟩

theorem settles_transitionPostSpoolerAttempt (hk : s.Keyed) : Settles s
      (s.transitionPostSpoolerAttempt scope now choices jobId agentId routeId next).2 := by
  fun_cases transitionPostSpoolerAttempt s scope now choices jobId agentId routeId next
  case case6 hlatest hcond =>
    obtain ⟨hmem, hsc, -⟩ := latestAttempt_some hlatest
    simp only [Bool.or_eq_true, Bool.not_eq_true', not_or, Bool.not_eq_false] at hcond
    exact settles_settleAttempt hk hmem hsc hcond.1 (follows_of_valid hcond.2)
  all_goals exact .refl _

theorem settles_markPostSpoolerAttemptUncertain (hk : s.Keyed) :
    Settles s (s.markPostSpoolerAttemptUncertain scope now choices jobId).2 := by
  unfold markPostSpoolerAttemptUncertain
  split
  · exact .refl _
  · next key attempt hlatest =>
    obtain ⟨hmem, hsc, -⟩ := latestAttempt_some hlatest
    split_ifs with hcond
    · exact .refl _
    rw [Bool.not_eq_true', Bool.not_eq_false] at hcond
    refine settles_settleAttempt hk hmem hsc hcond ?_
    revert hcond
    cases attempt.state <;> first | exact fun _ => follows_of_valid rfl | (intro h; cases h)

theorem settles_renewDeliveryAttempt {reservationId : String} {leaseUntil : DateTime} : Settles s
      (s.renewDeliveryAttempt scope now digest reservationId generation token leaseUntil).2 := by
  unfold renewDeliveryAttempt
  split_ifs
  · exact .refl _
  split
  · exact .refl _
  next reservation hres =>
  split
  · exact .refl _
  next attempt hatt =>
  have hput : Settles s (s.putAttempt ⟨scope, reservation.attemptId⟩ fun _ =>
      { attempt with leaseUntil := leaseUntil, updatedAt := now }) :=
    settles_putAttempt (get?_eq_some_iff.mp hatt) ⟨rfl, rfl, rfl, rfl, rfl, .refl _⟩
  split_ifs
  · exact .refl _
  · exact hput
  refine hput.trans ?_
  refine settles_mapReservations ?_
  rintro ⟨key, r⟩ hr
  split_ifs with hkey
  · have heq : r = reservation := (Prod.mk.inj
      (eq_of_mem_of_mem hr (get?_eq_some_iff.mp hres) hkey)).2
    rw [heq]
    exact ⟨⟨rfl, rfl, rfl⟩, id, .inl⟩
  · exact ⟨⟨rfl, rfl, rfl⟩, id, .inl⟩

/-! ### Operations on destinations, routes and resolutions -/

theorem SameAttempts.settles (h : SameAttempts s s') : Settles s s' :=
  .frame h.attempts h.reservations

theorem sameAttempts_recordIdentityEvidence {evidence : IdentityEvidence} :
    SameAttempts s (s.recordIdentityEvidence scope evidence).2 := by
  fun_cases recordIdentityEvidence s scope evidence <;> exact .frame rfl rfl rfl

theorem sameAttempts_regroup : SameAttempts s (s.regroup scope now decision).2 := by
  fun_cases regroup s scope now decision <;> exact .frame rfl rfl rfl

theorem sameAttempts_applyDecision : SameAttempts s (s.applyDecision scope now decision).2 := by
  unfold applyDecision
  split
  · exact sameAttempts_regroup
  · exact sameAttempts_regroup
  · exact decides_gradeDestination.toSameAttempts
  · exact decides_gradeDestinations.toSameAttempts
  · exact .refl _

theorem sameAttempts_recordIdentityDecision :
    SameAttempts s (s.recordIdentityDecision scope now decision).2 := by
  have happ : SameAttempts s (s.applyDecision scope now decision).2 := sameAttempts_applyDecision
  fun_cases recordIdentityDecision s scope now decision
  case case5 hdec =>
    rw [hdec] at happ
    exact happ
  case case6 hdec =>
    rw [hdec] at happ
    exact happ.trans (.frame rfl rfl rfl)
  all_goals exact .refl _

theorem sameAttempts_reverseIdentityDecision :
    SameAttempts s (s.reverseIdentityDecision scope decision).2 := by
  fun_cases reverseIdentityDecision s scope decision <;> exact .frame rfl rfl rfl

end MemoryState

namespace Topology

open MemoryState

/-- Attempts and uncertain deliveries are what the call is about. -/
def aboutAttempts : TopologyOp → Bool
  | .beginDeliveryAttempt .. | .transitionDeliveryAttempt .. | .transitionPostSpoolerAttempt ..
  | .markPostSpoolerAttemptUncertain .. | .renewDeliveryAttempt ..
  | .enqueueDeliveryUncertaintyResolution .. | .acknowledgeUncertaintyResolutionCommand ..
  | .finalizeDeliveryUncertaintyResolution .. | .recomputeDestinationAttention .. => true
  | _ => false

/-- Such a call begins an attempt, moves one or decides about one. -/
theorem step_aboutAttempts (digest : String → String) (t : Topology) {op : TopologyOp}
    (hop : aboutAttempts op = true) :
    (∃ scope now choices token request,
      op = .beginDeliveryAttempt scope now choices token request) ∨
    (t.step digest op).begun = t.begun ∧
      (Delivers t.tables (t.step digest op).tables ∧
          (t.tables.Keyed → Settles t.tables (t.step digest op).tables) ∨
        Decides t.tables (t.step digest op).tables) := by
  cases op with
  | beginDeliveryAttempt => exact .inl ⟨_, _, _, _, _, rfl⟩
  | transitionDeliveryAttempt =>
    exact .inr ⟨rfl, .inl ⟨delivers_transitionDeliveryAttempt,
      settles_transitionDeliveryAttempt⟩⟩
  | transitionPostSpoolerAttempt =>
    exact .inr ⟨rfl, .inl ⟨delivers_transitionPostSpoolerAttempt,
      settles_transitionPostSpoolerAttempt⟩⟩
  | markPostSpoolerAttemptUncertain =>
    exact .inr ⟨rfl, .inl ⟨delivers_markPostSpoolerAttemptUncertain,
      settles_markPostSpoolerAttemptUncertain⟩⟩
  | renewDeliveryAttempt =>
    exact .inr ⟨rfl, .inl ⟨delivers_renewDeliveryAttempt, fun _ => settles_renewDeliveryAttempt⟩⟩
  | enqueueDeliveryUncertaintyResolution =>
    exact .inr ⟨rfl, .inr decides_enqueueDeliveryUncertaintyResolution⟩
  | acknowledgeUncertaintyResolutionCommand =>
    exact .inr ⟨rfl, .inr decides_acknowledgeUncertaintyResolutionCommand⟩
  | finalizeDeliveryUncertaintyResolution =>
    exact .inr ⟨rfl, .inr decides_finalizeDeliveryUncertaintyResolution⟩
  | recomputeDestinationAttention =>
    exact .inr ⟨rfl, .inr decides_recomputeDestinationAttention⟩
  | _ => cases hop

end Topology

end Piqae.Server
