/-
Piqae/Server/Fence.lean

At most one attempt per physical destination between the node's acceptance and
the spooler's.  The repository enforces it through reservations: an attempt in a
fenced state has an active reservation, and a destination has at most one.

`Exclusive` is that pairing.  Every operation keeps it except two uses of the
interface: beginning an attempt under an id that is taken, which overwrites the
row that had it; and the revocation of a node whose attempts it has accepted,
which ends their reservations and leaves the attempts where they are.
-/
import Piqae.Server.Settling

namespace Piqae.Server

open SortedMap List

/-- The node has the job and the spooler has not. -/
def DeliveryAttemptState.isExecuting : DeliveryAttemptState → Bool
  | acceptedByNode | queuedLocal | handingToSpooler => true
  | _ => false

theorem DeliveryAttemptState.isFenced_of_isExecuting {state : DeliveryAttemptState}
    (h : state.isExecuting = true) : state.isFenced = true := by
  cases state <;> first | rfl | cases h

namespace MemoryState

variable {s s' : MemoryState} {scope : TenantScope} {now : DateTime} {jobId : String}
  {e : Key × DeliveryAttempt} {choice reservationChoice : Key} {generation : Nat}

structure Exclusive (s : MemoryState) : Prop where
  keyed : s.Keyed
  /-- An active reservation names an attempt on its route. -/
  backed : ∀ e ∈ s.reservations.entries, e.2.state = .active →
    ∃ attempt, (⟨e.1.scope, e.2.attemptId⟩, attempt) ∈ s.attempts.entries ∧
      attempt.routeId = e.2.routeId ∧ attempt.destinationId = e.2.destinationId
  fenced : ∀ e ∈ s.attempts.entries, e.2.state.isFenced = true →
    ∃ r ∈ s.reservations.entries, r.1.scope = e.1.scope ∧ r.2.state = .active ∧
      r.2.attemptId = e.2.id
  alone : ∀ r ∈ s.reservations.entries, ∀ r' ∈ s.reservations.entries, r.1.scope = r'.1.scope →
    r.2.state = .active → r'.2.state = .active → r.2.destinationId = r'.2.destinationId → r = r'
  single : ∀ e ∈ s.attempts.entries, ∀ e' ∈ s.attempts.entries, e.1.scope = e'.1.scope →
    e.2.jobId = e'.2.jobId → e.2.state.isFinal = false → e'.2.state.isFinal = false → e = e'

namespace Exclusive

/-- The reservation of a fenced attempt is on the attempt's own destination. -/
theorem fence (h : Exclusive s) {e : Key × DeliveryAttempt} (he : e ∈ s.attempts.entries)
    (hfenced : e.2.state.isFenced = true) :
    ∃ r ∈ s.reservations.entries, r.1.scope = e.1.scope ∧ r.2.state = .active ∧
      r.2.attemptId = e.2.id ∧ r.2.destinationId = e.2.destinationId := by
  obtain ⟨r, hr, hsc, hact, hid⟩ := h.fenced e he hfenced
  obtain ⟨a, ha, -, hdest⟩ := h.backed r hr hact
  have heq := h.keyed.key_eq ha he hsc ((h.keyed _ ha).trans hid)
  exact ⟨r, hr, hsc, hact, hid, by rw [← heq]; exact hdest.symm⟩

/-- **One fenced attempt per destination.** -/
theorem one_fenced (h : Exclusive s) {e e' : Key × DeliveryAttempt}
    (he : e ∈ s.attempts.entries) (he' : e' ∈ s.attempts.entries)
    (hsc : e.1.scope = e'.1.scope) (hdest : e.2.destinationId = e'.2.destinationId)
    (hfenced : e.2.state.isFenced = true) (hfenced' : e'.2.state.isFenced = true) : e = e' := by
  obtain ⟨r, hr, hrs, hra, hrid, hrd⟩ := h.fence he hfenced
  obtain ⟨r', hr', hrs', hra', hrid', hrd'⟩ := h.fence he' hfenced'
  have heq := h.alone r hr r' hr' (hrs.trans (hsc.trans hrs'.symm)) hra hra'
    (hrd.trans (hdest.trans hrd'.symm))
  exact h.keyed.key_eq he he' hsc (by rw [← hrid, ← hrid', heq])

theorem settles (h : Exclusive s) (hs : Settles s s') : Exclusive s' := by
  constructor
  · exact hs.keyed h.keyed
  · intro e he hact
    obtain ⟨r, hr, hra, hsame⟩ := hs.reservations e he hact
    obtain ⟨a, ha, hrt, hdest⟩ := h.backed _ hr hra
    obtain ⟨a', ha'⟩ := hs.present _ ha
    obtain ⟨a'', ha'', hcont⟩ := hs.attempts _ ha'
    have heq : a'' = a := (Prod.mk.inj (eq_of_mem_of_mem ha'' ha rfl)).2
    rw [heq] at hcont
    rw [hsame.attemptId, hsame.routeId, hsame.destinationId]
    exact ⟨a', ha', hcont.routeId.trans hrt, hcont.destinationId.trans hdest⟩
  · intro e he hfenced
    obtain ⟨a, ha, hcont⟩ := hs.attempts e he
    obtain ⟨r, hr, hsc, hact, hid⟩ := h.fenced _ ha (hcont.state.fenced hfenced)
    rcases hs.kept r hr hact with ⟨r', hr', hra', hsame⟩ | hun
    · exact ⟨(r.1, r'), hr', hsc, hra', hsame.attemptId.trans (hid.trans hcont.id.symm)⟩
    · have hfree := hun e he hsc.symm (hcont.id.trans hid.symm)
      rw [hfree] at hfenced
      cases hfenced
  · intro r hr r' hr' hsc hact hact' hdest
    obtain ⟨a, ha, haa, hsame⟩ := hs.reservations r hr hact
    obtain ⟨a', ha', haa', hsame'⟩ := hs.reservations r' hr' hact'
    have heq := h.alone _ ha _ ha' hsc haa haa'
      (hsame.destinationId.symm.trans (hdest.trans hsame'.destinationId))
    exact eq_of_mem_of_mem hr hr' (congrArg Prod.fst heq :)
  · intro e he e' he' hsc hjob hopen hopen'
    obtain ⟨a, ha, hcont⟩ := hs.attempts e he
    obtain ⟨a', ha', hcont'⟩ := hs.attempts e' he'
    have hback : ∀ {state next : DeliveryAttemptState}, state.Follows next →
        next.isFinal = false → state.isFinal = false := by
      intro state next hfol hnext
      rw [Bool.eq_false_iff]
      intro hfin
      rw [hfol.final hfin, hfin] at hnext
      cases hnext
    have heq := h.single _ ha _ ha' hsc (hcont.jobId.symm.trans (hjob.trans hcont'.jobId))
      (hback hcont.state hopen) (hback hcont'.state hopen')
    exact eq_of_mem_of_mem he he' (congrArg Prod.fst heq :)

end Exclusive

theorem exclusive_initial : Exclusive initial := by
  constructor <;> simp [initial, Keyed]

/-! ### Revocation -/

theorem settles_withdrawDestinations (destinationIds : List String) :
    Settles s (s.withdrawDestinations scope now destinationIds) := .frame rfl rfl

/-- A node can be revoked without touching the fence of an attempt it executes. -/
theorem settles_revokeAgentTopology (h : Exclusive s) (agentId : String)
    (hidle : ∀ e ∈ s.attempts.entries, e.1.scope = scope → e.2.state.isExecuting = true →
      ∀ route ∈ s.routes.get? ⟨scope, e.2.routeId⟩, route.agentId ≠ agentId) :
    Settles s (s.revokeAgentTopology scope now agentId) := by
  have hret : Settles s (s.retireRoutes scope now agentId
      ((s.agentRoutes scope agentId).map fun e => e.1.id)) := .frame rfl rfl
  refine hret.trans (.trans ?_ (settles_withdrawDestinations _))
  refine .trans (settles_supersedeAttempts ?_) (settles_closeReservations (by decide) ?_)
  · intro attempt hp
    simp only [Bool.and_eq_true, beq_iff_eq] at hp
    exact hp.2
  · intro r hr hsc hrt hact e he hescope heid
    obtain ⟨a, ha, heq⟩ := mem_mapValues.mp he
    obtain ⟨b, hb, hbroute, -⟩ := h.backed r hr hact
    have hida : a.id = e.2.id := by
      rw [heq]
      split_ifs <;> rfl
    have hab := h.keyed.key_eq ha hb (hescope.trans hsc.symm)
      (hida.trans (heid.trans (h.keyed _ hb).symm))
    have hrt' : a.routeId = r.2.routeId := by
      rw [← hbroute]
      exact congrArg (fun e : Key × DeliveryAttempt => e.2.routeId) hab
    -- the route is one of the node's
    rw [contains_iff_mem, mem_map] at hrt
    obtain ⟨route, hmem, hrid⟩ := hrt
    obtain ⟨hin, hcond⟩ := mem_filter.mp hmem
    rw [Bool.and_eq_true, beq_iff_eq, beq_iff_eq] at hcond
    have hkey : route.1 = ⟨scope, a.routeId⟩ := by
      rcases hr1 : route.1 with ⟨rs, ri⟩
      rw [hr1] at hrid hcond
      rw [hrt', ← hrid, ← hcond.1]
    have hget : s.routes.get? ⟨scope, a.routeId⟩ = some route.2 :=
      get?_eq_some_iff.mpr (hkey ▸ hin)
    by_cases hlea : a.state = .routeLeased
    · rw [heq, if_pos]
      · rfl
      · simp only [Bool.and_eq_true, beq_iff_eq, contains_iff_mem, mem_map]
        exact ⟨hescope, ⟨route, hmem, hrid.trans hrt'.symm⟩, hlea⟩
    · rw [heq, if_neg (by simp [hlea])]
      by_contra hfenced
      have hexec : a.state.isExecuting = true := by
        revert hfenced hlea
        cases a.state <;> decide
      exact hidle _ ha hescope hexec route.2 hget hcond.2

/-! ### Grants -/

/-- Once room was made for a job, none of its attempts is open. -/
theorem retireActive_final (h : Exclusive s)
    (hret : s.retireActive scope now choice reservationChoice jobId = .ok s')
    (he : e ∈ s'.attempts.entries) (hsc : e.1.scope = scope) (hjob : e.2.jobId = jobId) :
    e.2.state.isFinal = true := by
  obtain ⟨key, active, hmem, hp, hlea, rfl⟩ | ⟨rfl, hnone⟩ := retireActive_ok hret
  · rw [closeReservation_attempts] at he
    obtain ⟨a, ha, heq⟩ := mem_mapValues.mp he
    by_cases hkey : e.1 = key
    · rw [heq, if_pos hkey]
      rfl
    · -- another open attempt of the job would be the one picked
      rw [if_neg hkey] at heq
      rw [← Bool.not_eq_false]
      intro hopen
      refine hkey (congrArg Prod.fst (h.single _ ha _ hmem (hsc.trans hp.1.symm) ?_ ?_ ?_) :)
      · rw [← heq, hjob, hp.2]
      · rw [← heq]
        exact hopen
      · rw [hlea]
        rfl
  · exact hnone e he hsc hjob

theorem mem_generations : generation ∈ s.generations scope jobId ↔ ∃ e ∈ s.attempts.entries,
      e.1.scope = scope ∧ e.2.jobId = jobId ∧ e.2.generation = generation := by
  simp only [generations, mem_map, mem_filter, Bool.and_eq_true, beq_iff_eq, and_assoc]

theorem lt_nextGeneration (hmem : generation ∈ s.generations scope jobId)
    (hroom : ∀ generation ∈ s.generations scope jobId, generation < u64Max) :
    generation < s.nextGeneration scope jobId := by
  have hle := le_max?_getD_of_mem (k := 0) hmem
  have hlt : (s.generations scope jobId).max?.getD 0 < u64Max := by
    rcases hmax : (s.generations scope jobId).max? with - | m
    · show 0 < u64Max
      decide
    · exact hroom m (List.max?_mem hmax)
  rw [nextGeneration, saturatingAdd]
  omega

/-! An attempt past the lease is not touched while room is made for another. -/

theorem mem_supersedeStale {destinationId : String} (he : e ∈ s.attempts.entries)
    (hst : e.2.state ≠ .routeLeased) :
    e ∈ (s.supersedeStale scope now destinationId).attempts.entries := by
  refine mem_mapValues.mpr ⟨e.2, he, (if_neg ?_).symm⟩
  rw [Bool.and_eq_true, isStale_iff]
  exact fun h => hst h.2.2.1

/-- Making room supersedes the lease it finds, and no other attempt. -/
theorem mem_retireActive (h : s.retireActive scope now choice reservationChoice jobId = .ok s')
    (he : e ∈ s.attempts.entries) : e ∈ s'.attempts.entries ∨ e.2.state = .routeLeased ∧
      (e.1, e.2.advance .superseded now) ∈ s'.attempts.entries := by
  obtain ⟨key, active, hmem, -, hlea, rfl⟩ | ⟨rfl, -⟩ := retireActive_ok h
  · rw [closeReservation_attempts]
    by_cases hkey : e.1 = key
    · have heq := eq_of_mem_of_mem he hmem hkey
      exact .inr ⟨heq ▸ hlea, mem_mapValues.mpr ⟨e.2, he, (if_pos hkey).symm⟩⟩
    · exact .inl (mem_mapValues.mpr ⟨e.2, he, (if_neg hkey).symm⟩)
  · exact .inl he

section Grants

variable {digest : String → String} {token : String} {request : NewDeliveryAttempt}
  {started : StartedDeliveryAttempt} {cleared : MemoryState}

theorem Grants.cleared_final (h : Grants s scope now digest token request started cleared s')
    (hex : Exclusive s) {e : Key × DeliveryAttempt} (he : e ∈ cleared.attempts.entries)
    (hsc : e.1.scope = scope) (hjob : e.2.jobId = request.jobId) : e.2.state.isFinal = true := by
  obtain ⟨choices, hret⟩ := h.retired
  exact retireActive_final (hex.settles (settles_supersedeStale hex.keyed)) hret he hsc hjob

/-- A grant under unused ids keeps the pairing of attempts and reservations. -/
theorem Exclusive.grants (hex : Exclusive s)
    (h : Grants s scope now digest token request started cleared s')
    (hattempt : s.attempts.get? ⟨scope, request.attemptId⟩ = none)
    (hrsv : s.reservations.get? ⟨scope, request.reservationId⟩ = none) : Exclusive s' := by
  have hset := h.settles hex.keyed
  have hclr := hex.settles hset
  have hfresh : ∀ attempt, (⟨scope, request.attemptId⟩, attempt) ∉ cleared.attempts.entries := by
    intro attempt ha
    obtain ⟨a, ha, -⟩ := hset.attempts _ ha
    exact get?_eq_none_iff.mp hattempt a ha
  have hun : ∀ e ∈ cleared.reservations.entries, e.2.state = .active →
      e.1 ≠ ⟨scope, request.reservationId⟩ := by
    intro e he hact hkey
    obtain ⟨r, hr, -⟩ := hset.reservations e he hact
    exact get?_eq_none_iff.mp hrsv r (hkey ▸ hr)
  have hfree : ∀ e ∈ cleared.reservations.entries, e.1.scope = scope → e.2.state = .active →
      e.2.destinationId ≠ request.destinationId := by
    intro e he hsc hact hdest
    have hbusy := h.free
    rw [handoffBusy, anyReservation, any_eq_false] at hbusy
    exact hbusy e he (by simp [hsc, hact, hdest])
  rw [h.tables]
  constructor
  · exact forall_mem_insert (by rw [h.attempt]; rfl) hclr.keyed
  · refine forall_mem_insert (fun _ => ?_) fun e he hact => ?_
    · refine ⟨started.attempt, mem_insert.mpr (.inl ?_), ?_, ?_⟩ <;>
        simp only [h.attempt, h.reservation] <;> rfl
    · obtain ⟨a, ha, hrt, hdest⟩ := hclr.backed e he hact
      refine ⟨a, mem_insert.mpr (.inr ⟨?_, ha⟩), hrt, hdest⟩
      intro hkey
      exact hfresh a (hkey ▸ ha)
  · refine forall_mem_insert (fun _ => ⟨_, mem_insert.mpr (.inl rfl), rfl, ?_, ?_⟩)
      fun e he hfenced => ?_
    · rw [h.reservation]
      rfl
    · rw [h.reservation, h.attempt]
      rfl
    · obtain ⟨r, hr, hsc, hact, hid⟩ := hclr.fenced e he hfenced
      exact ⟨r, mem_insert.mpr (.inr ⟨hun r hr hact, hr⟩), hsc, hact, hid⟩
  · have hnew : started.reservation.destinationId = request.destinationId := by
      rw [h.reservation]
      rfl
    refine forall_mem_insert (forall_mem_insert (fun _ _ _ _ => rfl) ?_)
      fun r hr => forall_mem_insert ?_ (hclr.alone r hr)
    · intro r' hr' hsc _ hact' hdest
      exact absurd (hdest.symm.trans hnew) (hfree r' hr' hsc.symm hact')
    · intro hsc hact _ hdest
      exact absurd (hdest.trans hnew) (hfree r hr hsc hact)
  · have hnew : started.attempt.jobId = request.jobId := by
      rw [h.attempt]
      rfl
    refine forall_mem_insert (forall_mem_insert (fun _ _ _ _ => rfl) ?_)
      fun e he => forall_mem_insert ?_ (hclr.single e he)
    · intro e' he' hsc hjob _ hopen'
      rw [h.cleared_final hex he' hsc.symm (hjob.symm.trans hnew)] at hopen'
      cases hopen'
    · intro hsc hjob hopen _
      rw [h.cleared_final hex he hsc (hjob.trans hnew)] at hopen
      cases hopen

/-- While a node executes an attempt for a destination, no other is granted. -/
theorem Exclusive.not_grants (hex : Exclusive s) {e : Key × DeliveryAttempt}
    (he : e ∈ s.attempts.entries) (hsc : e.1.scope = scope)
    (hdest : e.2.destinationId = request.destinationId) (hexec : e.2.state.isExecuting = true) :
    ¬Grants s scope now digest token request started cleared s' := by
  intro h
  have hkept : e ∈ cleared.attempts.entries := by
    obtain ⟨choices, hret⟩ := h.retired
    have hst : e.2.state ≠ .routeLeased := by
      intro hlea
      rw [hlea] at hexec
      cases hexec
    exact (mem_retireActive hret (mem_supersedeStale he hst)).resolve_right fun h => hst h.1
  obtain ⟨r, hr, hrscope, hact, -, hrdest⟩ := (hex.settles (h.settles hex.keyed)).fence hkept
    (DeliveryAttemptState.isFenced_of_isExecuting hexec)
  have hbusy := h.free
  rw [handoffBusy, anyReservation, any_eq_false] at hbusy
  exact hbusy r hr (by simp [hrscope, hsc, hact, hrdest, hdest])

end Grants

end MemoryState

/-! ### Runs -/

namespace Topology

open MemoryState

variable {t : Topology} {digest : String → String}

/-- The uses of the interface that keep attempts and reservations paired: ids of
attempts and reservations are new, a job has generations left, and a node is
revoked while it executes none of its attempts. -/
def Orderly (t : Topology) : TopologyOp → Prop
  | .beginDeliveryAttempt scope _ _ _ request =>
    t.tables.attempts.get? ⟨scope, request.attemptId⟩ = none ∧
      t.tables.reservations.get? ⟨scope, request.reservationId⟩ = none ∧
      ∀ generation ∈ t.tables.generations scope request.jobId, generation < u64Max
  | .revokeAgentTopology scope _ agentId =>
    ∀ e ∈ t.tables.attempts.entries, e.1.scope = scope → e.2.state.isExecuting = true →
      ∀ route ∈ t.tables.routes.get? ⟨scope, e.2.routeId⟩, route.agentId ≠ agentId
  | _ => True

instance (t : Topology) (op : TopologyOp) : Decidable (t.Orderly op) := by
  cases op <;> unfold Orderly <;> infer_instance

/-- What the attempts of the tables are to those begun. -/
structure Safe (t : Topology) : Prop where
  exclusive : Exclusive t.tables
  recorded : ∀ b ∈ t.begun, ∃ attempt, (b.1, attempt) ∈ t.tables.attempts.entries ∧
    attempt.jobId = b.2.jobId ∧ attempt.generation = b.2.generation
  increasing : t.begun.Pairwise fun b b' => b.1.scope = b'.1.scope → b.2.jobId = b'.2.jobId →
    b.2.generation < b'.2.generation

theorem safe_initial : Safe initial := ⟨exclusive_initial, by simp [initial], .nil⟩

theorem Safe.settles (h : Safe t) {t' : Topology} (hs : Settles t.tables t'.tables)
    (hbegun : t'.begun = t.begun) : Safe t' := by
  refine ⟨h.exclusive.settles hs, ?_, hbegun ▸ h.increasing⟩
  intro b hb
  rw [hbegun] at hb
  obtain ⟨a, ha, hjob, hgen⟩ := h.recorded b hb
  obtain ⟨a', ha'⟩ := hs.present _ ha
  obtain ⟨a'', ha'', hcont⟩ := hs.attempts _ ha'
  have heq : a'' = a := (Prod.mk.inj (eq_of_mem_of_mem ha'' ha rfl)).2
  rw [heq] at hcont
  exact ⟨a', ha', hcont.jobId.trans hjob, hcont.generation.trans hgen⟩

theorem Safe.begin (h : Safe t) {scope : TenantScope} {now : DateTime} {choices : Choices}
    {token : String} {request : NewDeliveryAttempt}
    (hin : t.Orderly (.beginDeliveryAttempt scope now choices token request)) :
    Safe (t.step digest (.beginDeliveryAttempt scope now choices token request)) := by
  obtain ⟨hatt, hres, hroom⟩ := hin
  rcases beginDeliveryAttempt_cases h.exclusive.keyed digest choices token request with
    ⟨error, herr, hset, -⟩ | ⟨started, cleared, hstart, hgr⟩
  · refine h.settles hset ?_
    simp only [step, herr]
  have hclr : Safe ⟨cleared, [], t.begun⟩ := h.settles (hgr.settles h.exclusive.keyed) rfl
  have hbegun : (t.step digest (.beginDeliveryAttempt scope now choices token request)).begun =
      t.begun ++ [(⟨scope, request.attemptId⟩, started.attempt)] := by
    simp only [step, hstart, hgr.attempt]
    rfl
  have hents :
      (t.step digest (.beginDeliveryAttempt scope now choices token request)).tables.attempts =
        cleared.attempts.insert ⟨scope, request.attemptId⟩ started.attempt := by
    simp only [step, hgr.tables]
  refine ⟨h.exclusive.grants hgr hatt hres, ?_, ?_⟩
  · rw [hbegun, hents]
    intro b hb
    rcases mem_append.mp hb with hb | hb
    · obtain ⟨a, ha, hsame⟩ := hclr.recorded b hb
      refine ⟨a, mem_insert.mpr (.inr ⟨?_, ha⟩), hsame⟩
      intro hkey
      obtain ⟨a₀, ha₀, -⟩ := (hgr.settles h.exclusive.keyed).attempts _ ha
      exact get?_eq_none_iff.mp hatt a₀ (hkey ▸ ha₀)
    · obtain rfl := mem_singleton.mp hb
      exact ⟨_, mem_insert.mpr (.inl rfl), rfl, rfl⟩
  · rw [hbegun, pairwise_append]
    refine ⟨h.increasing, pairwise_singleton _ _, ?_⟩
    intro b hb b' hb' hsc hjob
    obtain rfl := mem_singleton.mp hb'
    rw [hgr.attempt] at hjob ⊢
    obtain ⟨a, ha, hajob, hgen⟩ := hclr.recorded b hb
    refine lt_nextGeneration (mem_generations.mpr ⟨_, ha, hsc, hajob.trans hjob, hgen⟩) ?_
    -- making room adds no attempt, so its generations are those of the state before
    intro generation hmem
    obtain ⟨e, he, hes, hej, heg⟩ := mem_generations.mp hmem
    obtain ⟨a₀, ha₀, hcont⟩ := (hgr.settles h.exclusive.keyed).attempts _ he
    exact hroom generation (mem_generations.mpr
      ⟨_, ha₀, hes, hcont.jobId.symm.trans hej, hcont.generation.symm.trans heg⟩)

theorem Safe.step (h : Safe t) {op : TopologyOp} (hin : t.Orderly op) :
    Safe (t.step digest op) := by
  by_cases hop : aboutAttempts op = true
  · rcases step_aboutAttempts digest t hop with ⟨_, _, _, _, _, rfl⟩ | ⟨hbegun, ⟨-, hset⟩ | hdec⟩
    · exact h.begin hin
    · exact h.settles (hset h.exclusive.keyed) hbegun
    · exact h.settles hdec.toSameAttempts.settles hbegun
  cases op with
  | upsertDestination => exact h.settles (.frame rfl rfl) rfl
  | resolveRoute =>
    simp only [Topology.step]
    split
    · exact h.settles (.refl _) rfl
    · exact h
  | storeRoute index =>
    simp only [Topology.step]
    split
    · exact h.settles (.frame rfl rfl) rfl
    · exact h
  | recordIdentityEvidence =>
    exact h.settles sameAttempts_recordIdentityEvidence.settles rfl
  | recordIdentityDecision =>
    exact h.settles sameAttempts_recordIdentityDecision.settles rfl
  | reverseIdentityDecision =>
    exact h.settles sameAttempts_reverseIdentityDecision.settles rfl
  | revokeAgentTopology scope now agentId =>
    exact h.settles (settles_revokeAgentTopology h.exclusive agentId hin) rfl
  | _ => exact absurd rfl hop

theorem safe_run {l : List TopologyOp} (h : Run.Meets (Topology.step digest) Orderly initial l) :
    Safe (run digest l) :=
  h.invariant (fun _ _ hs hin => hs.step hin) safe_initial

/-- **One attempt per physical destination before the spooler has the document**:
in every orderly run a destination has at most one attempt that a node executes,
no other is begun for it meanwhile, a job has at most one attempt that is not
final, and the generations of its attempts increase. -/
theorem one_attempt_per_destination (l : List TopologyOp)
    (h : Run.Meets (Topology.step digest) Orderly initial l) :
    (∀ e ∈ (run digest l).tables.attempts.entries, ∀ e' ∈ (run digest l).tables.attempts.entries,
      e.1.scope = e'.1.scope → e.2.destinationId = e'.2.destinationId →
        e.2.state.isExecuting = true → e'.2.state.isExecuting = true → e = e') ∧
    (∀ e ∈ (run digest l).tables.attempts.entries, e.2.state.isExecuting = true →
      ∀ now choices token (request : NewDeliveryAttempt),
        request.destinationId = e.2.destinationId →
          ∃ error, ((run digest l).tables.beginDeliveryAttempt e.1.scope now digest choices token
            request).1 = .error error) ∧
    (∀ e ∈ (run digest l).tables.attempts.entries, ∀ e' ∈ (run digest l).tables.attempts.entries,
      e.1.scope = e'.1.scope → e.2.jobId = e'.2.jobId →
        e.2.state.isFinal = false → e'.2.state.isFinal = false → e = e') ∧
    (run digest l).begun.Pairwise fun b b' => b.1.scope = b'.1.scope →
      b.2.jobId = b'.2.jobId → b.2.generation < b'.2.generation := by
  have hsafe := safe_run h
  refine ⟨?_, ?_, hsafe.exclusive.single, hsafe.increasing⟩
  · intro e he e' he' hsc hdest hexec hexec'
    exact hsafe.exclusive.one_fenced he he' hsc hdest
      (DeliveryAttemptState.isFenced_of_isExecuting hexec)
      (DeliveryAttemptState.isFenced_of_isExecuting hexec')
  · intro e he hexec now choices token request hdest
    rcases beginDeliveryAttempt_cases hsafe.exclusive.keyed digest choices token request with
      ⟨error, herr, -⟩ | ⟨started, cleared, -, hgr⟩
    · exact ⟨error, herr⟩
    · exact absurd hgr (hsafe.exclusive.not_grants he rfl hdest.symm hexec)

/-! ### Samples -/

namespace Sample

def scope : TenantScope := ⟨"workspace", "live"⟩

def destination (id : String) : StoredPhysicalDestination :=
  ⟨id, "Labels", .verified, "online", none, 0, 0, 0⟩

def route (id destinationId agentId : String) : StoredPrinterRoute where
  id := id
  destinationId := destinationId
  printerId := "printer-" ++ id
  agentId := agentId
  nativeQueueId := id
  localRouteKey := none
  state := "online"
  role := "primary"
  priority := 0
  enabled := true
  capabilityRevision := 1
  profileRevision := 1
  lastSeenAt := none
  createdAt := 0
  updatedAt := 0

/-- A call of `upsert_route` that no other call interrupts. -/
def upsertRoute (id destinationId agentId : String) : List TopologyOp :=
  [.resolveRoute scope ⟨scope, id⟩ (route id destinationId agentId), .storeRoute 0]

def key (id : String) : Key := ⟨scope, id⟩

/-- The attempt `job-attempt` of a job, leased until 100. -/
def begin (now : DateTime) (job destinationId routeId : String) : TopologyOp :=
  .beginDeliveryAttempt scope now ⟨key (job ++ "-attempt"), key (job ++ "-fence")⟩ (job ++ "-token")
    ⟨job ++ "-attempt", job ++ "-fence", job, destinationId, routeId, 100⟩

def advance (now : DateTime) (job : String) (next : DeliveryAttemptState) : TopologyOp :=
  .transitionDeliveryAttempt scope now (key (job ++ "-fence")) (job ++ "-attempt") 1
    (job ++ "-token") next

/-- One printer reached through two nodes. -/
def shared : List TopologyOp :=
  .upsertDestination scope (destination "labels") ::
    (upsertRoute "front" "labels" "front-node" ++ upsertRoute "back" "labels" "back-node")

/-- The second job begins once the first has left the node's hands. -/
def orderly : List TopologyOp :=
  shared ++ [begin 1 "first" "labels" "front", advance 2 "first" .acceptedByNode,
    advance 3 "first" .failed, begin 4 "second" "labels" "back",
    advance 5 "second" .acceptedByNode]

/-- The node of the first job is revoked after it has accepted it. -/
def revoked : List TopologyOp :=
  shared ++ [begin 1 "first" "labels" "front", advance 2 "first" .acceptedByNode,
    .revokeAgentTopology scope 3 "front-node", begin 4 "second" "labels" "back",
    advance 5 "second" .acceptedByNode]

end Sample

theorem one_attempt_per_destination_orderly :
    (∃ e ∈ (run id Sample.orderly).tables.attempts.entries, e.2.state.isExecuting = true) ∧
    (run id Sample.orderly).begun.Pairwise fun b b' => b.1.scope = b'.1.scope →
      b.2.jobId = b'.2.jobId → b.2.generation < b'.2.generation :=
  ⟨by decide +kernel, (one_attempt_per_destination Sample.orderly (by decide +kernel)).2.2.2⟩

/-- Revoking a node ends the reservations of attempts it has accepted, and the
attempts stay as they are: a second node is given the same printer. -/
theorem revoked_node_keeps_its_attempt : ∃ e ∈ (run id Sample.revoked).tables.attempts.entries,
      ∃ e' ∈ (run id Sample.revoked).tables.attempts.entries,
        e.1.scope = e'.1.scope ∧ e.2.destinationId = e'.2.destinationId ∧
          e.2.state.isExecuting = true ∧ e'.2.state.isExecuting = true ∧ e ≠ e' := by
  decide +kernel

end Topology

end Piqae.Server
