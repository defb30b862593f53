/-
Piqae/Server/Uncertainty.lean

An uncertain delivery blocks its route until somebody has decided what became of
it.  The repository looks for uncertain deliveries by the destination the attempt
was made for, and a route is begun on with the destination it has now, so the
block holds as long as the two agree.

`Bound` is that agreement, for every attempt that is open or unresolved.  An
identity decision refuses to move a route with an open attempt; a route whose
attempt ended uncertain it moves, and `upsert_route` moves any route.
-/
import Piqae.Server.Fence

namespace Piqae.Server

open SortedMap

/-- A decision of this kind moves routes. -/
def IdentityDecisionKind.regroups : IdentityDecisionKind → Bool
  | merge | split => true
  | _ => false

namespace MemoryState

variable {s s' : MemoryState} {scope : TenantScope} {now : DateTime} {decision : IdentityDecision}
  {e : Key × StoredPrinterRoute} {digest : String → String} {token : String}
  {request : NewDeliveryAttempt} {started : StartedDeliveryAttempt} {cleared : MemoryState}

/-- The attempt is open, or ended in a way nobody has resolved. -/
def isTied (s : MemoryState) (scope : TenantScope) (attempt : DeliveryAttempt) : Bool :=
  !attempt.state.isFinal || s.isUnresolved scope attempt

/-- The attempts on a route that satisfy `p` were made for the destination. -/
def Anchored (s : MemoryState) (p : DeliveryAttempt → Bool) (key : Key) (destinationId : String) :
    Prop :=
  ∀ e ∈ s.attempts.entries, e.1.scope = key.scope → e.2.routeId = key.id → p e.2 = true →
    e.2.destinationId = destinationId

instance (p : DeliveryAttempt → Bool) (key : Key) (destinationId : String) :
    Decidable (s.Anchored p key destinationId) :=
  inferInstanceAs (Decidable (∀ e ∈ s.attempts.entries, _))

structure Bound (s : MemoryState) : Prop where
  keyed : s.Keyed
  routes : ∀ e ∈ s.routes.entries, s.Anchored (s.isTied e.1.scope) e.1 e.2.destinationId

theorem bound_initial : Bound initial := ⟨by simp [Keyed, initial], by simp [initial]⟩

/-- An attempt that is tied was tied before it moved along. -/
theorem isTied_of_continues
    (hres : ∀ id, s.isResolved scope id = true → s'.isResolved scope id = true)
    {attempt next : DeliveryAttempt} (hcont : attempt.Continues next)
    (h : s'.isTied scope next = true) : s.isTied scope attempt = true := by
  simp only [isTied, isUnresolved, Bool.or_eq_true, Bool.not_eq_true', Bool.and_eq_true,
    beq_iff_eq] at h ⊢
  by_cases hfin : attempt.state.isFinal = true
  · have hst := hcont.state.final hfin
    rw [hst, hfin, hcont.id] at h
    obtain hopen | ⟨hst, hun⟩ := h
    · cases hopen
    · refine .inr ⟨hst, ?_⟩
      by_contra hrsv
      rw [Bool.not_eq_false] at hrsv
      rw [hres _ hrsv] at hun
      cases hun
  · exact .inl (by simpa using hfin)

/-- What keeps a route and its attempts together: attempts move along, resolutions
stay, and a route is given no destination but that of its tied attempts. -/
theorem Bound.of_continues (h : Bound s) (hatt : ∀ e ∈ s'.attempts.entries,
      ∃ attempt, (e.1, attempt) ∈ s.attempts.entries ∧ attempt.Continues e.2)
    (hres : ∀ scope id, s.isResolved scope id = true → s'.isResolved scope id = true)
    (hrts : ∀ e ∈ s'.routes.entries, s.Anchored (s.isTied e.1.scope) e.1 e.2.destinationId) :
    Bound s' := by
  constructor
  · intro e he
    obtain ⟨attempt, ha, hcont⟩ := hatt e he
    exact hcont.id.trans (h.keyed _ ha)
  · intro r hr e he hsc hrt htied
    obtain ⟨attempt, ha, hcont⟩ := hatt e he
    rw [hcont.destinationId]
    exact hrts r hr _ ha hsc (hcont.routeId.symm.trans hrt)
      (isTied_of_continues (hres _) hcont htied)

theorem Bound.sameRoutes (h : Bound s) (hs : Settles s s') (hr : SameRoutes s s') : Bound s' := by
  refine h.of_continues hs.attempts ?_ (hr.routes ▸ h.routes)
  intro scope id hrsv
  rwa [isResolved, hr.uncertaintyResolutions]

theorem Bound.sameAttempts (h : Bound s) (hs : SameAttempts s s')
    (hrts : ∀ e ∈ s'.routes.entries, s.Anchored (s.isTied e.1.scope) e.1 e.2.destinationId) :
    Bound s' :=
  h.of_continues hs.settles.attempts hs.resolved hrts

theorem routes_recordIdentityEvidence {evidence : IdentityEvidence} :
    (s.recordIdentityEvidence scope evidence).2.routes = s.routes := by
  unfold recordIdentityEvidence
  split
  · rfl
  · dsimp only
    split_ifs <;> rfl

/-! ### Operations that move routes -/

theorem anchored_of_idle {key : Key} {destinationId : String}
    (hidle : s.routeBusy key.scope key.id = false)
    (h : s.Anchored (s.isUnresolved key.scope) key destinationId) :
    s.Anchored (s.isTied key.scope) key destinationId := by
  intro e he hsc hrt htied
  rcases Bool.or_eq_true_iff.mp htied with hopen | hun
  · -- a route with an open attempt is busy
    rw [routeBusy, Bool.or_eq_false_iff, anyAttempt, List.any_eq_false] at hidle
    exact absurd (by simpa [hsc, hrt] using hopen) (hidle.2 e he)
  · exact h e he hsc hrt hun

/-- What a merge or split does to a route. -/
def Regrouped (scope : TenantScope) (decision : IdentityDecision) (key : Key)
    (route route' : StoredPrinterRoute) : Prop :=
  route'.id = route.id ∧ (route'.destinationId = route.destinationId ∨ key.scope = scope ∧
    key.id ∈ decision.routeIds ∧ route'.destinationId = decision.destinationId)

theorem moveRoutes_eq (s : MemoryState) (scope : TenantScope) (now : DateTime)
    (decision : IdentityDecision) :
    ∃ f, s.moveRoutes scope now decision = s.routes.mapValues f ∧
      ∀ key route, Regrouped scope decision key route (f key route) := by
  have hmoved : ∀ key route, Regrouped scope decision key route
      (if key.scope == scope && decision.routeIds.contains key.id then
        { route with destinationId := decision.destinationId, role := "standby", updatedAt := now }
      else route) := by
    intro key route
    split_ifs with hin
    · rw [Bool.and_eq_true, beq_iff_eq, List.contains_iff_mem] at hin
      exact ⟨rfl, .inr ⟨hin.1, hin.2, rfl⟩⟩
    · exact ⟨rfl, .inl rfl⟩
  unfold moveRoutes
  dsimp only
  split_ifs
  · exact ⟨_, rfl, hmoved⟩
  split
  · exact ⟨_, rfl, hmoved⟩
  · -- the role of the first route is all that changes
    refine ⟨_, mapValues_mapValues, fun key route => ?_⟩
    split <;> exact hmoved key route

theorem mem_restore {snapshot : MemoryDecisionSnapshot}
    (he : e ∈ (s.restore scope snapshot).routes.entries) :
    e ∈ s.routes.entries ∨ ∃ route ∈ snapshot.routes, e = (⟨scope, route.id⟩, route) :=
  mem_foldl_insert he

theorem mem_regroup (he : e ∈ (s.regroup scope now decision).2.routes.entries) :
    ∃ route, (e.1, route) ∈ s.routes.entries ∧ Regrouped scope decision e.1 route e.2 := by
  obtain ⟨f, hf, hmoved⟩ := moveRoutes_eq s scope now decision
  unfold regroup at he
  split_ifs at he
  · exact ⟨e.2, he, rfl, .inl rfl⟩
  · exact ⟨e.2, he, rfl, .inl rfl⟩
  all_goals
    dsimp only at he
    rw [hf] at he
    obtain ⟨route, hrt, heq⟩ := mem_mapValues.mp he
    exact ⟨route, hrt, heq ▸ hmoved e.1 route⟩

theorem mem_applyDecision (he : e ∈ (s.applyDecision scope now decision).2.routes.entries) :
    ∃ route, (e.1, route) ∈ s.routes.entries ∧ (e.2.destinationId = route.destinationId ∨
      decision.kind.regroups = true ∧ e.1.scope = scope ∧ e.1.id ∈ decision.routeIds ∧
        e.2.destinationId = decision.destinationId) := by
  unfold applyDecision at he
  split at he
  case h_1 hkind | h_2 hkind =>
    obtain ⟨route, hrt, -, hdest⟩ := mem_regroup he
    exact ⟨route, hrt, hdest.imp_right fun h => ⟨by rw [hkind]; rfl, h⟩⟩
  · rw [decides_gradeDestination.routes] at he
    exact ⟨e.2, he, .inl rfl⟩
  · rw [decides_gradeDestinations.routes] at he
    exact ⟨e.2, he, .inl rfl⟩
  · exact ⟨e.2, he, .inl rfl⟩

theorem Bound.recordIdentityDecision (h : Bound s)
    (hin : decision.kind.regroups = true → ∀ id ∈ decision.routeIds,
      s.Anchored (s.isUnresolved scope) ⟨scope, id⟩ decision.destinationId) :
    Bound (s.recordIdentityDecision scope now decision).2 := by
  refine h.sameAttempts sameAttempts_recordIdentityDecision ?_
  have happ : decision.routeIds.any (s.routeBusy scope) = false →
      ∀ e ∈ (s.applyDecision scope now decision).2.routes.entries,
        s.Anchored (s.isTied e.1.scope) e.1 e.2.destinationId := by
    intro hidle e he
    obtain ⟨route, hrt, hdest | ⟨hkind, hsc, hid, hdest⟩⟩ := mem_applyDecision he
    · rw [hdest]
      exact h.routes _ hrt
    · obtain ⟨⟨escope, id⟩, route⟩ := e
      obtain rfl : escope = scope := hsc
      rw [hdest]
      refine anchored_of_idle ?_ (hin hkind id hid)
      simpa using List.any_eq_false.mp hidle id hid
  fun_cases MemoryState.recordIdentityDecision s scope now decision
  case case5 hbusy _ _ heq | case6 hbusy _ _ heq =>
    have hmoved := happ (by simpa using hbusy)
    rw [heq] at hmoved
    exact hmoved
  all_goals exact h.routes

theorem Bound.reverseIdentityDecision (h : Bound s) {reversal : IdentityDecision}
    (hin : ∀ original ∈ reversal.reversesDecisionId,
      ∀ snapshot ∈ s.decisionSnapshots.get? ⟨scope, original⟩, ∀ route ∈ snapshot.routes,
        s.Anchored (s.isUnresolved scope) ⟨scope, route.id⟩ route.destinationId) :
    Bound (s.reverseIdentityDecision scope reversal).2 := by
  refine h.sameAttempts sameAttempts_reverseIdentityDecision ?_
  fun_cases MemoryState.reverseIdentityDecision s scope reversal
  case case6 original horig _ _ snapshot hsnap hbusy _ =>
    intro e he
    rcases mem_restore he with he | ⟨route, hrt, rfl⟩
    · exact h.routes e he
    · refine anchored_of_idle ?_ (hin original horig snapshot hsnap route hrt)
      simp only [Bool.not_eq_true, List.any_eq_false] at hbusy
      simpa using hbusy route hrt
  all_goals exact h.routes

theorem Bound.storeRoute (h : Bound s) {stored : StoredPrinterRoute}
    (hin : s.Anchored (s.isTied scope) ⟨scope, stored.id⟩ stored.destinationId) :
    Bound (s.storeRoute scope stored) := by
  exact h.sameAttempts (.frame rfl rfl rfl) (forall_mem_insert hin h.routes)

theorem Bound.revokeAgentTopology (h : Bound s) (agentId : String) :
    Bound (s.revokeAgentTopology scope now agentId) := by
  refine h.of_continues ?_ (fun _ _ hr => hr) ?_
  · refine (settles_supersedeAttempts ?_).attempts
    intro attempt ha
    rw [Bool.and_eq_true, beq_iff_eq] at ha
    exact ha.2
  · intro e he
    obtain ⟨route, hrt, heq⟩ := mem_mapValues.mp he
    have hdest : e.2.destinationId = route.destinationId := by
      rw [heq]
      split_ifs <;> rfl
    rw [hdest]
    exact h.routes _ hrt

/-- A granted attempt is for the destination its route has. -/
theorem Grants.routed (h : Grants s scope now digest token request started cleared s')
    (he : e ∈ s.routes.entries) (hsc : e.1.scope = scope) (hid : e.1.id = request.routeId) :
    e.2.destinationId = request.destinationId := by
  obtain ⟨⟨escope, id⟩, route⟩ := e
  obtain rfl : escope = scope := hsc
  obtain rfl : id = request.routeId := hid
  have hadm := h.admitted
  rw [routeAdmits, get?_eq_some_iff.mpr he] at hadm
  simp only [Bool.and_eq_true, beq_iff_eq] at hadm
  exact hadm.1.1

theorem Bound.begin (h : Bound s) (digest : String → String) (choices : Choices)
    (token : String) (request : NewDeliveryAttempt) :
    Bound (s.beginDeliveryAttempt scope now digest choices token request).2 := by
  rcases beginDeliveryAttempt_cases h.keyed digest choices token request with
    ⟨error, -, hset, hrts⟩ | ⟨started, cleared, -, hgr⟩
  · exact h.sameRoutes hset hrts
  have hclr := h.sameRoutes (hgr.settles h.keyed) hgr.sameRoutes
  rw [hgr.tables]
  constructor
  · exact forall_mem_insert (by rw [hgr.attempt]; rfl) hclr.keyed
  · intro r hr e he hsc hrt htied
    rcases mem_insert.mp he with rfl | ⟨-, he⟩
    · -- the attempt is made for the destination its route has
      rw [hgr.sameRoutes.routes] at hr
      rw [hgr.attempt] at hrt ⊢
      exact (hgr.routed hr hsc.symm hrt.symm).symm
    · exact hclr.routes r hr e he hsc hrt htied

/-- While an attempt on a route is unresolved, no other is granted on it. -/
theorem Bound.not_grants (hb : Bound s) {e : Key × DeliveryAttempt} (he : e ∈ s.attempts.entries)
    (hsc : e.1.scope = scope) (hrt : e.2.routeId = request.routeId)
    (hun : s.isUnresolved scope e.2 = true) :
    ¬Grants s scope now digest token request started cleared s' := by
  intro h
  -- the route is there, and its destination is that of the attempt
  have hdest : e.2.destinationId = request.destinationId := by
    have hadm := h.admitted
    rw [routeAdmits] at hadm
    split at hadm
    · cases hadm
    next route hget =>
    have hmem := get?_eq_some_iff.mp hget
    have htied : s.isTied scope e.2 = true := by rw [isTied, hun, Bool.or_true]
    rw [← h.routed hmem rfl rfl]
    exact hb.routes _ hmem e he hsc hrt htied
  have hset := h.settles hb.keyed
  obtain ⟨a, ha⟩ := hset.present e he
  obtain ⟨a₀, ha₀, hcont⟩ := hset.attempts _ ha
  have heq : a₀ = e.2 := (Prod.mk.inj (eq_of_mem_of_mem ha₀ he rfl)).2
  rw [heq] at hcont
  obtain ⟨hst, hrsv⟩ := Bool.and_eq_true_iff.mp hun
  have hfin := hcont.state.final (by rw [beq_iff_eq.mp hst]; rfl)
  have hcertain := h.certain
  rw [hasUnresolvedDestinationUncertainty, anyAttempt, List.any_eq_false] at hcertain
  refine hcertain _ ha ?_
  rw [isUnresolved, isResolved, h.sameRoutes.uncertaintyResolutions, hfin, hcont.id,
    hcont.destinationId, hdest, hst, ← isResolved, hrsv]
  simp [hsc]

end MemoryState

/-! ### Runs -/

namespace Topology

open MemoryState

variable {t : Topology} {digest : String → String}

/-- No route is given a destination other than that of an unresolved attempt on
it; and `upsert_route`, which does not look at attempts, none other than that of
an open one. -/
def Stationary (t : Topology) : TopologyOp → Prop
  | .storeRoute index => ∀ r ∈ t.resolvedRoutes[index]?,
    t.tables.Anchored (t.tables.isTied r.1) ⟨r.1, r.2.id⟩ r.2.destinationId
  | .recordIdentityDecision scope _ decision => decision.kind.regroups = true →
    ∀ id ∈ decision.routeIds,
      t.tables.Anchored (t.tables.isUnresolved scope) ⟨scope, id⟩ decision.destinationId
  | .reverseIdentityDecision scope reversal => ∀ original ∈ reversal.reversesDecisionId,
    ∀ snapshot ∈ t.tables.decisionSnapshots.get? ⟨scope, original⟩, ∀ route ∈ snapshot.routes,
      t.tables.Anchored (t.tables.isUnresolved scope) ⟨scope, route.id⟩ route.destinationId
  | _ => True

instance (t : Topology) (op : TopologyOp) : Decidable (t.Stationary op) := by
  apply @TopologyOp.casesOn (Decidable <| t.Stationary ·) op <;> intros <;>
    dsimp only [Stationary] <;> infer_instance

theorem bound_step (h : Bound t.tables) {op : TopologyOp} (hin : t.Stationary op) :
    Bound (t.step digest op).tables := by
  -- the operations on tables other than routes and attempts
  have hframe : ∀ {s' : MemoryState}, SameAttempts t.tables s' →
      s'.routes = t.tables.routes → Bound s' :=
    fun hs hrts => h.sameAttempts hs (hrts ▸ h.routes)
  by_cases hop : aboutAttempts op = true
  · rcases step_aboutAttempts digest t hop with ⟨_, _, _, _, _, rfl⟩ | ⟨-, ⟨hdel, hset⟩ | hdec⟩
    · exact h.begin ..
    · exact h.sameRoutes (hset h.keyed) hdel.sameRoutes
    · exact hframe hdec.toSameAttempts hdec.routes
  cases op with
  | upsertDestination => exact hframe (.frame rfl rfl rfl) rfl
  | resolveRoute =>
    simp only [step]
    split <;> exact h
  | storeRoute index =>
    simp only [step]
    split
    · next scope stored hget => exact h.storeRoute (hin _ hget)
    · exact h
  | recordIdentityEvidence =>
    exact hframe sameAttempts_recordIdentityEvidence routes_recordIdentityEvidence
  | recordIdentityDecision => exact h.recordIdentityDecision hin
  | reverseIdentityDecision => exact h.reverseIdentityDecision hin
  | revokeAgentTopology scope now agentId => exact h.revokeAgentTopology agentId
  | _ => exact absurd rfl hop

/-- **An unresolved uncertain delivery blocks its route**: in every run that moves
no route away from such an attempt, no attempt is begun on the route, whichever
destination it is asked for. -/
theorem uncertain_delivery_blocks_route (l : List TopologyOp)
    (h : Run.Meets (step digest) Stationary initial l)
    (e : Key × DeliveryAttempt) (he : e ∈ (run digest l).tables.attempts.entries)
    (hun : (run digest l).tables.isUnresolved e.1.scope e.2 = true)
    (now : DateTime) (choices : Choices) (token : String) (request : NewDeliveryAttempt)
    (hroute : request.routeId = e.2.routeId) :
    ∃ error, ((run digest l).tables.beginDeliveryAttempt e.1.scope now digest choices token
      request).1 = .error error := by
  have hbd : Bound (run digest l).tables :=
    h.invariant (P := fun t => Bound t.tables) (fun _ _ hb hin => bound_step hb hin) bound_initial
  rcases beginDeliveryAttempt_cases hbd.keyed digest choices token request with
    ⟨error, herr, -⟩ | ⟨started, cleared, -, hgr⟩
  · exact ⟨error, herr⟩
  · exact absurd hgr (hbd.not_grants he rfl hroute.symm hun)

namespace Sample

/-- A job whose handoff ended without an answer. -/
def uncertain : List TopologyOp :=
  .upsertDestination scope (destination "labels") ::
    .upsertDestination scope (destination "parcels") :: upsertRoute "front" "labels" "front-node" ++
  [begin 1 "first" "labels" "front", advance 2 "first" .acceptedByNode,
    advance 3 "first" .queuedLocal, advance 4 "first" .handingToSpooler,
    advance 5 "first" .deliveryUncertain]

def split : IdentityDecision :=
  ⟨"decision", .split, "parcels", ["labels"], ["front"], [], none⟩

def moved : List TopologyOp := uncertain ++ [.recordIdentityDecision scope 6 split]

def second (destinationId : String) : NewDeliveryAttempt :=
  ⟨"second-attempt", "second-fence", "second", destinationId, "front", 100⟩

end Sample

open Sample

theorem uncertain_delivery_blocks_route_uncertain :
    ∃ e ∈ (run id uncertain).tables.attempts.entries,
      (run id uncertain).tables.isUnresolved e.1.scope e.2 = true ∧
        ∃ error, ((run id uncertain).tables.beginDeliveryAttempt e.1.scope 6 id
          ⟨key "", key ""⟩ "token" (second "labels")).1 = .error error := by
  obtain ⟨e, he, hun, hrt⟩ : ∃ e ∈ (run id uncertain).tables.attempts.entries,
      (run id uncertain).tables.isUnresolved e.1.scope e.2 = true ∧
        (second "labels").routeId = e.2.routeId := by decide +kernel
  exact ⟨e, he, hun, uncertain_delivery_blocks_route uncertain (by decide +kernel) e he hun
    _ _ _ _ hrt⟩

/-- A split moves the route to another destination, and the uncertain attempt on
it no longer blocks it. -/
theorem split_route_is_begun_again : ∃ e ∈ (run id moved).tables.attempts.entries,
      (run id moved).tables.isUnresolved e.1.scope e.2 = true ∧
        (second "parcels").routeId = e.2.routeId ∧
        ((run id moved).tables.beginDeliveryAttempt e.1.scope 7 id
          ⟨key "", key ""⟩ "token" (second "parcels")).1.isOk = true := by
  decide +kernel

end Topology

end Piqae.Server
