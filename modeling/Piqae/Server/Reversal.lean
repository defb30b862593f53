/-
Piqae/Server/Reversal.lean

Reversing an identity decision in the in-memory repository.

A merge or split keeps the rows of its routes and destinations as they were
(`take_snapshot`), and the reversal writes those rows back whole.  So it brings
back the destination and the role of every route the decision has named, and with
them whatever else the row said then: a route that was disabled or retired in
between is enabled again.  The PostgreSQL repository writes the two columns only.

`Reverses` is what a reversal is to do, `Undisturbed` when it does so.
-/
import Piqae.Server.Uncertainty

namespace Piqae.Server

open SortedMap

/-- The routes differ at most in what a decision sets. -/
def StoredPrinterRoute.SameBesides (route route' : StoredPrinterRoute) : Prop :=
  { route with
    destinationId := route'.destinationId
    role := route'.role
    updatedAt := route'.updatedAt } = route'

def StoredPrinterRoute.isPrimary (route : StoredPrinterRoute) : Bool :=
  route.role == "primary" && route.enabled

/-- The keys of the routes that a tenant's decision names. -/
def IdentityDecision.Names (decision : IdentityDecision) (scope : TenantScope) (key : Key) : Prop :=
  key.scope = scope ∧ key.id ∈ decision.routeIds

instance (decision : IdentityDecision) (scope : TenantScope) (key : Key) :
    Decidable (decision.Names scope key) :=
  inferInstanceAs (Decidable (_ ∧ _))

/-- The destinations that a decision is about. -/
def IdentityDecision.destinationIds (decision : IdentityDecision) : List String :=
  decision.destinationId :: decision.relatedDestinationIds

namespace MemoryState

variable {s s' s'' : MemoryState} {scope : TenantScope} {now : DateTime}
  {routes : Table StoredPrinterRoute}

/-! ### What a reversal is to do -/

/-- No destination of the tenant has two enabled primary routes. -/
def OnePrimary (s : MemoryState) (scope : TenantScope) : Prop :=
  ∀ key key' route route', key.scope = scope → key'.scope = scope →
    s.routes.get? key = some route → s.routes.get? key' = some route' →
    route.isPrimary = true → route'.isPrimary = true →
    route.destinationId = route'.destinationId → key = key'

/-- The decision, taken in the tables `before`, is reversed from `s` to `s'`: each of
its routes has its destination and role back and keeps every other field, no other
route and no destination that the decision is not about changes, and then there is
one primary route to a destination and every piece of evidence is with its route. -/
structure Reverses (scope : TenantScope) (decision : IdentityDecision)
    (before s s' : MemoryState) : Prop where
  routes : ∀ id ∈ decision.routeIds, ∃ former restored,
    before.routes.get? ⟨scope, id⟩ = some former ∧ s'.routes.get? ⟨scope, id⟩ = some restored ∧
    restored.destinationId = former.destinationId ∧ restored.role = former.role ∧
    ∀ current, s.routes.get? ⟨scope, id⟩ = some current → current.SameBesides restored
  otherRoutes : ∀ key, ¬decision.Names scope key → s'.routes.get? key = s.routes.get? key
  otherDestinations : ∀ key, ¬(key.scope = scope ∧ key.id ∈ decision.destinationIds) →
    s'.destinations.get? key = s.destinations.get? key
  onePrimary : s'.OnePrimary scope
  evidence : ∀ e ∈ s'.evidence.entries, e.1.scope = scope →
    ∃ route, s'.routes.get? ⟨scope, e.2.routeId⟩ = some route ∧
      e.2.destinationId = route.destinationId

/-- Nothing that the reversal would undo has happened since the decision: the routes
it has named have kept the fields that it does not set, and no destination gets a
second enabled primary route when the former rows come back. -/
structure Undisturbed (scope : TenantScope) (decision : IdentityDecision)
    (before s : MemoryState) : Prop where
  fields : ∀ id ∈ decision.routeIds, ∀ former current,
    before.routes.get? ⟨scope, id⟩ = some former → s.routes.get? ⟨scope, id⟩ = some current →
      current.SameBesides former
  former : ∀ id ∈ decision.routeIds, ∀ id' ∈ decision.routeIds, ∀ route route',
    before.routes.get? ⟨scope, id⟩ = some route → before.routes.get? ⟨scope, id'⟩ = some route' →
      route.isPrimary = true → route'.isPrimary = true →
      route.destinationId = route'.destinationId → id = id'
  others : ∀ key key' route route', key.scope = scope → key'.scope = scope →
    ¬decision.Names scope key → ¬decision.Names scope key' →
    s.routes.get? key = some route → s.routes.get? key' = some route' →
      route.isPrimary = true → route'.isPrimary = true →
      route.destinationId = route'.destinationId → key = key'
  apart : ∀ id ∈ decision.routeIds, ∀ key, key.scope = scope → ¬decision.Names scope key →
    ∀ route route', before.routes.get? ⟨scope, id⟩ = some route →
      s.routes.get? key = some route' → route.isPrimary = true → route'.isPrimary = true →
      route.destinationId ≠ route'.destinationId

/-! ### Rows under their keys -/

/-- Rows are stored under their identifiers, and evidence is about routes there are. -/
structure Filed (s : MemoryState) : Prop where
  routes : ∀ key route, s.routes.get? key = some route → route.id = key.id
  destinations : ∀ key destination, s.destinations.get? key = some destination →
    destination.id = key.id
  evidence : ∀ e ∈ s.evidence.entries, s.routes.contains ⟨e.1.scope, e.2.routeId⟩ = true

theorem filed_initial : Filed initial where
  routes _ _ h := by simp [initial] at h
  destinations _ _ h := by simp [initial] at h
  evidence _ h := by simp [initial] at h

theorem Leaves.filed (h : Leaves s s') (hs : Filed s) : Filed s' where
  routes key route hget := hs.routes key route (h.routes ▸ hget)
  destinations key destination hget := by
    obtain ⟨destination', hget', hid⟩ := h.destinations key destination hget
    exact hid.trans (hs.destinations key destination' hget')
  evidence e he := by
    rw [h.routes]
    exact hs.evidence e (h.evidence ▸ he)

/-! ### Operations on routes and destinations -/

/-- The same keys, and under each a route with the same identifier. -/
def SameIds (routes routes' : Table StoredPrinterRoute) : Prop :=
  ∀ key, (routes'.get? key).map StoredPrinterRoute.id = (routes.get? key).map StoredPrinterRoute.id

theorem sameIds_mapValues {f : Key → StoredPrinterRoute → StoredPrinterRoute}
    (hf : ∀ key route, (f key route).id = route.id) : SameIds routes (routes.mapValues f) := by
  intro key
  rw [get?_mapValues, Option.map_map]
  exact congrFun (congrArg Option.map (funext fun route => hf key route)) _

theorem sameIds_moveRoutes (decision : IdentityDecision) :
    SameIds s.routes (s.moveRoutes scope now decision) := by
  obtain ⟨f, hf, hmoved⟩ := moveRoutes_eq s scope now decision
  rw [hf]
  exact sameIds_mapValues fun key route => (hmoved key route).1

section

variable (h : Filed s)

include h

/-- Rows may be rewritten in place. -/
theorem Filed.rewritten (hrts : SameIds s.routes s'.routes)
    (hdests : ∀ key destination', s'.destinations.get? key = some destination' →
      ∃ destination, s.destinations.get? key = some destination ∧ destination'.id = destination.id)
    (hevid : ∀ e ∈ s'.evidence.entries, ∃ evidence, (e.1, evidence) ∈ s.evidence.entries ∧
      e.2.routeId = evidence.routeId) : Filed s' where
  routes key route hget := by
    have hid := hrts key
    rw [hget, Option.map_some, eq_comm, Option.map_eq_some_iff] at hid
    obtain ⟨route', hget', hid⟩ := hid
    exact hid.symm.trans (h.routes key route' hget')
  destinations key destination hget := by
    obtain ⟨destination', hget', hid⟩ := hdests key destination hget
    exact hid.trans (h.destinations key destination' hget')
  evidence e he := by
    obtain ⟨evidence, hmem, hrt⟩ := hevid e he
    have hcont := h.evidence (e.1, evidence) hmem
    have hid := congrArg Option.isSome (hrts ⟨e.1.scope, evidence.routeId⟩)
    rw [Option.isSome_map, Option.isSome_map] at hid
    rw [hrt]
    exact hid.trans hcont

theorem Filed.upsertDestination (destination : StoredPhysicalDestination) :
    Filed (s.upsertDestination scope destination) where
  routes := h.routes
  evidence := h.evidence
  destinations := forall_get?_iff.mpr (forall_mem_insert rfl (forall_get?_iff.mp h.destinations))

theorem Filed.storeRoute (stored : StoredPrinterRoute) : Filed (s.storeRoute scope stored) where
  destinations := h.destinations
  routes := forall_get?_iff.mpr (forall_mem_insert rfl (forall_get?_iff.mp h.routes))
  evidence e he := contains_insert_of_contains (h.evidence e he)

theorem Filed.recordIdentityEvidence (evidence : IdentityEvidence) :
    Filed (s.recordIdentityEvidence scope evidence).2 := by
  unfold MemoryState.recordIdentityEvidence
  split
  · exact h
  next route hrt =>
  split
  · exact h
  have hins : Filed { s with evidence := s.evidence.insert ⟨scope, evidence.id⟩ evidence } := by
    exact ⟨h.routes, h.destinations,
      forall_mem_insert (Option.isSome_iff_exists.mpr ⟨route, hrt⟩) h.evidence⟩
  split
  · refine Leaves.filed (.mapDestinations fun key destination => ?_) hins
    split_ifs <;> rfl
  · exact hins

omit h in
theorem mem_mapEvidence {g : Key → IdentityEvidence → IdentityEvidence}
    (hg : ∀ key evidence, (g key evidence).routeId = evidence.routeId) :
    ∀ e ∈ (s.evidence.mapValues g).entries, ∃ evidence, (e.1, evidence) ∈ s.evidence.entries ∧
      e.2.routeId = evidence.routeId := by
  intro e he
  obtain ⟨evidence, hmem, heq⟩ := mem_mapValues.mp he
  exact ⟨evidence, hmem, heq ▸ hg e.1 evidence⟩

theorem Filed.regroup (decision : IdentityDecision) : Filed (s.regroup scope now decision).2 := by
  have hmoved : Filed { s with
      routes := s.moveRoutes scope now decision
      evidence := s.evidence.mapValues fun key evidence =>
        if key.scope == scope && decision.routeIds.contains evidence.routeId then
          { evidence with destinationId := decision.destinationId }
        else evidence } := by
    refine h.rewritten (sameIds_moveRoutes decision)
      (fun _ destination hget => ⟨destination, hget, rfl⟩) (mem_mapEvidence fun key evidence => ?_)
    split_ifs <;> rfl
  unfold MemoryState.regroup
  split_ifs
  · exact h
  · exact h
  · refine Leaves.filed (.mapDestinations fun key destination => ?_) hmoved
    split_ifs <;> rfl
  · exact hmoved

theorem Filed.applyDecision (decision : IdentityDecision) :
    Filed (s.applyDecision scope now decision).2 := by
  unfold MemoryState.applyDecision
  split
  · exact h.regroup decision
  · exact h.regroup decision
  · exact decides_gradeDestination.filed h
  · exact decides_gradeDestinations.filed h
  · exact h

theorem Filed.recordIdentityDecision (decision : IdentityDecision) :
    Filed (s.recordIdentityDecision scope now decision).2 := by
  have happ : Filed (s.applyDecision scope now decision).2 := h.applyDecision decision
  fun_cases MemoryState.recordIdentityDecision s scope now decision
  case case5 hdec | case6 hdec =>
    rw [hdec] at happ
    exact { happ with }
  all_goals exact h

theorem Filed.restore (snapshot : MemoryDecisionSnapshot) : Filed (s.restore scope snapshot) where
  routes := forall_get?_iff.mpr fun e he => by
    rcases mem_restore he with hold | ⟨former, -, rfl⟩
    · exact forall_get?_iff.mp h.routes e hold
    · rfl
  destinations := forall_get?_iff.mpr fun e he => by
    rcases mem_foldl_insert he with hold | ⟨former, -, rfl⟩
    · exact forall_get?_iff.mp h.destinations e hold
    · rfl
  evidence e he := by
    have hkept : ∃ evidence, (e.1, evidence) ∈ s.evidence.entries ∧
        e.2.routeId = evidence.routeId := by
      refine mem_mapEvidence (fun key evidence => ?_) e he
      split_ifs
      · split <;> rfl
      · rfl
    obtain ⟨evidence, hmem, hrt⟩ := hkept
    rw [hrt]
    exact contains_foldl_insert (h.evidence (e.1, evidence) hmem)

theorem Filed.reverseIdentityDecision (reversal : IdentityDecision) :
    Filed (s.reverseIdentityDecision scope reversal).2 := by
  fun_cases MemoryState.reverseIdentityDecision s scope reversal
  case case6 snapshot _ _ _ =>
    have hrest : Filed (s.restore scope snapshot) := h.restore snapshot
    exact { hrest with }
  all_goals exact h

theorem Filed.revokeAgentTopology (agentId : String) :
    Filed (s.revokeAgentTopology scope now agentId) := by
  refine h.rewritten (sameIds_mapValues fun key route => ?_) (fun key destination' hget => ?_)
    (fun e he => ⟨e.2, he, rfl⟩)
  · split_ifs <;> rfl
  · unfold MemoryState.revokeAgentTopology withdrawDestinations at hget
    rw [get?_mapValues, Option.map_eq_some_iff] at hget
    obtain ⟨destination, hget, rfl⟩ := hget
    refine ⟨destination, hget, ?_⟩
    split_ifs <;> rfl

end

/-! ### The snapshot of a decision -/

theorem snapshots_applyDecision (decision : IdentityDecision) :
    (s.applyDecision scope now decision).2.decisionSnapshots = s.decisionSnapshots := by
  unfold applyDecision
  split
  · fun_cases regroup s scope now decision <;> rfl
  · fun_cases regroup s scope now decision <;> rfl
  · exact decides_gradeDestination.snapshots
  · exact decides_gradeDestinations.snapshots
  · rfl

/-- What a decision that is recorded leaves for its reversal. -/
theorem recordIdentityDecision_ok {decision : IdentityDecision}
    (h : (s.recordIdentityDecision scope now decision).1 = .ok ()) :
    (∀ id ∈ decision.routeIds, s.routes.contains ⟨scope, id⟩ = true) ∧
      (s.recordIdentityDecision scope now decision).2.decisionSnapshots.get?
        ⟨scope, decision.id⟩ = some (s.takeSnapshot scope decision) := by
  unfold recordIdentityDecision at h ⊢
  split_ifs at h ⊢ with hkind hmiss
  refine ⟨fun id hid => ?_, ?_⟩
  · by_contra hnot
    exact hmiss (List.any_eq_true.mpr ⟨id, hid, by simpa using hnot⟩)
  · dsimp only at h ⊢
    split at h
    · cases h
    · exact SortedMap.get?_insert_self

/-- Another decision leaves the snapshot. -/
theorem snapshots_recordIdentityDecision {decision : IdentityDecision} {key : Key}
    (hne : key ≠ ⟨scope, decision.id⟩) :
    (s.recordIdentityDecision scope now decision).2.decisionSnapshots.get? key =
      s.decisionSnapshots.get? key := by
  have happ : (s.applyDecision scope now decision).2.decisionSnapshots = s.decisionSnapshots :=
    snapshots_applyDecision decision
  fun_cases recordIdentityDecision s scope now decision
  case case5 hdec =>
    rw [hdec] at happ
    exact congrArg (·.get? key) happ
  case case6 hdec =>
    rw [hdec] at happ
    refine (get?_insert_ne hne).trans ?_
    exact congrArg (·.get? key) happ
  all_goals rfl

theorem snapshots_recordIdentityEvidence (evidence : IdentityEvidence) :
    (s.recordIdentityEvidence scope evidence).2.decisionSnapshots = s.decisionSnapshots := by
  fun_cases recordIdentityEvidence s scope evidence <;> rfl

theorem snapshots_reverseIdentityDecision (reversal : IdentityDecision) :
    (s.reverseIdentityDecision scope reversal).2.decisionSnapshots = s.decisionSnapshots := by
  fun_cases reverseIdentityDecision s scope reversal <;> rfl

/-- A reversal that succeeds writes the snapshot back. -/
theorem reverseIdentityDecision_ok {reversal : IdentityDecision} {original : String}
    {snapshot : MemoryDecisionSnapshot} (horig : reversal.reversesDecisionId = some original)
    (hsnap : s.decisionSnapshots.get? ⟨scope, original⟩ = some snapshot)
    (h : (s.reverseIdentityDecision scope reversal).1 = .ok ()) :
    (s.reverseIdentityDecision scope reversal).2.routes = (s.restore scope snapshot).routes ∧
      (s.reverseIdentityDecision scope reversal).2.destinations =
        (s.restore scope snapshot).destinations ∧
      (s.reverseIdentityDecision scope reversal).2.evidence =
        (s.restore scope snapshot).evidence := by
  unfold reverseIdentityDecision at h ⊢
  rw [horig] at h ⊢
  dsimp only at h ⊢
  split_ifs at h ⊢
  rw [hsnap] at h ⊢
  dsimp only at h ⊢
  split_ifs at h ⊢
  exact ⟨rfl, rfl, rfl⟩

/-! ### The rows that come back -/

section Restored

variable {decision : IdentityDecision} {before : MemoryState} {key : Key}

theorem mem_takeSnapshot_routes (hbef : Filed before) {route : StoredPrinterRoute} :
    route ∈ (before.takeSnapshot scope decision).routes ↔
      route.id ∈ decision.routeIds ∧ before.routes.get? ⟨scope, route.id⟩ = some route := by
  rw [takeSnapshot, List.mem_filterMap]
  constructor
  · rintro ⟨id, hid, hget⟩
    obtain rfl : route.id = id := hbef.routes ⟨scope, id⟩ route hget
    exact ⟨hid, hget⟩
  · rintro ⟨hid, hget⟩
    exact ⟨route.id, hid, hget⟩

/-- A route that the decision has named is as it was before. -/
theorem restore_named (hbef : Filed before) {id : String} (hid : id ∈ decision.routeIds)
    {former : StoredPrinterRoute} (hform : before.routes.get? ⟨scope, id⟩ = some former) :
    (s.restore scope (before.takeSnapshot scope decision)).routes.get? ⟨scope, id⟩ =
      some former := by
  obtain rfl : former.id = id := hbef.routes ⟨scope, id⟩ former hform
  refine get?_foldl_insert (fun route : StoredPrinterRoute => (⟨scope, route.id⟩ : Key))
    ((mem_takeSnapshot_routes hbef).mpr ⟨hid, hform⟩) ?_
  intro route hrt hkey
  have hget := ((mem_takeSnapshot_routes hbef).mp hrt).2
  rw [(Key.mk.inj hkey).2, hform] at hget
  exact (Option.some.inj hget).symm

theorem restore_unnamed (hbef : Filed before) (hkey : ¬decision.Names scope key) :
    (s.restore scope (before.takeSnapshot scope decision)).routes.get? key = s.routes.get? key := by
  refine get?_foldl_insert_of_ne fun route hrt heq => hkey ?_
  rw [← heq]
  exact ⟨rfl, ((mem_takeSnapshot_routes hbef).mp hrt).1⟩

theorem restore_destinations (hbef : Filed before)
    (hkey : ¬(key.scope = scope ∧ key.id ∈ decision.destinationIds)) :
    (s.restore scope (before.takeSnapshot scope decision)).destinations.get? key =
      s.destinations.get? key := by
  refine get?_foldl_insert_of_ne fun destination hdest heq => hkey ?_
  rw [takeSnapshot, List.mem_filterMap] at hdest
  obtain ⟨id, hid, hget⟩ := hdest
  rw [← heq]
  exact ⟨rfl, hbef.destinations ⟨scope, id⟩ destination hget ▸ hid⟩

theorem restore_evidence (hs : Filed s) {snapshot : MemoryDecisionSnapshot}
    {e : Key × IdentityEvidence} (he : e ∈ (s.restore scope snapshot).evidence.entries)
    (hsc : e.1.scope = scope) :
    ∃ route, (s.restore scope snapshot).routes.get? ⟨scope, e.2.routeId⟩ = some route ∧
      e.2.destinationId = route.destinationId := by
  have hfiled : Filed (s.restore scope snapshot) := hs.restore snapshot
  have hthere := hfiled.evidence e he
  rw [hsc] at hthere
  obtain ⟨route, hrt⟩ := Option.isSome_iff_exists.mp hthere
  refine ⟨route, hrt, ?_⟩
  obtain ⟨evidence, -, heq⟩ := mem_mapValues.mp he
  rw [if_pos (by simp [hsc])] at heq
  split at heq
  · next found hfound =>
    rw [heq] at hrt ⊢
    exact congrArg StoredPrinterRoute.destinationId (Option.some.inj (hfound.symm.trans hrt))
  · next hnone =>
    rw [heq] at hrt
    exact absurd (hnone.symm.trans hrt) nofun

/-- **When writing the rows back is a reversal.** -/
theorem reverses_iff_undisturbed (hbef : Filed before) (hs : Filed s)
    (hthere : ∀ id ∈ decision.routeIds, before.routes.contains ⟨scope, id⟩ = true)
    (hrts : s'.routes = (s.restore scope (before.takeSnapshot scope decision)).routes) (hdests :
      s'.destinations = (s.restore scope (before.takeSnapshot scope decision)).destinations)
    (hevid : s'.evidence = (s.restore scope (before.takeSnapshot scope decision)).evidence) :
    Reverses scope decision before s s' ↔ Undisturbed scope decision before s := by
  have hnamed : ∀ {id former}, id ∈ decision.routeIds →
      before.routes.get? ⟨scope, id⟩ = some former → s'.routes.get? ⟨scope, id⟩ = some former := by
    intro id former hid hform
    rw [hrts]
    exact restore_named hbef hid hform
  have hun : ∀ {key}, ¬decision.Names scope key → s'.routes.get? key = s.routes.get? key := by
    intro key hkey
    rw [hrts]
    exact restore_unnamed hbef hkey
  -- A route of the tenant is one of the decision, as before it, or one of the others.
  have hcases : ∀ {key route}, key.scope = scope → s'.routes.get? key = some route →
      (∃ id, key = ⟨scope, id⟩ ∧ id ∈ decision.routeIds ∧
        before.routes.get? ⟨scope, id⟩ = some route) ∨
      (¬decision.Names scope key ∧ s.routes.get? key = some route) := by
    rintro ⟨keyScope, id⟩ route rfl hget
    by_cases hid : id ∈ decision.routeIds
    · obtain ⟨former, hform⟩ := Option.isSome_iff_exists.mp (hthere id hid)
      obtain rfl := Option.some.inj ((hnamed hid hform).symm.trans hget)
      exact .inl ⟨id, rfl, hid, hform⟩
    · have hnot : ¬decision.Names keyScope ⟨keyScope, id⟩ := fun h => hid h.2
      exact .inr ⟨hnot, (hun hnot).symm.trans hget⟩
  constructor
  · intro h
    constructor
    case fields =>
      intro id hid former current hform hcur
      obtain ⟨former', restored, -, hrest, -, -, hsame⟩ := h.routes id hid
      obtain rfl := Option.some.inj ((hnamed hid hform).symm.trans hrest)
      exact hsame current hcur
    case former =>
      intro id hid id' hid' route route' hrt hrt' hprim hprim' heq
      have hkey := h.onePrimary ⟨scope, id⟩ ⟨scope, id'⟩ route route' rfl rfl (hnamed hid hrt)
        (hnamed hid' hrt') hprim hprim' heq
      exact (Key.mk.inj hkey).2
    case others =>
      intro key key' route route' hsc hsc' hkey hkey' hrt hrt'
      exact h.onePrimary key key' route route' hsc hsc' ((hun hkey).trans hrt)
        ((hun hkey').trans hrt')
    case apart =>
      intro id hid key hsc hkey route route' hrt hrt' hprim hprim' heq
      have hsame := h.onePrimary ⟨scope, id⟩ key route route' rfl hsc (hnamed hid hrt)
        ((hun hkey).trans hrt') hprim hprim' heq
      exact hkey (hsame ▸ ⟨rfl, hid⟩)
  · intro h
    constructor
    case routes =>
      intro id hid
      obtain ⟨former, hform⟩ := Option.isSome_iff_exists.mp (hthere id hid)
      exact ⟨former, former, hform, hnamed hid hform, rfl, rfl,
        fun current hcur => h.fields id hid former current hform hcur⟩
    case otherRoutes => exact fun key hkey => hun hkey
    case otherDestinations =>
      intro key hkey
      rw [hdests]
      exact restore_destinations hbef hkey
    case onePrimary =>
      intro key key' route route' hsc hsc' hrt hrt' hprim hprim' heq
      rcases hcases hsc hrt with ⟨id, rfl, hid, hform⟩ | ⟨hkey, hcur⟩ <;>
        rcases hcases hsc' hrt' with ⟨id', rfl, hid', hform'⟩ | ⟨hkey', hcur'⟩
      · rw [h.former id hid id' hid' route route' hform hform' hprim hprim' heq]
      · exact absurd heq (h.apart id hid key' hsc' hkey' route route' hform hcur' hprim hprim')
      · exact absurd heq.symm (h.apart id' hid' key hsc hkey route' route hform' hcur hprim' hprim)
      · exact h.others key key' route route' hsc hsc' hkey hkey' hcur hcur' hprim hprim' heq
    case evidence =>
      intro e he hsc
      rw [hevid] at he
      rw [hrts]
      exact restore_evidence hs he hsc

end Restored

end MemoryState

namespace Topology

open MemoryState

section

variable {digest : String → String} {t : Topology} {op : TopologyOp} {key : Key}

/-! ### Runs -/

theorem leaves_step (hop : aboutAttempts op = true) :
    Leaves t.tables (t.step digest op).tables := by
  rcases step_aboutAttempts digest t hop with ⟨_, _, _, _, _, rfl⟩ | ⟨-, ⟨hdel, -⟩ | hdec⟩
  · exact delivers_beginDeliveryAttempt.toLeaves
  · exact hdel.toLeaves
  · exact hdec.toLeaves

theorem filed_step (h : t.tables.Filed) (op : TopologyOp) : (t.step digest op).tables.Filed := by
  by_cases hop : aboutAttempts op = true
  · exact (leaves_step hop).filed h
  cases op with
  | upsertDestination scope destination => exact h.upsertDestination destination
  | resolveRoute =>
    simp only [Topology.step]
    split <;> exact h
  | storeRoute index =>
    simp only [Topology.step]
    split
    · exact h.storeRoute _
    · exact h
  | recordIdentityEvidence scope evidence => exact h.recordIdentityEvidence evidence
  | recordIdentityDecision scope now decision => exact h.recordIdentityDecision decision
  | reverseIdentityDecision scope reversal => exact h.reverseIdentityDecision reversal
  | revokeAgentTopology scope now agentId => exact h.revokeAgentTopology agentId
  | _ => exact absurd rfl hop

/-- The operation records a decision under the key. -/
def records (key : Key) : TopologyOp → Prop
  | .recordIdentityDecision scope _ decision => key = ⟨scope, decision.id⟩
  | _ => False

/-- Only a decision under the same identifier replaces a snapshot. -/
theorem snapshots_step (hop : ¬records key op) :
    (t.step digest op).tables.decisionSnapshots.get? key = t.tables.decisionSnapshots.get? key := by
  by_cases habout : aboutAttempts op = true
  · exact congrArg (·.get? key) (leaves_step habout).snapshots
  cases op with
  | upsertDestination => rfl
  | resolveRoute =>
    simp only [Topology.step]
    split <;> rfl
  | storeRoute index =>
    simp only [Topology.step]
    split <;> rfl
  | recordIdentityEvidence scope evidence =>
    exact congrArg (·.get? key) (snapshots_recordIdentityEvidence evidence)
  | recordIdentityDecision => exact snapshots_recordIdentityDecision hop
  | reverseIdentityDecision scope reversal =>
    exact congrArg (·.get? key) (snapshots_reverseIdentityDecision reversal)
  | revokeAgentTopology => rfl
  | _ => exact absurd rfl habout

theorem filed_exec (l : List TopologyOp) (h : t.tables.Filed) :
    (Run.exec (step digest) t l).tables.Filed := by
  induction l generalizing t with
  | nil => exact h
  | cons op l ih => exact ih (filed_step h op)

theorem snapshots_exec {l : List TopologyOp} (hl : ∀ op ∈ l, ¬records key op) :
    (Run.exec (step digest) t l).tables.decisionSnapshots.get? key =
      t.tables.decisionSnapshots.get? key := by
  induction l generalizing t with
  | nil => rfl
  | cons op l ih =>
    rw [Run.exec_cons, ih fun op' hop' => hl op' (List.mem_cons_of_mem _ hop')]
    exact snapshots_step (hl op List.mem_cons_self)

/-- **When an identity decision can be reversed without side effects**: the decision
is recorded after any run, any operations follow that do not record a decision
under the same identifier, and it is reversed.  The reversal brings back the
destinations and roles and nothing else just if, since the decision, nothing has
changed the other fields of its routes and no other route has taken the place of a
primary route that comes back. -/
theorem identity_decision_reversed_iff (digest : String → String) (earlier later : List TopologyOp)
    (scope : TenantScope) (now : DateTime) (decision reversal : IdentityDecision)
    (hrecord : ((run digest earlier).tables.recordIdentityDecision scope now decision).1 = .ok ())
    (hlater : ∀ op ∈ later, ¬records ⟨scope, decision.id⟩ op)
    (hreverses : reversal.reversesDecisionId = some decision.id)
    (hreverse : ((run digest (earlier ++ .recordIdentityDecision scope now decision ::
      later)).tables.reverseIdentityDecision scope reversal).1 = .ok ()) :
    Reverses scope decision (run digest earlier).tables
        (run digest (earlier ++ .recordIdentityDecision scope now decision :: later)).tables
        ((run digest (earlier ++ .recordIdentityDecision scope now decision ::
          later)).tables.reverseIdentityDecision scope reversal).2 ↔
      Undisturbed scope decision (run digest earlier).tables
        (run digest (earlier ++ .recordIdentityDecision scope now decision :: later)).tables := by
  obtain ⟨hthere, hsnap⟩ := recordIdentityDecision_ok hrecord
  have hkept : (run digest (earlier ++ .recordIdentityDecision scope now decision ::
      later)).tables.decisionSnapshots.get? ⟨scope, decision.id⟩ =
        some ((run digest earlier).tables.takeSnapshot scope decision) := by
    rw [run, Run.exec_append, Run.exec_cons, snapshots_exec hlater]
    exact hsnap
  obtain ⟨hrts, hdests, hevid⟩ := reverseIdentityDecision_ok hreverses hkept hreverse
  exact reverses_iff_undisturbed (filed_exec _ filed_initial) (filed_exec _ filed_initial) hthere
    hrts hdests hevid

end

/-! ### A node that is revoked before the reversal -/

namespace Sample

/-- Two printers, each with a node. -/
def two : List TopologyOp :=
  [.upsertDestination scope (destination "labels"), .upsertDestination scope (destination "office")]
    ++ upsertRoute "front" "labels" "front-node" ++ upsertRoute "back" "office" "back-node"

/-- The operator takes the two for one printer. -/
def merge : IdentityDecision :=
  ⟨"merge", .merge, "office", ["labels"], ["front"], [], none⟩

def unmerge : IdentityDecision :=
  ⟨"unmerge", .reverse, "office", [], [], [], some "merge"⟩

/-- The merge, and the revocation of a node. -/
def merged (node : String) : List TopologyOp :=
  two ++ [.recordIdentityDecision scope 5 merge, .revokeAgentTopology scope 6 node]

end Sample

open Sample

/-- Between the decision and its reversal the node of the other route is revoked. -/
theorem identity_decision_reversed_after_revocation : Reverses scope merge (run id two).tables
      (run id (merged "back-node")).tables
      ((run id (merged "back-node")).tables.reverseIdentityDecision scope unmerge).2 := by
  refine (identity_decision_reversed_iff id two [.revokeAgentTopology scope 6 "back-node"] scope 5
    merge unmerge (by decide +kernel) (by simp [records]) rfl (by decide +kernel)).mpr ?_
  have hbef : (run id two).tables.routes.get? (key "front") =
      some (route "front" "labels" "front-node") := by decide +kernel
  have hents : (run id (merged "back-node")).tables.routes.entries =
        [(key "back", { route "back" "office" "back-node" with
            role := "disabled", state := "retired", enabled := false, updatedAt := 6 }),
          (key "front", { route "front" "office" "front-node" with
            role := "standby", updatedAt := 5 })] := by decide +kernel
  have hnamed : ∀ id ∈ merge.routeIds, id = "front" := by decide
  have hcases : ∀ {k r}, (run id (merged "back-node")).tables.routes.get? k = some r →
        (k = key "back" ∧ r = { route "back" "office" "back-node" with
          role := "disabled", state := "retired", enabled := false, updatedAt := 6 }) ∨
        (k = key "front" ∧ r = { route "front" "office" "front-node" with
          role := "standby", updatedAt := 5 }) := by
    intro k r hget
    have hmem := get?_eq_some_iff.mp hget
    rw [hents] at hmem
    simpa using hmem
  have hfront : merge.Names scope (key "front") := by decide
  constructor
  case fields =>
    intro id hid former current hform hcur
    obtain rfl := hnamed id hid
    cases hbef.symm.trans hform
    rcases hcases hcur with ⟨hkey, -⟩ | ⟨-, rfl⟩
    · exact absurd hkey (by decide)
    · rfl
  case former =>
    intro id hid id' hid' _ _ _ _ _ _ _
    rw [hnamed id hid, hnamed id' hid']
  case others =>
    intro key key' route route' _ _ hkey hkey' hrt hrt' _ _ _
    rcases hcases hrt with ⟨rfl, -⟩ | ⟨rfl, -⟩
    · rcases hcases hrt' with ⟨rfl, -⟩ | ⟨rfl, -⟩
      · rfl
      · exact absurd hfront hkey'
    · exact absurd hfront hkey
  case apart =>
    intro id hid key _ hkey route route' hrt hrt' _ _
    obtain rfl := hnamed id hid
    cases hbef.symm.trans hrt
    rcases hcases hrt' with ⟨-, rfl⟩ | ⟨rfl, -⟩
    · decide
    · exact absurd hfront hkey

/-- The node of the route is revoked after the merge: its route is disabled and
retired.  The reversal enables it again. -/
theorem reversal_enables_revoked_route :
    let s := (run id (merged "front-node")).tables
    (s.reverseIdentityDecision scope unmerge).1 = .ok () ∧
      ¬Reverses scope merge (run id two).tables s (s.reverseIdentityDecision scope unmerge).2 := by
  intro s
  refine ⟨by decide +kernel, fun h => ?_⟩
  obtain ⟨former, restored, -, hrest, -, -, hsame⟩ := h.routes "front" (by decide)
  have hcur : s.routes.get? (key "front") = some { route "front" "office" "front-node" with
        role := "disabled", state := "retired", enabled := false, updatedAt := 6 } := by
    decide +kernel
  have hback : (s.reverseIdentityDecision scope unmerge).2.routes.get?
      (key "front") = some (route "front" "labels" "front-node") := by decide +kernel
  cases hback.symm.trans hrest
  exact absurd (congrArg StoredPrinterRoute.enabled (hsame _ hcur)) (by decide)

end Topology

end Piqae.Server
