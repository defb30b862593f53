/-
Piqae/Route/Exclusion.lean

Mutual exclusion of physical printers.  A physical printer may be reachable
through several OS queues; evidence groups the queues, and a queue works under
the fence of its group.  The document is read as a table of the library
`Piqae.Lib.Exclusion`: the rows are the recorded routes, the group of a route
is the one its recorded evidence puts it in, and the locks are the active
reservations.

Coherence of that table is the invariant that links evidence, coordination
keys and occupied fences.  Regrouping establishes it whatever the keys were
before, grants keep it, and everything else only drops rows or locks.
-/
import Piqae.Lib.Exclusion
import Piqae.Route.Naming

namespace Piqae

open SortedMap

open Exclusion

namespace CoordinatorDocument

variable (enc : Encoders)

/-- A route as a row: named by its id, grouped by its evidence. -/
def routeRow (R : DurableRoute) : Row String String String :=
  ⟨R.routeId, desiredKey enc R, R.coordinationKey, R.coordinationConflict⟩

/-- The recorded routes and the active fences, as a table of locks. -/
def exclusionTable (d : CoordinatorDocument) : Table String String String where
  rows := { row | ∃ e ∈ d.routes.entries, row = routeRow enc e.2 }
  held := { lock | ∃ e ∈ d.reservations.entries, lock = (e.1, e.2.localRouteKey) }

/-- The domain the planner gives a group: none when several are occupied. -/
def groupPlan (d : CoordinatorDocument) (desired : String) : Option String :=
  match d.occupiedByDesired enc desired with
  | [] => some desired
  | [activeKey] => some activeKey
  | _ :: _ :: _ => none

variable {enc} {K : KeySpace} {d d' : CoordinatorDocument} {R : DurableRoute}
  {reservation : DurableReservation}

theorem regroupRoute_routeId (R : DurableRoute) : (d.regroupRoute enc R).routeId = R.routeId := by
  unfold regroupRoute
  dsimp only
  split <;> rfl

/-- Regrouping moves a route between domains, not between groups. -/
theorem desiredKey_regroupRoute (R : DurableRoute) :
    desiredKey enc (d.regroupRoute enc R) = desiredKey enc R := by
  unfold regroupRoute
  dsimp only
  split <;> rfl

theorem regroupRoute_given {k : String} (h : d.groupPlan enc (desiredKey enc R) = some k) :
    (d.regroupRoute enc R).coordinationKey = k ∧
      (d.regroupRoute enc R).coordinationConflict = false := by
  rcases hocc : d.occupiedByDesired enc (desiredKey enc R) with _ | ⟨activeKey, _ | ⟨_, _⟩⟩
  · simp only [groupPlan, hocc] at h
    simp only [regroupRoute, hocc]
    exact ⟨Option.some.inj h, trivial⟩
  · simp only [groupPlan, hocc] at h
    simp only [regroupRoute, hocc]
    exact ⟨Option.some.inj h, trivial⟩
  · simp only [groupPlan, hocc] at h
    cases h

theorem regroupRoute_barred (h : d.groupPlan enc (desiredKey enc R) = none) :
    (d.regroupRoute enc R).coordinationConflict = true := by
  rcases hocc : d.occupiedByDesired enc (desiredKey enc R) with _ | ⟨activeKey, _ | ⟨_, _⟩⟩
  · simp only [groupPlan, hocc] at h
    cases h
  · simp only [groupPlan, hocc] at h
    cases h
  · simp only [regroupRoute, hocc]

section

variable (hK : RouteIdsDistinct enc K)

include hK

/-- The planner counts every fence held for a recorded route as occupied. -/
theorem mem_occupiedByDesired (h : Named enc K d) {e : String × DurableReservation}
    (he : e ∈ d.reservations.entries) {row : String × DurableRoute}
    (hrow : row ∈ d.routes.entries) (hid : row.2.routeId = e.2.localRouteKey) :
    e.1 ∈ d.occupiedByDesired enc (desiredKey enc row.2) := by
  unfold occupiedByDesired
  rw [List.mem_dedup, List.mem_append]
  right
  refine List.mem_map.mpr ⟨e, List.mem_filter.mpr ⟨he, ?_⟩, rfl⟩
  -- the scan finds a route with the fence's id, and ids determine routes
  rcases hfind : d.routes.values.find? (·.routeId == e.2.localRouteKey) with - | found
  · have hno := List.find?_eq_none.mp hfind row.2 (mem_values.mpr ⟨row.1, hrow⟩)
    simp [hid] at hno
  · obtain ⟨n, hn⟩ := mem_values.mp (List.mem_of_find?_eq_some hfind)
    have hfound : found.routeId = e.2.localRouteKey := by simpa using List.find?_some hfind
    have heq := h.row_unique hK hn hrow (hfound.trans hid.symm)
    have hsame : found = row.2 := congrArg Prod.snd heq
    show Option.any _ (d.routes.values.find? (·.routeId == e.2.localRouteKey)) = true
    rw [hfind, hsame]
    exact beq_self_eq_true _

/-- **Regrouping establishes coherence**, whatever the keys were before. -/
theorem coherent_reconcileCoordinationKeys (h : Named enc K d) :
    (exclusionTable enc (d.reconcileCoordinationKeys enc)).Coherent := by
  have hrows : ∀ row ∈ (exclusionTable enc (d.reconcileCoordinationKeys enc)).rows,
      ∃ e ∈ d.routes.entries, row = routeRow enc (d.regroupRoute enc e.2) := by
    rintro row ⟨e, he, rfl⟩
    obtain ⟨R, hR, hval⟩ := mem_mapValues.mp he
    exact ⟨(e.1, R), hR, by rw [hval]⟩
  refine Table.coherent_of_plan (d.groupPlan enc) ?_ ?_ ?_
  · intro row hrow k hk
    obtain ⟨e, -, rfl⟩ := hrows row hrow
    have hk' : d.groupPlan enc (desiredKey enc (d.regroupRoute enc e.2)) = some k := hk
    rw [desiredKey_regroupRoute] at hk'
    exact regroupRoute_given hk'
  · intro row hrow hnone
    obtain ⟨e, -, rfl⟩ := hrows row hrow
    have hnone' : d.groupPlan enc (desiredKey enc (d.regroupRoute enc e.2)) = none := hnone
    rw [desiredKey_regroupRoute] at hnone'
    exact regroupRoute_barred hnone'
  · rintro lock ⟨fence, hfence, rfl⟩ row hrow hm k hk
    obtain ⟨e, he, rfl⟩ := hrows row hrow
    have hk' : d.groupPlan enc (desiredKey enc (d.regroupRoute enc e.2)) = some k := hk
    have hm' : (d.regroupRoute enc e.2).routeId = fence.2.localRouteKey := hm
    rw [desiredKey_regroupRoute] at hk'
    rw [regroupRoute_routeId] at hm'
    have hocc := mem_occupiedByDesired hK h hfence he hm'
    unfold groupPlan at hk'
    split at hk'
    · rename_i hemp
      rw [hemp] at hocc
      cases hocc
    · rename_i hone
      rw [hone, List.mem_singleton] at hocc
      rw [hocc]
      exact (Option.some.inj hk').symm
    · cases hk'

omit hK in
theorem Coherent.pruneAbsentRoutes (h : (exclusionTable enc d).Coherent) :
    (exclusionTable enc d.pruneAbsentRoutes).Coherent := by
  refine h.mono ?_ (fun _ hlock => hlock)
  rintro row ⟨e, he, rfl⟩
  exact ⟨e, (mem_retain.mp he).1, rfl⟩

/-! ### The invariant of documents -/

/-- The document names its routes apart and its fences exclude groups. -/
structure Fenced (enc : Encoders) (K : KeySpace) (d : CoordinatorDocument) : Prop where
  named : Named enc K d
  coherent : (exclusionTable enc d).Coherent

omit hK in
/-- A table with rows of `d` and at most one lock more. -/
theorem coherent_of_grant {key : String}
    (h : (Table.mk (exclusionTable enc d).rows
      (insert (key, reservation.localRouteKey) (exclusionTable enc d).held)).Coherent)
    (hrts : SameRoutes d.routes d'.routes)
    (hress : d'.reservations = d.reservations.insert key reservation) :
    (exclusionTable enc d').Coherent := by
  refine h.mono ?_ ?_
  · rintro row ⟨⟨n, R'⟩, he, rfl⟩
    obtain ⟨R, generation, hR, rfl⟩ := hrts.of_mem n R' he
    exact ⟨(n, R), hR, rfl⟩
  · rintro lock ⟨e, he, rfl⟩
    rw [hress] at he
    rcases mem_insert.mp he with rfl | ⟨-, he⟩
    · exact .inl rfl
    · exact .inr ⟨e, he, rfl⟩

/-- Fencing a recorded route that is not in conflict. -/
theorem Fenced.acquire (h : Fenced enc K d) {e : String × DurableRoute}
    (he : e ∈ d.routes.entries) (hconf : e.2.coordinationConflict = false) :
    (Table.mk (exclusionTable enc d).rows
      (insert (e.2.coordinationKey, e.2.routeId) (exclusionTable enc d).held)).Coherent := by
  refine h.coherent.acquire (r := routeRow enc e.2) ⟨e, he, rfl⟩ hconf ?_
  rintro row ⟨e', he', rfl⟩ hm
  rw [h.named.row_unique hK he' he hm]

theorem Fenced.reserve (h : Fenced enc K d) {nativeId : String}
    {routes : SortedMap String DurableRoute} (hnat : nativeId ∈ K.natives)
    (hconf : ∀ R, d.routes.get? nativeId = some R → R.coordinationConflict = false)
    (hrts : SameRoutes d.routes routes)
    (hloc : reservation.localRouteKey = routeId enc d.installationNamespace nativeId) :
    (exclusionTable enc { d with
      routes := routes
      reservations := d.reservations.insert (d.domainOf enc nativeId) reservation }).Coherent := by
  refine coherent_of_grant (d := d) ?_ hrts rfl
  rw [hloc]
  rcases hR : d.routes.get? nativeId with - | R
  · -- a queue that discovery has not recorded is in no group
    refine h.coherent.acquire_unlisted ?_
    rintro row ⟨e, he, rfl⟩ hm
    have hn := h.named.eq_of_routeId hK he hnat hm
    exact get?_eq_none_iff.mp hR e.2 (hn ▸ he)
  · have hmem := get?_eq_some_iff.mp hR
    have hid : R.routeId = routeId enc d.installationNamespace nativeId :=
      (h.named.rows _ hmem).1
    have hdomain : d.domainOf enc nativeId = R.coordinationKey := by
      simp only [domainOf, hR]
    have hacq := h.acquire hK hmem (hconf R hR)
    rw [hdomain, ← hid]
    exact hacq

theorem Fenced.register (h : Fenced enc K d) {rid : String} {route : DurableRoute}
    (hfind : d.routes.values.find? (·.routeId == rid) = some route)
    (hconf : route.coordinationConflict = false) (hloc : reservation.localRouteKey = rid) :
    (exclusionTable enc { d with
      reservations := d.reservations.insert route.coordinationKey reservation }).Coherent := by
  obtain ⟨n, hn⟩ := mem_values.mp (List.mem_of_find?_eq_some hfind)
  have hid : route.routeId = rid := by simpa using List.find?_some hfind
  refine coherent_of_grant (d := d) ?_ (.refl _) rfl
  rw [hloc, ← hid]
  exact h.acquire hK hn hconf

omit hK in
theorem Fenced.releases (h : Fenced enc K d) (hrel : Releases d d') :
    (exclusionTable enc d').Coherent := by
  refine h.coherent.mono ?_ ?_
  · rintro row ⟨e, he, rfl⟩
    exact ⟨e, hrel.routes ▸ he, rfl⟩
  · rintro lock ⟨e, he, rfl⟩
    exact ⟨e, hrel.reservations e he, rfl⟩

theorem Fenced.attempt (h : Fenced enc K d) {request : Request} (hnames : request.NamesIn K)
    (hatt : d.attempt enc request = .ok d') : Fenced enc K d' := by
  refine ⟨h.named.attempt hnames hatt, ?_⟩
  rcases attempt_routes hatt with ⟨printers, inventoryRevision, observedAt, _, rfl, rfl⟩ |
    ⟨_, _, _, _, _, _, _, r, rfl, hr⟩ | ⟨_, _, _, _, _, _, reg, rfl, hr⟩ | hrel
  · -- whatever the loop did to the keys, the final regrouping repairs them
    exact coherent_reconcileCoordinationKeys hK (h.named.recordDiscovery hnames)
  · rcases (reserveInner_ok hr).2 with ⟨_, -, -, -, -, rfl⟩ |
      ⟨-, -, hconf, _, _, hrts, ⟨⟩⟩
    · exact h.coherent
    · exact h.reserve hK hnames hconf hrts rfl
  · obtain ⟨-, -, route, hfind, ⟨_, -, -, -, rfl⟩ | ⟨-, hconf, -, -, rfl⟩⟩ :=
      registerAuthoritativeInner_ok hr
    · exact h.coherent
    · exact h.register hK hfind hconf rfl
  · exact h.releases hrel

end

theorem Fenced.repair (hK : RouteIdsDistinct enc K) (h : Fenced enc K d) :
    Fenced enc K (d.reconcileCoordinationKeys enc).pruneAbsentRoutes :=
  ⟨h.named.repair, Coherent.pruneAbsentRoutes (coherent_reconcileCoordinationKeys hK h.named)⟩

theorem fenced_fresh {ns : Uuid} (hns : ns ∈ K.namespaces) : Fenced enc K (fresh ns) := by
  refine ⟨named_fresh hns, ?_, ?_⟩
  · rintro r ⟨e, he, -⟩
    exact (SortedMap.mem_empty.mp he).elim
  · rintro lock ⟨e, he, -⟩
    exact (SortedMap.mem_empty.mp he).elim

end CoordinatorDocument

open CoordinatorDocument

/-- **Every document of a run keeps physical groups apart.** -/
theorem fenced_kept {enc : Encoders} {K : KeySpace} (hK : RouteIdsDistinct enc K) :
    Installation.Kept enc (Fenced enc K) (fun _ request => request.NamesIn K) K.namespaces :=
  .of_repair (fun _ hns => fenced_fresh hns) (fun _ h => h.repair hK)
    (fun _ _ _ h hnames hatt => h.attempt hK hnames hatt)

/-! ### Exclusion at every grant -/

/-- `c` grants a reservation `r` on the queue `nativeId`, by a local reservation
or by registering an offer of the control plane, at any time and whatever the
clock says; it is new, as nothing is reserved under its id. -/
def Grants (enc : Encoders) (c : RouteCoordinator) (nativeId : String) (r : RouteReservation)
    (c' : RouteCoordinator) : Prop :=
  ((∃ connectorId jobId now reservationId fencingToken fault,
      c.reserve enc connectorId nativeId jobId now reservationId fencingToken fault =
        (.ok r, c')) ∨
    ∃ connectorId jobId reservation now fault created,
      c.registerAuthoritative enc connectorId nativeId jobId reservation now fault =
        (.ok ⟨r, created⟩, c')) ∧
  ∀ e ∈ c.document.reservations.entries, e.2.reservationId ≠ r.reservationId

/-- A recorded queue is granted a fence only while it is not in conflict and its
domain is free, and all other reservations were there before. -/
theorem Grants.spec {enc : Encoders} {K : KeySpace} (hK : RouteIdsDistinct enc K)
    {c c' : RouteCoordinator} {nativeId : String} {r : RouteReservation}
    (hc : Fenced enc K c.document) (hgrant : Grants enc c nativeId r c') :
    (∀ R, c.document.routes.get? nativeId = some R → R.coordinationConflict = false ∧
      c.document.reservations.get? R.coordinationKey = none) ∧
    ∀ k other, c'.document.reservations.get? k = some other →
      other.reservationId ≠ r.reservationId → c.document.reservations.get? k = some other := by
  have hinsert : ∀ {key k : String} {held other : DurableReservation},
      (c.document.reservations.insert key held).get? k = some other →
        held.reservationId = r.reservationId → other.reservationId ≠ r.reservationId →
          c.document.reservations.get? k = some other := by
    intro key k held other hother hheld hne
    by_cases hkey : k = key
    · subst hkey
      rw [get?_insert_self] at hother
      cases hother
      exact absurd hheld hne
    · rwa [get?_insert_ne hkey] at hother
  obtain ⟨⟨connectorId, jobId, now, reservationId, fencingToken, fault, hres⟩ |
    ⟨connectorId, jobId, reservation, now, fault, created, hreg⟩, hnew⟩ := hgrant
  · obtain ⟨-, d', hinner, rfl⟩ := RouteCoordinator.transact_ok hres
    rcases (reserveInner_ok hinner).2 with ⟨existing, hex, -, -, rfl, -⟩ |
      ⟨hfree, -, hconf, _, _, -, ⟨⟩⟩
    · exact absurd rfl (hnew _ (get?_eq_some_iff.mp hex))
    · refine ⟨fun R hR => ⟨hconf R hR, ?_⟩, fun k other hother => hinsert hother rfl⟩
      simpa only [domainOf, hR] using hfree
  · obtain ⟨-, d', hinner, rfl⟩ := RouteCoordinator.transact_ok hreg
    obtain ⟨-, -, route, hfind, ⟨existing, hex, -, hreg', -⟩ | ⟨hfree, hconf, -, hreg', rfl⟩⟩ :=
      registerAuthoritativeInner_ok hinner
    · obtain ⟨rfl, -⟩ := AuthoritativeRouteRegistration.mk.inj hreg'
      exact absurd rfl (hnew _ (get?_eq_some_iff.mp hex))
    · obtain ⟨rfl, -⟩ := AuthoritativeRouteRegistration.mk.inj hreg'
      refine ⟨fun R hR => ?_, fun k other hother => hinsert hother rfl⟩
      obtain ⟨n, hn⟩ := mem_values.mp (List.mem_of_find?_eq_some hfind)
      have hid : route.routeId = routeId enc c.document.installationNamespace nativeId := by
        simpa using List.find?_some hfind
      -- the route found by id is the queue's own
      have hmem := get?_eq_some_iff.mp hR
      have heq := hc.named.row_unique hK hmem hn ((hc.named.rows _ hmem).1.trans hid.symm)
      have hRroute : R = route := congrArg Prod.snd heq
      rw [hRroute]
      exact ⟨hconf, hfree⟩

/-- **Physical printers are mutually exclusive.** In every state that opening,
restarts and operations reach, whatever writes fail, a new reservation on a
recorded queue is granted only when no active reservation, before the call or
beside the new one, belongs to a recorded queue of the same physical group. -/
theorem grant_excludes_physical_group {enc : Encoders} {K : KeySpace}
    (hK : RouteIdsDistinct enc K) {ops : List Op} (hops : ∀ op ∈ ops, op.NamesIn K)
    {c c' : RouteCoordinator} (hrun : Installation.run enc .blank ops = .running c)
    {nativeId : String} {r : RouteReservation} (hgrant : Grants enc c nativeId r c')
    {R : DurableRoute} (hR : c.document.routes.get? nativeId = some R)
    {k : String} {other : DurableReservation}
    (hactive : c.document.reservations.get? k = some other ∨
      c'.document.reservations.get? k = some other ∧ other.reservationId ≠ r.reservationId)
    {n' : String} {R' : DurableRoute} (hR' : c.document.routes.get? n' = some R')
    (hbelongs : R'.routeId = other.localRouteKey) :
    physicalCoordinationKey enc R'.routeId R'.identityEvidence ≠
      physicalCoordinationKey enc R.routeId R.identityEvidence := by
  have hrec := Installation.recorded_of_run (fenced_kept hK) (meets_namesIn hops .blank)
  have hc : Fenced enc K c.document := hrec.document c hrun
  obtain ⟨hown, hothers⟩ := hgrant.spec hK hc
  obtain ⟨hconf, hfree⟩ := hown R hR
  have hheld : c.document.reservations.get? k = some other :=
    hactive.elim id fun ⟨hafter, hne⟩ => hothers k other hafter hne
  have hrow : routeRow enc R ∈ (exclusionTable enc c.document).rows :=
    ⟨(nativeId, R), get?_eq_some_iff.mp hR, rfl⟩
  have hrow' : routeRow enc R' ∈ (exclusionTable enc c.document).rows :=
    ⟨(n', R'), get?_eq_some_iff.mp hR', rfl⟩
  have hlock : (k, other.localRouteKey) ∈ (exclusionTable enc c.document).held :=
    ⟨(k, other), get?_eq_some_iff.mp hheld, rfl⟩
  refine hc.coherent.group_ne hrow hconf hlock (fun hkey => ?_) hrow' hbelongs
  -- the domain of the queue is free
  cases hkey
  cases hfree.symm.trans hheld

open Sample

/-- While `lab` is reserved, and past the deadline of that reservation, `office`
is granted: it is another printer. -/
theorem grant_excludes_physical_group_office :
    let enc := encoders
    let c := (openedCoordinator.reserve enc "cloud-a" "lab" "job-1" 0 1#128 2#128 noFault).2
    let grant := c.reserve enc "cloud-b" "office" "job-2" 120001 3#128 4#128 noFault
    grant.1 = .ok ((localReservation officeId "cloud-b" "job-2" 120001 3#128 4#128 1).handle
      officeId officeId) ∧
    c.document.reservations.get? labId =
      some (localReservation labId "cloud-a" "job-1" 0 1#128 2#128 1) ∧
    physicalCoordinationKey enc labId [] ≠ physicalCoordinationKey enc officeId [] := by
  intro enc c grant
  have hfacts : grant.1 = .ok ((localReservation officeId "cloud-b" "job-2" 120001 3#128 4#128
        1).handle officeId officeId) ∧
      (∀ e ∈ c.document.reservations.entries, e.2.reservationId ≠ 3#128) ∧
      c.document.reservations.get? labId =
        some (localReservation labId "cloud-a" "job-1" 0 1#128 2#128 1) ∧
      c.document.routes.get? "office" = some (row officeId 0) ∧
      c.document.routes.get? "lab" = some (row labId 1) := by
    decide +kernel
  obtain ⟨hgrant, hnew, hlab, hR, hR'⟩ := hfacts
  refine ⟨hgrant, hlab, ?_⟩
  have hops : ∀ op ∈ opened ++ [.call (.reserve "cloud-a" "lab" "job-1" 0 1#128 2#128 noFault)],
      op.NamesIn keySpace := forall_mem_concat opened_namesIn (.inr rfl)
  have hrun : Installation.run enc .blank
      (opened ++ [.call (.reserve "cloud-a" "lab" "job-1" 0 1#128 2#128 noFault)]) =
        .running c := by
    rw [Installation.run_append, run_opened, Installation.run_call]
    simp only [RouteCoordinator.call, outcomeOnly, c, enc]
  have hgr : Grants enc c "office" _ grant.2 :=
    ⟨.inl ⟨_, _, _, _, _, _, Prod.ext hgrant rfl⟩, hnew⟩
  exact grant_excludes_physical_group routeIdsDistinct hops hrun hgr hR (.inl hlab) hR' rfl

end Piqae
