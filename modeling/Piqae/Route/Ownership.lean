/-
Piqae/Route/Ownership.lean

Who holds a route.  A fence is filed under an exclusion domain, and domains
move when evidence changes; yet a route never carries two fences.  The
invariant (`Owned`) says that the route of every fence is still recorded, or
was never recorded and is fenced under its own id; together with the
coherence of `Piqae.Route.Exclusion` it follows that a free domain is granted
to a route only when no fence names the route.
-/
import Piqae.Route.Exclusion

namespace Piqae

open SortedMap

namespace CoordinatorDocument

open Exclusion

variable {enc : Encoders} {K : KeySpace} {d d' : CoordinatorDocument} {rid : String}
  {e : String × DurableReservation} {nativeId : String}

/-! ### Routes that are recorded -/

/-- Some row of the table has this route id. -/
def HasRow (d : CoordinatorDocument) (rid : String) : Prop :=
  ∃ row ∈ d.routes.entries, row.2.routeId = rid

theorem HasRow.of_sameRoutes (h : d.HasRow rid) (hrts : SameRoutes d.routes d'.routes) :
    d'.HasRow rid := by
  obtain ⟨⟨n, R⟩, hR, hid⟩ := h
  obtain ⟨generation, hR'⟩ := hrts.mem n R hR
  exact ⟨_, hR', hid⟩

/-- Pruning keeps the route of every fence. -/
theorem HasRow.pruneAbsentRoutes (he : e ∈ d.reservations.entries)
    (h : d.HasRow e.2.localRouteKey) : d.pruneAbsentRoutes.HasRow e.2.localRouteKey := by
  obtain ⟨row, hrow, hid⟩ := h
  refine ⟨row, mem_retain.mpr ⟨hrow, ?_⟩, hid⟩
  rcases hp : row.2.present with - | -
  · have hret : d.routeRequiresRetention row.2 = true := by
      unfold routeRequiresRetention
      rw [Bool.or_eq_true, List.any_eq_true]
      exact .inl ⟨e.2, mem_values.mpr ⟨e.1, he⟩, by simp [hid]⟩
    rw [Bool.false_or, List.contains_iff_mem]
    refine List.mem_map.mpr ⟨row.2, List.mem_filter.mpr ⟨?_, ?_⟩, rfl⟩
    · exact mem_values.mpr ⟨row.1, hrow⟩
    · simp [hp, hret]
  · rfl

theorem HasRow.mapValues (h : d.HasRow rid) {f : String → DurableRoute → DurableRoute}
    (hf : ∀ n R, (f n R).routeId = R.routeId) :
    HasRow { d with routes := d.routes.mapValues f } rid := by
  obtain ⟨⟨n, R⟩, hR, hid⟩ := h
  exact ⟨(n, f n R), mem_mapValues.mpr ⟨R, hR, rfl⟩, (hf n R).trans hid⟩

/-- Recording a printer replaces the row of its queue by one with the same id. -/
theorem HasRow.insert_observed {printer : DiscoveredPrinter}
    (hrows : RowsSatisfy (OwnId enc K d.installationNamespace) d) (h : d.HasRow rid) :
    HasRow { d with routes := d.routes.insert printer.nativeId (d.observedRoute enc printer) }
      rid := by
  obtain ⟨row, hrow, hid⟩ := h
  by_cases hn : row.1 = printer.nativeId
  · refine ⟨_, mem_insert.mpr (.inl rfl), ?_⟩
    rw [← hid, (hrows row hrow).1, hn]
    rfl
  · exact ⟨row, mem_insert.mpr (.inr ⟨hn, hrow⟩), hid⟩

/-- A discovery loses no route of a fence. -/
theorem HasRow.recordDiscovery (hnamed : Named enc K d) {printers : List DiscoveredPrinter}
    {inventoryRevision : Nat} {observedAt : DateTime} (he : e ∈ d.reservations.entries)
    (h : d.HasRow e.2.localRouteKey) (hprs : ∀ printer ∈ printers, printer.nativeId ∈ K.natives) :
    (d.recordDiscovery enc printers inventoryRevision observedAt).2.HasRow e.2.localRouteKey := by
  refine (recordDiscovery_induction (P := fun d' => e ∈ d'.reservations.entries ∧
    RowsSatisfy (OwnId enc K d'.installationNamespace) d' ∧ d'.HasRow e.2.localRouteKey)
    ⟨he, hnamed.rows, h⟩ ?_ ?_ ?_).2.2
  · exact fun d' h => ⟨h.1, h.2.1.pruneAbsentRoutes, h.2.2.pruneAbsentRoutes h.1⟩
  · intro d' _ _ _ printer hpr h
    have hrow : OwnId enc K d'.installationNamespace printer.nativeId
        (d'.observedRoute enc printer) := ⟨rfl, hprs printer hpr⟩
    exact ⟨h.1, h.2.1.insert hrow, h.2.2.insert_observed h.2.1⟩
  · intro d' removed h
    refine ⟨h.1, .mapValues h.2.1 ?_, .mapValues h.2.2 ?_⟩
    · intro n R hR
      split_ifs <;> exact hR
    · intro n R
      split_ifs <;> rfl

theorem HasRow.reconcileCoordinationKeys (h : d.HasRow rid) :
    (d.reconcileCoordinationKeys enc).HasRow rid :=
  HasRow.mapValues h fun _ R => regroupRoute_routeId R

/-! ### One fence per route -/

/-- Every fence is on a queue of the key space whose route is recorded, or
which is fenced under its own id; and no two fences are on one route. -/
structure Owned (enc : Encoders) (K : KeySpace) (d : CoordinatorDocument) : Prop where
  fenced : Fenced enc K d
  queue : ∀ e ∈ d.reservations.entries, ∃ n ∈ K.natives,
    e.2.localRouteKey = routeId enc d.installationNamespace n
  owner : ∀ e ∈ d.reservations.entries,
    d.HasRow e.2.localRouteKey ∨ e.1 = e.2.localRouteKey
  unique : ∀ e ∈ d.reservations.entries, ∀ e' ∈ d.reservations.entries,
    e.2.localRouteKey = e'.2.localRouteKey → e = e'

/-- A recorded route that is not in conflict and whose domain is free carries
no fence. -/
theorem Owned.unfenced_row (h : Owned enc K d) {row : String × DurableRoute}
    (hrow : row ∈ d.routes.entries) (hconf : row.2.coordinationConflict = false)
    (hfree : d.reservations.get? row.2.coordinationKey = none) :
    ∀ e ∈ d.reservations.entries, e.2.localRouteKey ≠ row.2.routeId := by
  intro e he hid
  have hlock : (e.1, e.2.localRouteKey) ∈ (exclusionTable enc d).held := ⟨e, he, rfl⟩
  rcases h.fenced.coherent.fenced _ hlock (routeRow enc row.2) ⟨row, hrow, rfl⟩ hid.symm
    (routeRow enc row.2) ⟨row, hrow, rfl⟩ rfl with hk | hb
  · have hkey : row.2.coordinationKey = e.1 := hk
    rw [hkey] at hfree
    exact get?_eq_none_iff.mp hfree e.2 he
  · cases hconf.symm.trans hb

/-- A queue that is granted its domain carries no fence. -/
theorem Owned.unfenced_queue (hK : RouteIdsDistinct enc K) (h : Owned enc K d)
    (hnat : nativeId ∈ K.natives)
    (hconf : ∀ R, d.routes.get? nativeId = some R → R.coordinationConflict = false)
    (hfree : d.reservations.get? (d.domainOf enc nativeId) = none) : ∀ e ∈ d.reservations.entries,
      e.2.localRouteKey ≠ routeId enc d.installationNamespace nativeId := by
  rcases hR : d.routes.get? nativeId with - | R
  · intro e he hid
    rcases h.owner e he with ⟨row, hrow, hrid⟩ | hkey
    · have hn := h.fenced.named.eq_of_routeId hK hrow hnat (hrid.trans hid)
      exact get?_eq_none_iff.mp hR row.2 (hn ▸ hrow)
    · have hdomain : d.domainOf enc nativeId = e.1 := by
        rw [hkey, hid]
        simp only [domainOf, hR]
      rw [hdomain] at hfree
      exact get?_eq_none_iff.mp hfree e.2 he
  · have hmem := get?_eq_some_iff.mp hR
    have hdomain : d.domainOf enc nativeId = R.coordinationKey := by simp only [domainOf, hR]
    rw [hdomain] at hfree
    have hrow := h.unfenced_row hmem (hconf R hR) hfree
    rw [← (h.fenced.named.rows _ hmem).1]
    exact hrow

/-- A new fence on a queue that carries none. -/
theorem Owned.insert (h : Owned enc K d) (hfenced : Fenced enc K d') {key : String}
    {reservation : DurableReservation} (hnat : nativeId ∈ K.natives)
    (hloc : reservation.localRouteKey = routeId enc d.installationNamespace nativeId)
    (hns : d'.installationNamespace = d.installationNamespace)
    (hrts : SameRoutes d.routes d'.routes)
    (hress : d'.reservations = d.reservations.insert key reservation)
    (howner : d.HasRow reservation.localRouteKey ∨ key = reservation.localRouteKey)
    (hunfenced : ∀ e ∈ d.reservations.entries,
      e.2.localRouteKey ≠ reservation.localRouteKey) : Owned enc K d' := by
  refine ⟨hfenced, ?_, ?_, ?_⟩
  · rw [hress, hns]
    exact forall_mem_insert ⟨nativeId, hnat, hloc⟩ h.queue
  · rw [hress]
    exact forall_mem_insert (howner.imp_left (·.of_sameRoutes hrts))
      fun e he => (h.owner e he).imp_left (·.of_sameRoutes hrts)
  · rw [hress]
    exact forall_mem_insert
      (forall_mem_insert (fun _ => rfl) fun e' he' hid => absurd hid.symm (hunfenced e' he'))
      fun e he => forall_mem_insert (absurd · (hunfenced e he)) (h.unique e he)

/-- Fewer fences on a table that keeps their routes. -/
theorem Owned.shrink (h : Owned enc K d) (hfenced : Fenced enc K d')
    (hns : d'.installationNamespace = d.installationNamespace)
    (hress : ∀ e ∈ d'.reservations.entries, e ∈ d.reservations.entries)
    (hrows : ∀ e ∈ d'.reservations.entries, d.HasRow e.2.localRouteKey →
      d'.HasRow e.2.localRouteKey) : Owned enc K d' where
  fenced := hfenced
  queue e he := hns ▸ h.queue e (hress e he)
  owner e he := (h.owner e (hress e he)).imp_left (hrows e he)
  unique e he e' he' := h.unique e (hress e he) e' (hress e' he')

theorem Owned.attempt (hK : RouteIdsDistinct enc K) (h : Owned enc K d) {request : Request}
    (hnames : request.NamesIn K) (hatt : d.attempt enc request = .ok d') : Owned enc K d' := by
  have hfenced := h.fenced.attempt hK hnames hatt
  rcases attempt_routes hatt with ⟨printers, inventoryRevision, observedAt, _, rfl, rfl⟩ |
    ⟨_, nativeId, _, _, _, _, _, r, rfl, hr⟩ | ⟨_, nativeId, _, _, _, _, reg, rfl, hr⟩ | hrel
  · have hres : (d.reconcile enc printers inventoryRevision observedAt).2.reservations =
        d.reservations := by rw [topologyOnly_reconcile]
    refine h.shrink hfenced (by rw [topologyOnly_reconcile]) (fun e he => hres ▸ he) ?_
    intro e he hrow
    rw [hres] at he
    exact (hrow.recordDiscovery h.fenced.named he hnames).reconcileCoordinationKeys
  · rcases (reserveInner_ok hr).2 with ⟨_, -, -, -, -, rfl⟩ | ⟨hfree, -, hconf, _, _, hrts, ⟨⟩⟩
    · exact h
    · refine h.insert hfenced hnames rfl rfl hrts rfl ?_ (h.unfenced_queue hK hnames hconf hfree)
      rcases hR : d.routes.get? nativeId with - | R
      · right
        simp only [domainOf, hR]
        rfl
      · have hmem := get?_eq_some_iff.mp hR
        exact .inl ⟨_, hmem, (h.fenced.named.rows _ hmem).1⟩
  · obtain ⟨-, -, route, hfind, ⟨_, -, -, -, rfl⟩ | ⟨hfree, hconf, -, -, rfl⟩⟩ :=
      registerAuthoritativeInner_ok hr
    · exact h
    · obtain ⟨n, hn⟩ := mem_values.mp (List.mem_of_find?_eq_some hfind)
      have hid : route.routeId = routeId enc d.installationNamespace nativeId := by
        simpa using List.find?_some hfind
      refine h.insert hfenced hnames rfl rfl (.refl _) rfl (.inl ⟨_, hn, hid⟩) ?_
      have hun := h.unfenced_row hn hconf hfree
      rw [hid] at hun
      exact hun
  · refine h.shrink hfenced hrel.installation hrel.reservations ?_
    rintro e - ⟨row, hrow, hid⟩
    exact ⟨row, hrel.routes ▸ hrow, hid⟩

theorem Owned.repair (hK : RouteIdsDistinct enc K) (h : Owned enc K d) :
    Owned enc K (d.reconcileCoordinationKeys enc).pruneAbsentRoutes := by
  refine h.shrink (h.fenced.repair hK) rfl
    (fun e he => he) ?_
  intro e he hrow
  exact .pruneAbsentRoutes (d := d.reconcileCoordinationKeys enc) he hrow.reconcileCoordinationKeys

theorem owned_fresh {ns : Uuid} (hns : ns ∈ K.namespaces) : Owned enc K (fresh ns) where
  fenced := fenced_fresh hns
  queue _ he := (SortedMap.mem_empty.mp he).elim
  owner _ he := (SortedMap.mem_empty.mp he).elim
  unique _ he := (SortedMap.mem_empty.mp he).elim

/-- No two reservations are on one route. -/
def Exclusive (d : CoordinatorDocument) : Prop :=
  d.reservations.values.Pairwise (·.localRouteKey ≠ ·.localRouteKey)

/-- **A route carries one reservation**: in every document of every run, in memory and
on disk, wherever evidence moves the domains and whatever writes fail. -/
theorem one_reservation_per_route (hK : RouteIdsDistinct enc K)
    {ops : List Op} (hops : ∀ op ∈ ops, op.NamesIn K) :
    Installation.Recorded Exclusive (Installation.run enc .blank ops) := by
  have hrec := Installation.recorded_of_run (P := Owned enc K) (.of_repair (fun _ => owned_fresh)
    (fun _ h => h.repair hK) fun _ _ _ h => h.attempt hK) (meets_namesIn hops .blank)
  have hone : ∀ d, Owned enc K d → Exclusive d := by
    intro d h
    refine List.pairwise_map.mpr (d.reservations.sorted.imp_of_mem fun he he' hlt heq => ?_)
    exact hlt.ne (congrArg Prod.fst (h.unique _ he _ he' heq))
  exact ⟨fun d hd => hone d (hrec.journal d hd), fun c hc => hone _ (hrec.document c hc)⟩

end CoordinatorDocument

namespace Sample

/-- Discover both queues with this evidence. -/
def discovered (evidence : List PhysicalIdentityEvidence) : Op :=
  .call (.reconcile [⟨"office", none, evidence⟩, ⟨"lab", none, evidence⟩] 2 0 .written)

/-- While `office` is reserved, the two queues are found to be one printer. -/
def merged : List Op :=
  opened ++ [.call (.reserve "cloud-a" "office" "job-1" 0 1#128 2#128 noFault),
    discovered [⟨.deviceSerial, String.ofList (List.replicate 64 '0'), .strong⟩]]

/-- The job is handed off, the queues are two printers again, and both are reserved. -/
def parted : List Op :=
  [.call (.finish "cloud-a" "job-1" ((CoordinatorDocument.localReservation officeId "cloud-a"
      "job-1" 0 1#128 2#128 1).handle officeId officeId) .accepted none 1 noFault),
    discovered [], .call (.reserve "cloud-a" "lab" "job-2" 0 3#128 4#128 noFault),
    .call (.reserve "cloud-b" "office" "job-3" 0 5#128 6#128 noFault)]

end Sample

namespace CoordinatorDocument

open Sample

/-- The domain of `lab` moves to that of `office` and back before both are reserved. -/
theorem one_reservation_per_route_lab :
    ((Installation.run encoders .blank merged).journal.bind fun d =>
      (d.routes.get? "lab").map (·.coordinationKey)) = some officeId ∧
    ((Installation.run encoders .blank (merged ++ parted)).journal.map fun d =>
      d.reservations.values.map (·.localRouteKey)) = some [labId, officeId] ∧
    Installation.Recorded Exclusive (Installation.run encoders .blank (merged ++ parted)) := by
  refine ⟨by decide +kernel, by decide +kernel, one_reservation_per_route routeIdsDistinct ?_⟩
  refine List.forall_mem_append.mpr ⟨List.forall_mem_append.mpr ⟨opened_namesIn, ?_⟩, ?_⟩ <;>
    simp [parted, discovered, Op.NamesIn, Request.NamesIn, keySpace]

end CoordinatorDocument

end Piqae
