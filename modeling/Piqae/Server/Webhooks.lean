/-
Piqae/Server/Webhooks.lean

Deliveries of webhooks (`storage-postgres`, `webhook_worker.rs`).

Every statement is one step.  A worker claims deliveries for a limited time,
sends each of them, and records what came of it; it may be arbitrarily slow, or
never record anything.  The statement that records looks only at the id of the
delivery, and not at the claim: when the claim is over, another worker may have
settled the delivery already.  `Timely` says that this does not happen.

The id of a delivery is a digest of its endpoint and event, and stands for the
two here.  `now()` is that of the transaction, which may have begun some time ago.
Times are in milliseconds.
-/
import Piqae.Base
import Piqae.Lib.Run

namespace Piqae.Server.Webhooks

open List

structure Endpoint where
  id : Nat
  /-- Workspace and environment. -/
  scope : String
  url : String
  subscribedEvents : List String
  enabled : Bool
  createdAt : Int

structure Event where
  id : Nat
  scope : String
  eventType : String
  occurredAt : Int

structure DeliveryId where
  endpoint : Nat
  event : Nat
deriving DecidableEq, Repr

structure Delivery where
  id : DeliveryId
  destinationUrl : String
  attempt : Nat
  nextAttemptAt : Int
  responseStatus : Option Nat
  deliveredAt : Option Int
  deadLetteredAt : Option Int
  claimedUntil : Option Int
  createdAt : Int
deriving DecidableEq, Repr

/-- A delivery as it was claimed, with the end of the claim and whether its worker has recorded
an outcome. -/
structure WebhookDeliveryWork where
  id : DeliveryId
  url : String
  attempt : Nat
  claimedUntil : Int
  recorded : Bool

structure Store where
  endpoints : List Endpoint
  events : List Event
  deliveries : List Delivery
  /-- All work that was ever claimed. -/
  works : List WebhookDeliveryWork
  now : Int
  /-- The ids that were given out. -/
  endpointIds : Nat
  eventIds : Nat

def Store.empty (now : Int) : Store := ⟨[], [], [], [], now, 0, 0⟩

/-! ### The statements -/

def webhookMaxClaimBatch : Int := 100

def webhookClaimTtl : Int := 300 * 1000

/-- The event is subscribed to by its name or by a pattern such as `job.*`. -/
def subscribed (patterns : List String) (eventType : String) : Bool :=
  patterns.contains eventType || patterns.any fun pattern =>
    ".*".toList.isSuffixOf pattern.toList && pattern.toList.dropLast.isPrefixOf eventType.toList

namespace Store

variable (s : Store)

def createWebhook (scope url : String) (events : List String) : Store :=
  { s with
    endpoints := s.endpoints ++ [⟨s.endpointIds, scope, url, events, true, s.now⟩]
    endpointIds := s.endpointIds + 1 }

/-- The deliveries of an endpoint are deleted with it. -/
def deleteWebhook (id : Nat) : Store :=
  { s with
    endpoints := s.endpoints.filter (·.id ≠ id)
    deliveries := s.deliveries.filter (·.id.endpoint ≠ id) }

def enqueueWebhookEvent (scope eventType : String) : Store :=
  { s with
    events := s.events ++ [⟨s.eventIds, scope, eventType, s.now⟩]
    eventIds := s.eventIds + 1 }

def missing (event : Event) (endpoint : Endpoint) : Bool :=
  endpoint.scope = event.scope && endpoint.enabled && endpoint.createdAt ≤ event.occurredAt &&
    subscribed endpoint.subscribedEvents event.eventType &&
    !s.deliveries.any (·.id = ⟨endpoint.id, event.id⟩)

def missingDeliveries (limit : Int) : List (Event × Endpoint) :=
  (((s.events.product s.endpoints).filter fun (event, endpoint) =>
      s.missing event endpoint).mergeSort
    fun a b => a.1.occurredAt < b.1.occurredAt ∨ a.1.occurredAt = b.1.occurredAt ∧
      (a.1.id < b.1.id ∨ a.1.id = b.1.id ∧ a.2.id ≤ b.2.id)).take
    (max 1 (min limit webhookMaxClaimBatch)).toNat

/-- The first statement of `claim_webhook_deliveries`. -/
def insertMissing (limit now : Int) : Store :=
  { s with deliveries := s.deliveries ++ (s.missingDeliveries limit).map fun (event, endpoint) =>
      ⟨⟨endpoint.id, event.id⟩, endpoint.url, 0, now, none, none, none, none, now⟩ }

def claimable (now : Int) (row : Delivery) : Bool :=
  row.deliveredAt.isNone && row.deadLetteredAt.isNone && row.nextAttemptAt ≤ now &&
    row.claimedUntil.all (· < now)

def candidates (limit now : Int) : List Delivery :=
  ((s.deliveries.filter (claimable now)).mergeSort fun a b =>
    a.nextAttemptAt < b.nextAttemptAt ∨ a.nextAttemptAt = b.nextAttemptAt ∧
      a.createdAt ≤ b.createdAt).take (max 1 (min limit webhookMaxClaimBatch)).toNat

/-- `UPDATE webhook_deliveries … WHERE …`. -/
def updateDeliveries (where_ : Delivery → Bool) (f : Delivery → Delivery) : Store :=
  { s with deliveries := s.deliveries.map fun row => if where_ row then f row else row }

/-- The second statement of `claim_webhook_deliveries`. -/
def claim (limit now : Int) : Store :=
  { s.updateDeliveries (fun row => (s.candidates limit now).any (·.id = row.id)) fun row =>
      { row with claimedUntil := some (now + webhookClaimTtl) } with
    works := s.works ++ (s.candidates limit now).map fun row =>
      ⟨row.id, row.destinationUrl, row.attempt, now + webhookClaimTtl, false⟩ }

def recordWebhookAttempt (id : DeliveryId) (status : Option Nat) (nextAttemptAt : Option Int)
    (delivered : Bool) : Store :=
  let deadLetter : Bool := !delivered && nextAttemptAt.isNone
  s.updateDeliveries (·.id = id) fun row =>
    { row with
      attempt := row.attempt + 1
      responseStatus := status
      nextAttemptAt := nextAttemptAt.getD row.nextAttemptAt
      deliveredAt := if delivered then some s.now else row.deliveredAt
      deadLetteredAt := if deadLetter then some s.now else row.deadLetteredAt
      claimedUntil := none }

end Store

/-! ### The worker -/

def retryDelays : List Nat := [0, 5, 30, 120, 600, 3600, 21600, 86400]

def retryDelay (attempt : Nat) : Option Nat := retryDelays[attempt]?.map (· * 1000)

/-- A delay that is changed by up to a tenth. -/
def jittered (milliseconds offset : Nat) : Nat :=
  if milliseconds = 0 then milliseconds
  else milliseconds - max (milliseconds / 10) 1 + min offset (max (milliseconds / 10) 1 * 2)

/-- What came of sending a delivery: the status of the response, if there is one. -/
def processDelivery (s : Store) (work : WebhookDeliveryWork) (response : Option Nat) (clock : Int)
    (offset : Nat) : Store :=
  let delivered := response.any fun status => 200 ≤ status ∧ status < 300
  s.recordWebhookAttempt work.id response
    (if delivered then none
      else (retryDelay (work.attempt + 1)).map fun delay => clock + jittered delay offset)
    delivered

inductive Op
  | createWebhook (scope url : String) (events : List String)
  | deleteWebhook (id : Nat)
  | enqueueWebhookEvent (scope eventType : String)
  /-- The statements of a transaction that began `age` ago. -/
  | insertMissing (limit : Int) (age : Nat)
  | claim (limit : Int) (age : Nat)
  /-- A worker, whose clock may differ, records the outcome of its work. -/
  | process (work : Nat) (response : Option Nat) (clock : Int) (offset : Nat)
  | wait (milliseconds : Nat)

variable (s : Store)

def step : Op → Store
  | .createWebhook scope url events => s.createWebhook scope url events
  | .deleteWebhook id => s.deleteWebhook id
  | .enqueueWebhookEvent scope eventType => s.enqueueWebhookEvent scope eventType
  | .insertMissing limit age => s.insertMissing limit (s.now - age)
  | .claim limit age => s.claim limit (s.now - age)
  | .process k response clock offset =>
    match s.works[k]? with
    | none => s
    | some work =>
      if work.recorded then s
      else { processDelivery s work response clock offset with
        works := s.works.set k { work with recorded := true } }
  | .wait milliseconds => { s with now := s.now + milliseconds }

/-- An outcome is recorded before the claim is over. -/
def Timely : Op → Prop
  | .process k _ _ _ => ∀ work ∈ s.works[k]?, s.now ≤ work.claimedUntil
  | _ => True

instance (op : Op) : Decidable (Timely s op) := by
  cases op <;> unfold Timely <;> infer_instance

/-! ### One claim at a time -/

def Delivery.Unsettled (row : Delivery) : Prop := row.deliveredAt = none ∧ row.deadLetteredAt = none

/-- A worker has yet to record an outcome, and its claim is not over. -/
def WebhookDeliveryWork.Current (work : WebhookDeliveryWork) (now : Int) : Prop :=
  work.recorded = false ∧ now ≤ work.claimedUntil

/-- An id that has had a row: it has one as long as its endpoint exists. -/
def Anchored (id : DeliveryId) : Prop :=
  id.endpoint < s.endpointIds ∧
    ∀ endpoint ∈ s.endpoints, endpoint.id = id.endpoint → ∃ row ∈ s.deliveries, row.id = id

structure Exclusive : Prop where
  endpoints : (s.endpoints.map (·.id)).Nodup
  events : (s.events.map (·.id)).Nodup
  endpointIds : ∀ endpoint ∈ s.endpoints, endpoint.id < s.endpointIds
  eventIds : ∀ event ∈ s.events, event.id < s.eventIds
  rows : ∀ row ∈ s.deliveries, row.id.endpoint < s.endpointIds
  unique : (s.deliveries.map (·.id)).Nodup
  outcome : ∀ row ∈ s.deliveries, row.deliveredAt = none ∨ row.deadLetteredAt = none
  works : ∀ work ∈ s.works, Anchored s work.id
  /-- The row of a claim that is not over carries it. -/
  current : ∀ work ∈ s.works, work.Current s.now → ∀ row ∈ s.deliveries, row.id = work.id →
    row.claimedUntil = some work.claimedUntil ∧ row.Unsettled
  apart : ∀ i j : Nat, ∀ a ∈ s.works[i]?, ∀ b ∈ s.works[j]?, a.Current s.now → b.Current s.now →
    a.id = b.id → i = j

variable {s} {limit : Int} {row : Delivery} {now : Int} {op : Op}

section Update

variable {p : Delivery → Bool} {f : Delivery → Delivery}

theorem mem_updateDeliveries {row : Delivery} (h : row ∈ (s.updateDeliveries p f).deliveries) :
    ∃ old ∈ s.deliveries, (row = old ∧ p old = false) ∨ (row = f old ∧ p old = true) := by
  obtain ⟨old, hold, rfl⟩ := mem_map.mp h
  refine ⟨old, hold, ?_⟩
  cases hp : p old
  · exact .inl ⟨rfl, rfl⟩
  · exact .inr ⟨rfl, rfl⟩

/-- Rows are changed that keep their ids. -/
theorem forall_updateDeliveries {P : Delivery → Prop} (h : ∀ row ∈ s.deliveries, P row)
    (hf : ∀ row ∈ s.deliveries, p row = true → P (f row)) :
    ∀ row ∈ (s.updateDeliveries p f).deliveries, P row := by
  intro row hrow
  obtain ⟨old, hold, ⟨rfl, -⟩ | ⟨rfl, hp⟩⟩ := mem_updateDeliveries hrow
  · exact h row hold
  · exact hf old hold hp

theorem updateDeliveries_ids (hf : ∀ row, (f row).id = row.id) :
    (s.updateDeliveries p f).deliveries.map (·.id) = s.deliveries.map (·.id) := by
  show (s.deliveries.map _).map _ = _
  rw [map_map]
  refine map_congr_left fun row _ => ?_
  show (if p row then f row else row).id = row.id
  split_ifs
  · exact hf row
  · rfl

theorem exists_updateDeliveries {id : DeliveryId} (hf : ∀ row, (f row).id = row.id)
    (h : ∃ row ∈ s.deliveries, row.id = id) :
    ∃ row ∈ (s.updateDeliveries p f).deliveries, row.id = id := by
  have hid : id ∈ (s.updateDeliveries p f).deliveries.map (·.id) := by
    rw [updateDeliveries_ids hf]
    exact mem_map.mpr h
  exact mem_map.mp hid

end Update

theorem mem_candidates (h : row ∈ s.candidates limit now) :
    row ∈ s.deliveries ∧ Store.claimable now row = true ∧ row.Unsettled := by
  obtain ⟨hrow, hcl⟩ := mem_filter.mp (mem_mergeSort.mp (mem_of_mem_take h))
  have hopen := hcl
  simp only [Store.claimable, Bool.and_eq_true, Option.isNone_iff_eq_none] at hopen
  exact ⟨hrow, hcl, hopen.1.1⟩

theorem nodup_candidates (h : (s.deliveries.map (·.id)).Nodup) :
    ((s.candidates limit now).map (·.id)).Nodup := by
  refine ((take_sublist _ _).map _).nodup ?_
  refine ((mergeSort_perm _ _).map _).nodup_iff.mpr ?_
  exact (filter_sublist.map _).nodup h

theorem mem_missingDeliveries {pair : Event × Endpoint} (h : pair ∈ s.missingDeliveries limit) :
    pair.1 ∈ s.events ∧ pair.2 ∈ s.endpoints ∧
      ∀ row ∈ s.deliveries, row.id ≠ ⟨pair.2.id, pair.1.id⟩ := by
  obtain ⟨hpair, hmiss⟩ :=
    mem_filter.mp (mem_mergeSort.mp (mem_of_mem_take h))
  obtain ⟨hev, hep⟩ := mem_product.mp hpair
  refine ⟨hev, hep, fun row hrow hid => ?_⟩
  simp only [Store.missing, Bool.and_eq_true, Bool.not_eq_true', any_eq_false,
    decide_eq_true_eq] at hmiss
  exact hmiss.2 row hrow hid

theorem nodup_missingDeliveries (h : Exclusive s) :
    ((s.missingDeliveries limit).map fun pair => (⟨pair.2.id, pair.1.id⟩ : DeliveryId)).Nodup := by
  have hnodup : (s.missingDeliveries limit).Nodup := by
    refine (take_sublist _ _).nodup ((mergeSort_perm _ _).nodup_iff.mpr ?_)
    exact (h.events.of_map.product h.endpoints.of_map).filter _
  refine hnodup.map_on fun a ha b hb hid => ?_
  obtain ⟨hev, hep, -⟩ := mem_missingDeliveries ha
  obtain ⟨hev', hep', -⟩ := mem_missingDeliveries hb
  rw [DeliveryId.mk.injEq] at hid
  exact Prod.ext (inj_on_of_nodup_map h.events hev hev' hid.2)
    (inj_on_of_nodup_map h.endpoints hep hep' hid.1)

/-- Rows stay until their endpoint is deleted, and its id does not come back. -/
theorem Anchored.step {id : DeliveryId} (h : Anchored s id) (op : Op) :
    Anchored (step s op) id := by
  cases op with
  | createWebhook =>
    refine ⟨Nat.lt_succ_of_lt h.1, ?_⟩
    show ∀ endpoint ∈ s.endpoints ++ [_], _
    rw [forall_mem_append, forall_mem_singleton]
    exact ⟨h.2, fun heq => absurd heq (Nat.ne_of_gt h.1)⟩
  | deleteWebhook =>
    refine ⟨h.1, fun endpoint hep hid => ?_⟩
    obtain ⟨hmem, hne⟩ := mem_filter.mp hep
    obtain ⟨row, hrow, rfl⟩ := h.2 endpoint hmem hid
    exact ⟨row, mem_filter.mpr ⟨hrow, hid ▸ hne⟩, rfl⟩
  | insertMissing =>
    refine ⟨h.1, fun endpoint hep hid => ?_⟩
    obtain ⟨row, hrow, rfl⟩ := h.2 endpoint hep hid
    exact ⟨row, mem_append_left _ hrow, rfl⟩
  | claim => exact ⟨h.1, fun endpoint hep hid =>
      exists_updateDeliveries (fun _ => rfl) (h.2 endpoint hep hid)⟩
  | process =>
    simp only [Webhooks.step]
    split
    · exact h
    split_ifs
    · exact h
    · exact ⟨h.1, fun endpoint hep hid =>
        exists_updateDeliveries (fun _ => rfl) (h.2 endpoint hep hid)⟩
  | _ => exact h

theorem Exclusive.anchored (h : Exclusive s) (hrow : row ∈ s.deliveries) : Anchored s row.id :=
  ⟨h.rows row hrow, fun _ _ _ => ⟨row, hrow, rfl⟩⟩

/-- A row that can be claimed is not under a claim that goes on. -/
theorem Exclusive.free (h : Exclusive s) (hrow : row ∈ s.deliveries) {age : Nat}
    (hcl : Store.claimable (s.now - age) row = true) {work : WebhookDeliveryWork}
    (hwork : work ∈ s.works) (hcur : work.Current s.now) : row.id ≠ work.id := by
  intro hid
  simp only [Store.claimable, Bool.and_eq_true, (h.current work hwork hcur row hrow hid).1,
    Option.all_some, decide_eq_true_eq] at hcl
  have hend := hcur.2
  omega

theorem Exclusive.insertMissing (h : Exclusive s) (limit : Int) (age : Nat) :
    Exclusive (step s (.insertMissing limit age)) := by
  have hnew : ∀ row ∈ (s.missingDeliveries limit).map fun (event, endpoint) =>
      (⟨⟨endpoint.id, event.id⟩, endpoint.url, 0, s.now - age, none, none, none, none,
        s.now - age⟩ : Delivery), (∃ endpoint ∈ s.endpoints, endpoint.id = row.id.endpoint) ∧
          row.deliveredAt = none ∧ ∀ old ∈ s.deliveries, old.id ≠ row.id := by
    intro row hrow
    obtain ⟨pair, hpair, rfl⟩ := mem_map.mp hrow
    obtain ⟨-, hep, hfresh⟩ := mem_missingDeliveries hpair
    exact ⟨⟨pair.2, hep, rfl⟩, rfl, hfresh⟩
  refine ⟨h.endpoints, h.events, h.endpointIds, h.eventIds, ?_, ?_, ?_,
    fun work hwork => (h.works work hwork).step (.insertMissing limit age),
    fun work hwork hcur => ?_, h.apart⟩
  · refine forall_mem_append.mpr ⟨h.rows, fun row hrow => ?_⟩
    obtain ⟨⟨endpoint, hep, hid⟩, -⟩ := hnew row hrow
    exact hid ▸ h.endpointIds endpoint hep
  · show ((s.deliveries ++ _).map (·.id)).Nodup
    rw [map_append, nodup_append]
    refine ⟨h.unique, ?_, fun a ha b hb heq => ?_⟩
    · rw [map_map]
      exact nodup_missingDeliveries h
    · obtain ⟨old, hold, rfl⟩ := mem_map.mp ha
      obtain ⟨row, hrow, rfl⟩ := mem_map.mp hb
      exact (hnew row hrow).2.2 old hold heq
  · exact forall_mem_append.mpr ⟨h.outcome, fun row hrow => .inl (hnew row hrow).2.1⟩
  · -- the row of claimed work exists, so that it is not missing
    refine forall_mem_append.mpr ⟨h.current work hwork hcur, fun row hrow hid => ?_⟩
    obtain ⟨⟨endpoint, hep, hep'⟩, -, hfresh⟩ := hnew row hrow
    obtain ⟨old, hold, hid'⟩ := (h.works work hwork).2 endpoint hep (hid ▸ hep')
    exact absurd (hid'.trans hid.symm) (hfresh old hold)

theorem Exclusive.claim (h : Exclusive s) (limit : Int) (age : Nat) :
    Exclusive (step s (.claim limit age)) := by
  set claimed := s.candidates limit (s.now - age) with hclaimed
  have hrow : ∀ row ∈ (step s (.claim limit age)).deliveries, ∃ old ∈ s.deliveries,
      (row = old ∧ claimed.any (·.id = old.id) = false) ∨
        (row = { old with claimedUntil := some (s.now - age + webhookClaimTtl) } ∧
          old ∈ claimed) := by
    intro row hrow
    obtain ⟨old, hold, hkept | ⟨hrow, hany⟩⟩ := mem_updateDeliveries hrow
    · exact ⟨old, hold, .inl hkept⟩
    · obtain ⟨candidate, hmem, hid⟩ := any_eq_true.mp hany
      obtain rfl := inj_on_of_nodup_map h.unique (mem_candidates hmem).1 hold
        (of_decide_eq_true hid)
      exact ⟨candidate, hold, .inr ⟨hrow, hmem⟩⟩
  -- the work that is added is that of the claimed rows, in their order
  have hwork : ∀ i, ∀ work ∈ (step s (.claim limit age)).works[i]?, work ∈ s.works[i]? ∨
      ∃ row ∈ claimed[i - s.works.length]?, s.works.length ≤ i ∧
        work = ⟨row.id, row.destinationUrl, row.attempt, s.now - age + webhookClaimTtl, false⟩ := by
    intro i work hwork
    rcases Nat.lt_or_ge i s.works.length with hi | hi
    · exact .inl ((List.getElem?_append_left hi).symm.trans hwork)
    · have hget := (List.getElem?_append_right hi).symm.trans hwork
      rw [List.getElem?_map] at hget
      obtain ⟨row, hrow, rfl⟩ := Option.map_eq_some_iff.mp hget
      exact .inr ⟨row, hrow, hi, rfl⟩
  refine ⟨h.endpoints, h.events, h.endpointIds, h.eventIds,
    forall_updateDeliveries h.rows fun row hmem _ => h.rows row hmem, ?_,
    forall_updateDeliveries h.outcome fun row hmem _ => h.outcome row hmem, ?_,
    fun work hmem hcur row hmem' hid => ?_, fun i j a ha b hb hcur hcur' hid => ?_⟩
  · show ((s.updateDeliveries _ _).deliveries.map (·.id)).Nodup
    rw [updateDeliveries_ids]
    · exact h.unique
    · exact fun _ => rfl
  · exact forall_mem_append.mpr ⟨fun work hmem => (h.works work hmem).step (.claim limit age),
      forall_mem_map.mpr fun row hmem =>
        (h.anchored (mem_candidates hmem).1).step (.claim limit age)⟩
  · rcases mem_append.mp hmem with hmem | hmem
    · obtain ⟨old, hold, ⟨rfl, -⟩ | ⟨rfl, hin⟩⟩ := hrow row hmem'
      · exact h.current work hmem hcur row hold hid
      · exact absurd hid (h.free hold (mem_candidates hin).2.1 hmem hcur)
    · obtain ⟨new, hnew, rfl⟩ := mem_map.mp hmem
      obtain ⟨old, hold, ⟨rfl, hnot⟩ | ⟨rfl, hin⟩⟩ := hrow row hmem'
      · exact absurd (decide_eq_true hid.symm) (any_eq_false.mp hnot new hnew)
      · exact ⟨rfl, (mem_candidates hin).2.2⟩
  · rcases hwork i a ha with hold | ⟨row, hmem, hi, rfl⟩
    · rcases hwork j b hb with hold' | ⟨row', hmem', hj, rfl⟩
      · exact h.apart i j a hold b hold' hcur hcur' hid
      · have hcand := mem_candidates (mem_of_getElem? hmem')
        exact absurd hid.symm (h.free hcand.1 hcand.2.1 (mem_of_getElem? hold) hcur)
    · rcases hwork j b hb with hold' | ⟨row', hmem', hj, rfl⟩
      · have hcand := mem_candidates (mem_of_getElem? hmem)
        exact absurd hid (h.free hcand.1 hcand.2.1 (mem_of_getElem? hold') hcur')
      · have hnodup : (claimed.map (·.id)).Nodup := nodup_candidates h.unique
        have hindex : (claimed.map (·.id))[i - s.works.length]? =
            (claimed.map (·.id))[j - s.works.length]? := by
          rw [List.getElem?_map, List.getElem?_map, hmem, hmem']
          exact congrArg some hid
        have hlt := (List.getElem?_eq_some_iff.mp hmem).1
        have := (List.getElem?_inj (by rwa [length_map]) hnodup).mp hindex
        omega

/-- What is recorded in time is recorded on a row that is not settled. -/
theorem Exclusive.process (h : Exclusive s) {k : Nat} {response : Option Nat} {clock : Int}
    {offset : Nat} (ht : Timely s (.process k response clock offset)) :
    Exclusive (step s (.process k response clock offset)) := by
  simp only [step]
  cases hk : s.works[k]? with
  | none => exact h
  | some work =>
    show Exclusive (if _ then _ else _)
    split_ifs with hrec
    · exact h
    have hcur : work.Current s.now := ⟨Bool.eq_false_iff.mpr hrec, ht work hk⟩
    have hwork := mem_of_getElem? hk
    have hother : ∀ i, ∀ other ∈ (s.works.set k { work with recorded := true })[i]?,
        other.Current s.now → i ≠ k ∧ other ∈ s.works[i]? := by
      intro i other hother hcur'
      rcases eq_or_ne k i with rfl | hne
      · rw [List.getElem?_set_self (List.getElem?_eq_some_iff.mp hk).1] at hother
        cases hother
        exact absurd hcur'.1 nofun
      · rw [List.getElem?_set_ne hne] at hother
        exact ⟨hne.symm, hother⟩
    refine ⟨h.endpoints, h.events, h.endpointIds, h.eventIds,
      forall_updateDeliveries h.rows fun row hrow _ => h.rows row hrow, ?_,
      forall_updateDeliveries h.outcome fun old hold hid => ?_, fun other hmem => ?_,
      fun other hmem hcur' row hrow hid => ?_, fun i j a ha b hb hcur' hcur'' hid => ?_⟩
    · show ((s.updateDeliveries _ _).deliveries.map (·.id)).Nodup
      rw [updateDeliveries_ids]
      · exact h.unique
      · exact fun _ => rfl
    · obtain ⟨hdel, hdead⟩ := (h.current work hwork hcur old hold (of_decide_eq_true hid)).2
      cases hsent : response.any fun status => 200 ≤ status ∧ status < 300
      · exact .inl hdel
      · exact .inr hdead
    · have hold : Anchored s other.id := by
        rcases mem_or_eq_of_mem_set hmem with hmem | rfl
        · exact h.works other hmem
        · exact h.works work hwork
      have hstep := hold.step (.process k response clock offset)
      simp only [step, hk, if_neg hrec] at hstep
      exact hstep
    · obtain ⟨i, hi⟩ := mem_iff_getElem?.mp hmem
      obtain ⟨hne, hi⟩ := hother i other hi hcur'
      obtain ⟨old, hold, ⟨rfl, -⟩ | ⟨rfl, hid'⟩⟩ := mem_updateDeliveries hrow
      · exact h.current other (mem_of_getElem? hi) hcur' row hold hid
      · -- another claim of the row would be the one that is recorded
        exact absurd (h.apart i k other hi work hk hcur' hcur
          (hid.symm.trans (of_decide_eq_true hid'))) hne
    · exact h.apart i j a (hother i a ha hcur').2 b (hother j b hb hcur'').2 hcur' hcur'' hid

theorem nodup_append_fresh {α : Type} {key : α → Nat} {l : List α} {a : α}
    (hl : (l.map key).Nodup) (ha : ∀ b ∈ l, key b < key a) : ((l ++ [a]).map key).Nodup := by
  rw [map_append, nodup_append]
  refine ⟨hl, nodup_singleton _, fun i hi j hj heq => ?_⟩
  obtain ⟨b, hb, rfl⟩ := mem_map.mp hi
  obtain rfl := mem_singleton.mp hj
  exact absurd heq (Nat.ne_of_lt (ha b hb))

theorem Exclusive.step (h : Exclusive s) (ht : Timely s op) : Exclusive (step s op) := by
  cases op with
  | createWebhook scope url events =>
    refine ⟨?_, h.events, ?_, h.eventIds, fun row hrow => Nat.lt_succ_of_lt (h.rows row hrow),
      h.unique, h.outcome,
      fun work hwork => (h.works work hwork).step (.createWebhook scope url events),
      h.current, h.apart⟩
    · exact nodup_append_fresh h.endpoints h.endpointIds
    · exact forall_mem_concat (fun endpoint hep => Nat.lt_succ_of_lt (h.endpointIds endpoint hep))
        (Nat.lt_succ_self _)
  | deleteWebhook id =>
    have hrow : ∀ row ∈ s.deliveries.filter (·.id.endpoint ≠ id), row ∈ s.deliveries :=
      fun row hrow => (mem_filter.mp hrow).1
    exact ⟨(filter_sublist.map _).nodup h.endpoints, h.events,
      fun endpoint hep => h.endpointIds endpoint (mem_filter.mp hep).1, h.eventIds,
      fun row hmem => h.rows row (hrow row hmem), (filter_sublist.map _).nodup h.unique,
      fun row hmem => h.outcome row (hrow row hmem),
      fun work hwork => (h.works work hwork).step (.deleteWebhook id),
      fun work hwork hcur row hmem => h.current work hwork hcur row (hrow row hmem), h.apart⟩
  | enqueueWebhookEvent =>
    refine { h with events := ?_, eventIds := ?_ }
    · exact nodup_append_fresh h.events h.eventIds
    · exact forall_mem_concat (fun event hev => Nat.lt_succ_of_lt (h.eventIds event hev))
        (Nat.lt_succ_self _)
  | insertMissing limit age => exact h.insertMissing limit age
  | claim limit age => exact h.claim limit age
  | process => exact h.process ht
  | wait milliseconds =>
    have hpast : ∀ {work : WebhookDeliveryWork}, work.Current (s.now + milliseconds) →
        work.Current s.now := fun ⟨hrec, hend⟩ => ⟨hrec, by omega⟩
    exact { h with
      current := fun work hwork hcur => h.current work hwork (hpast hcur)
      apart := fun i j a ha b hb hcur hcur' =>
        h.apart i j a ha b hb (hpast hcur) (hpast hcur') }

/-! ### Settled deliveries -/

/-- The row is the only one of its id, if it is not deleted, and was claimed `n` times. -/
structure Final (row : Delivery) (n : Nat) (s : Store) : Prop where
  exclusive : Exclusive s
  anchored : Anchored s row.id
  same : ∀ other ∈ s.deliveries, other.id = row.id → other = row
  works : (s.works.map (·.id)).count row.id = n

theorem Final.step {n : Nat} (hrow : ¬row.Unsettled) (h : Final row n s) (ht : Timely s op) :
    Final row n (step s op) := by
  refine ⟨h.exclusive.step ht, h.anchored.step op, ?_, ?_⟩
  · intro other hother hid
    cases op with
    | deleteWebhook id => exact h.same other (mem_filter.mp hother).1 hid
    | insertMissing =>
      rcases mem_append.mp hother with hold | hnew
      · exact h.same other hold hid
      · obtain ⟨pair, hpair, rfl⟩ := mem_map.mp hnew
        obtain ⟨-, hep, hfresh⟩ := mem_missingDeliveries hpair
        obtain ⟨old, hold, hid'⟩ := h.anchored.2 pair.2 hep (hid ▸ rfl)
        exact absurd (hid'.trans hid.symm) (hfresh old hold)
    | claim =>
      obtain ⟨old, hold, ⟨rfl, -⟩ | ⟨rfl, hany⟩⟩ := mem_updateDeliveries hother
      · exact h.same other hold hid
      · obtain ⟨candidate, hmem, hid'⟩ := any_eq_true.mp hany
        obtain ⟨hcand, -, hopen⟩ := mem_candidates hmem
        obtain rfl := h.same candidate hcand ((of_decide_eq_true hid').trans hid)
        exact absurd hopen hrow
    | process k =>
      simp only [Webhooks.step] at hother
      cases hk : s.works[k]? with
      | none =>
        simp only [hk] at hother
        exact h.same other hother hid
      | some work =>
        simp only [hk] at hother
        split_ifs at hother with hrec
        · exact h.same other hother hid
        obtain ⟨old, hold, ⟨rfl, -⟩ | ⟨rfl, hid'⟩⟩ := mem_updateDeliveries hother
        · exact h.same other hold hid
        · -- the row of a current claim is not settled
          have hcur := h.exclusive.current work (mem_of_getElem? hk)
            ⟨Bool.eq_false_iff.mpr hrec, ht work hk⟩ old hold (of_decide_eq_true hid')
          obtain rfl := h.same old hold hid
          exact absurd hcur.2 hrow
    | _ => exact h.same other hother hid
  · cases op with
    | claim =>
      show (List.map _ (s.works ++ _)).count row.id = n
      rw [map_append, count_append, h.works, count_eq_zero.mpr, Nat.add_zero]
      intro hmem
      obtain ⟨work, hwork, hid⟩ := mem_map.mp hmem
      obtain ⟨candidate, hcand, rfl⟩ := mem_map.mp hwork
      obtain ⟨hold, -, hopen⟩ := mem_candidates hcand
      obtain rfl := h.same candidate hold hid
      exact hrow hopen
    | process k =>
      simp only [Webhooks.step]
      cases hk : s.works[k]? with
      | none => exact h.works
      | some work =>
        show (List.map _ (Store.works (if _ then _ else _))).count row.id = n
        split_ifs
        · exact h.works
        · -- the work is marked, with the id it had
          show ((s.works.set k { work with recorded := true }).map (·.id)).count row.id = n
          obtain ⟨hlt, rfl⟩ := List.getElem?_eq_some_iff.mp hk
          rw [map_set, ← List.getElem_map WebhookDeliveryWork.id (h := by rwa [length_map]),
            set_getElem_self, h.works]
    | _ => exact h.works

theorem Exclusive.start (now : Int) : Exclusive (Store.empty now) where
  endpoints := nodup_nil
  events := nodup_nil
  endpointIds := forall_mem_nil _
  eventIds := forall_mem_nil _
  rows := forall_mem_nil _
  unique := nodup_nil
  outcome := forall_mem_nil _
  works := forall_mem_nil _
  current := forall_mem_nil _
  apart := fun _ _ _ ha => absurd ha nofun

/-- **Outcomes are final and exclusive**, however many workers there are, when none of them
records an outcome after its claim is over.  There is one row for an endpoint and an event; it is
not both delivered and given up; and once it is either, nothing changes it (until it is deleted
with its endpoint) and it is not claimed again. -/
theorem outcomes_final (now : Int) (ops more : List Op)
    (h : Run.Meets step Timely (Store.empty now) (ops ++ more)) :
    ((Run.exec step (Store.empty now) ops).deliveries.map (·.id)).Nodup ∧
    ∀ row ∈ (Run.exec step (Store.empty now) ops).deliveries,
      ¬(row.deliveredAt.isSome ∧ row.deadLetteredAt.isSome) ∧
      (row.deliveredAt.isSome ∨ row.deadLetteredAt.isSome →
        (∀ later ∈ (Run.exec step (Store.empty now) (ops ++ more)).deliveries,
          later.id = row.id → later = row) ∧
        ((Run.exec step (Store.empty now) (ops ++ more)).works.map (·.id)).count row.id =
          ((Run.exec step (Store.empty now) ops).works.map (·.id)).count row.id) := by
  obtain ⟨hops, hmore⟩ := Run.meets_append.mp h
  have hex : Exclusive (Run.exec step (.empty now) ops) :=
    hops.invariant (fun _ _ hs ht => .step hs ht) (.start now)
  refine ⟨hex.unique, fun row hrow => ⟨fun hboth => ?_, fun hset => ?_⟩⟩
  · rcases hex.outcome row hrow with hnone | hnone
    · simp [hnone] at hboth
    · simp [hnone] at hboth
  · have hnot : ¬row.Unsettled := by
      rintro ⟨hdel, hdead⟩
      simp [hdel, hdead] at hset
    have hstart : Final row ((Run.exec step (.empty now) ops).works.map (·.id) |>.count row.id)
        (Run.exec step (.empty now) ops) :=
      ⟨hex, hex.anchored hrow, fun other hother hid =>
        List.inj_on_of_nodup_map hex.unique hother hrow hid, rfl⟩
    have hfin := hmore.invariant (fun _ _ hs ht => .step hnot hs ht) hstart
    rw [Run.exec_append]
    exact ⟨hfin.same, hfin.works⟩

namespace Sample

/-- An event is sent at the second attempt. -/
def delivered : List Op :=
  [.createWebhook "w/e" "https://example.test" ["job.*"], .enqueueWebhookEvent "w/e" "job.updated",
    .insertMissing 10 0, .claim 10 0, .process 0 (some 503) 0 0, .wait 60000, .claim 10 0,
    .process 1 (some 204) 60000 0]

/-- Workers look for more to send. -/
def later : List Op := [.wait 400000, .insertMissing 10 0, .claim 10 0]

/-- Seven attempts fail, and two workers have the last one: the first of them is slow. -/
def slow : List Op :=
  delivered.take 3 ++
    (List.range 7).flatMap (fun k => [.claim 10 0, .process k none 0 0, .wait 200000000]) ++
      [.claim 10 0, .wait 300001, .claim 10 0, .process 8 (some 200) 0 0]

end Sample

theorem outcomes_final_delivered : (Run.exec step (Store.empty 0) Sample.delivered).deliveries.map
        (fun row => (row.attempt, row.deliveredAt)) = [(2, some 60000)] ∧
      ∀ row ∈ (Run.exec step (Store.empty 0) Sample.delivered).deliveries,
        row.deliveredAt.isSome ∨ row.deadLetteredAt.isSome →
          ∀ later ∈ (Run.exec step (Store.empty 0) (Sample.delivered ++ Sample.later)).deliveries,
            later.id = row.id → later = row := by
  refine ⟨by decide +kernel, fun row hrow hset => ?_⟩
  have hfin := outcomes_final 0 Sample.delivered Sample.later (by decide +kernel)
  exact ((hfin.2 row hrow).2 hset).1

/-- The slow worker gives up a delivery that was made. -/
theorem delivery_given_up : (Run.exec step (Store.empty 0) Sample.slow).deliveries.map (fun row =>
        (row.attempt, row.responseStatus, row.deliveredAt.isSome, row.deadLetteredAt.isSome)) =
      [(8, some 200, true, false)] ∧
    (Run.exec step (Store.empty 0)
      (Sample.slow ++ [.process 7 none 0 0])).deliveries.map (fun row =>
        (row.attempt, row.responseStatus, row.deliveredAt.isSome, row.deadLetteredAt.isSome)) =
      [(9, none, true, true)] := by
  decide +kernel

end Piqae.Server.Webhooks
