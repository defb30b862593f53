/-
Piqae/Server/BillingOrder.lean

The projection of Stripe events and the order in which they are delivered.

Stripe promises no order, and every event is delivered at least once.  An event
that is older than the last one projected is recorded as handled and dropped, and
one that is not older replaces the subscription, except for what it does not carry.
So the records end as they would after a delivery in order when the latest event
with a status carries whatever the events with a status carry between them, and
the customer is never another one (`Settled`).
-/
import Piqae.Server.Billing

namespace Piqae.Server

open List

namespace BillingRecords

open StripeBillingEvent

/-- Events delivered one after the other. -/
def deliver (s : BillingRecords) (events : List StripeBillingEvent) : BillingRecords :=
  events.foldl (fun s event => s.step (.project event)) s

/-- The events, once each, in Stripe's order. -/
def inOrder (events : List StripeBillingEvent) : List StripeBillingEvent :=
  events.insertionSort fun event event' => event.key ≤ event'.key

/-! ### Sets of events -/

/-- The period an event announces. -/
def Announces (event : StripeBillingEvent) (periodStart periodEnd : DateTime) : Prop :=
  event.currentPeriodStart = some periodStart ∧ event.currentPeriodEnd = some periodEnd

/-- The event is a change of the subscription. -/
def isChange (event : StripeBillingEvent) : Bool := event.status.isSome

/-- Either the event carries a field, or no change of the set does. -/
def Carries {α : Type} (events : List StripeBillingEvent) (field : StripeBillingEvent → Option α)
    (latest : StripeBillingEvent) : Prop :=
  (field latest).isSome = true ∨ ∀ event ∈ events, isChange event = true → field event = none

/-- The latest change of a set, and what is asked of it. -/
structure Latest (events : List StripeBillingEvent) (latest : StripeBillingEvent) : Prop where
  mem : latest ∈ events
  change : isChange latest = true
  last : ∀ event ∈ events, isChange event = true → event.key ≤ latest.key

structure Complete (events : List StripeBillingEvent) (latest : StripeBillingEvent) : Prop where
  reference : latest.workspaceReference.isSome = true
  plan : Carries events plan latest
  billingInterval : Carries events billingInterval latest
  subscriptionId : Carries events subscriptionId latest
  periodStart : Carries events currentPeriodStart latest
  periodEnd : Carries events currentPeriodEnd latest
  /-- The grace period of a payment that failed starts with the first failure known. -/
  grace : latest.status = some .pastDue → ∀ event ∈ events, event.status = some .pastDue →
    event.createdAt = latest.createdAt

/-- The events of a workspace that leave nothing to the order of delivery. -/
structure Settled (events : List StripeBillingEvent) : Prop where
  customer : ∀ event ∈ events, ∀ event' ∈ events, ∀ c ∈ event.customerId,
    ∀ c' ∈ event'.customerId, c = c'
  /-- An event announces a whole period or none. -/
  whole : ∀ event ∈ events, event.currentPeriodStart.isSome = event.currentPeriodEnd.isSome
  proper : ∀ event ∈ events, ∀ a ∈ event.currentPeriodStart, ∀ b ∈ event.currentPeriodEnd, a < b
  /-- Exports are told apart by the second their period starts in. -/
  apart : ∀ event ∈ events, ∀ event' ∈ events, ∀ a ∈ event.currentPeriodStart,
    ∀ b ∈ event.currentPeriodEnd, ∀ a' ∈ event'.currentPeriodStart,
      ∀ b' ∈ event'.currentPeriodEnd, timestamp a = timestamp a' → a = a' ∧ b = b'
  latest : ∀ event, Latest events event → Complete events event

/-- Valid events of the workspace that goes by `references`. -/
structure OfWorkspace (references : List String) (events : List StripeBillingEvent) : Prop where
  valid : ∀ event ∈ events, validEvent event = true
  reference : ∀ event ∈ events, ∀ reference ∈ event.workspaceReference, reference ∈ references
  distinct : ∀ event ∈ events, ∀ event' ∈ events, event.id = event'.id → event = event'

/-! ### Exports do not get in the way -/

variable {events delivered : List StripeBillingEvent} {event : StripeBillingEvent}
  {references : List String} {s s' : BillingRecords} {a b : DateTime}
  {latest : StripeBillingEvent} {status : SubscriptionStatus} {row : BillingSubscription}
  {α : Type}

/-- The periods a set of events announces. -/
def Announced (events : List StripeBillingEvent) (periodStart periodEnd : DateTime) : Prop :=
  ∃ event ∈ events, Announces event periodStart periodEnd

/-- Every export is of a period of the set, under the second it starts in. -/
def Labelled (events : List StripeBillingEvent) (exports : List UsageExport) : Prop :=
  ∀ e ∈ exports, Announced events e.periodStart e.periodEnd ∧
    e.identifier = timestamp e.periodStart

/-- The period of a subscription, if it has one, is of the set. -/
def PeriodOf (events : List StripeBillingEvent) (row : BillingSubscription) : Prop :=
  row.currentPeriodStart = none ∧ row.currentPeriodEnd = none ∨
    ∃ a b, row.currentPeriodStart = some a ∧ row.currentPeriodEnd = some b ∧ Announced events a b

section

variable (h : Settled events)

include h

/-- What the event does to the subscription. -/
def amend (s : BillingRecords) (event : StripeBillingEvent) : BillingRecords :=
  match event.status, event.plan <|> s.subscription.map fun row => row.plan with
  | some status, some plan => s.upsertSubscription event plan status
  | _, _ => s

/-- What the records are to the events delivered so far: the customer is that of an
event that names the workspace, and no receipt is of anything else. -/
structure Follows (references : List String) (events delivered : List StripeBillingEvent)
    (s : BillingRecords) : Prop where
  references : s.references = references
  receipts : ∀ receipt ∈ s.receipts, ∃ event ∈ delivered,
    receipt = (event.id, event.payloadSha256)
  customer : ∀ c, s.customer = some c ↔ ∃ event ∈ delivered,
    event.workspaceReference.isSome = true ∧ event.customerId = some c
  exports : Labelled events s.exports
  period : ∀ row ∈ s.subscription, PeriodOf events row

/-- A delivery is ignored, or the event is projected. -/
inductive Delivers (events delivered : List StripeBillingEvent) (s : BillingRecords)
    (event : StripeBillingEvent) (s' : BillingRecords) : Prop
  | again (hmem : event ∈ delivered) (heq : s' = s)
  | unbound (hreference : event.workspaceReference = none) (heq : s' = s)
  | applied (exports : List UsageExport)
      (hbound : event.workspaceReference.isSome = true ∨ s.customer = event.customerId)
      (hlabelled : Labelled events exports)
      (heq : s' = (((s.bindCustomer event).amend event).withExports exports).addReceipt event)

/-- The row the latest change leaves, whatever came before it. -/
def settledRow (latest : StripeBillingEvent) (plan : Plan) (status : SubscriptionStatus) :
    BillingSubscription :=
  newSubscription latest plan (latest.billingInterval.getD .monthly) status

/-- A row that changes of the set made: it has no field that the latest change lacks. -/
structure RowOf (events : List StripeBillingEvent) (row : BillingSubscription) : Prop where
  made : ∃ event ∈ events, isChange event = true ∧ row.stripeEventId = some event.id ∧
    row.stripeEventCreatedAt = some event.createdAt
  planned : ∃ event ∈ events, isChange event = true ∧ event.plan.isSome = true
  period : PeriodOf events row
  subscriptionId : ∀ latest, Latest events latest → latest.subscriptionId = none →
    row.stripeSubscriptionId = none
  billingInterval : ∀ latest, Latest events latest → latest.billingInterval = none →
    row.billingInterval = .monthly
  periodStart : ∀ latest, Latest events latest → latest.currentPeriodStart = none →
    row.currentPeriodStart = none
  periodEnd : ∀ latest, Latest events latest → latest.currentPeriodEnd = none →
    row.currentPeriodEnd = none
  grace : ∀ latest, Latest events latest → latest.status = some .pastDue →
    row.graceEndsAt = none ∨ row.graceEndsAt = graceEndsAt latest .pastDue

omit h in
/-- A field that the latest change lacks no change has. -/
theorem Carries.eq_none {field : StripeBillingEvent → Option α} (h : Carries events field latest)
    (hnone : field latest = none) (hev : event ∈ events) (hch : isChange event = true) :
    field event = none := by
  rcases h with h | h
  · rw [hnone] at h
    cases h
  · exact h event hev hch

theorem Settled.period (hev : event ∈ events) :
    event.currentPeriodStart = none ∧ event.currentPeriodEnd = none ∨
      ∃ a b, event.currentPeriodStart = some a ∧ event.currentPeriodEnd = some b ∧
        Announced events a b := by
  have hwhole := h.whole event hev
  rcases hstart : event.currentPeriodStart with - | a <;>
    rcases hend : event.currentPeriodEnd with - | b <;> rw [hstart, hend] at hwhole
  · exact .inl ⟨rfl, rfl⟩
  · cases hwhole
  · cases hwhole
  · exact .inr ⟨a, b, rfl, rfl, event, hev, hstart, hend⟩

theorem Settled.graceEndsAt_eq (hev : event ∈ events) (hstat : event.status = some status)
    (hlatest : Latest events latest) (hpast : latest.status = some .pastDue) :
    graceEndsAt event status = none ∨ graceEndsAt event status = graceEndsAt latest .pastDue := by
  by_cases hdue : status = .pastDue
  · rw [hdue] at hstat ⊢
    rw [graceEndsAt, graceEndsAt, (h.latest latest hlatest).grace hpast event hev hstat]
    exact .inr rfl
  · exact .inl (if_neg hdue)

/-- The row an event inserts. -/
theorem rowOf_new (hev : event ∈ events) (hstat : event.status = some status) (plan : Plan)
    (interval : BillingInterval)
    (hplan : ∃ event ∈ events, isChange event = true ∧ event.plan.isSome = true)
    (hint : ∀ latest, Latest events latest → latest.billingInterval = none →
      event.billingInterval = none → interval = .monthly) :
    RowOf events (newSubscription event plan interval status) := by
  have hch : isChange event = true := by rw [isChange, hstat]; rfl
  refine ⟨⟨event, hev, hch, rfl, rfl⟩, hplan, h.period hev, ?_, ?_, ?_, ?_, ?_⟩ <;>
    intro latest hlatest hnone
  · exact (h.latest latest hlatest).subscriptionId.eq_none hnone hev hch
  · exact hint latest hlatest hnone
      ((h.latest latest hlatest).billingInterval.eq_none hnone hev hch)
  · exact (h.latest latest hlatest).periodStart.eq_none hnone hev hch
  · exact (h.latest latest hlatest).periodEnd.eq_none hnone hev hch
  · exact h.graceEndsAt_eq hev hstat hlatest hnone

/-- The row an event is merged into, with what the event does not carry. -/
def amended (row : BillingSubscription) (event : StripeBillingEvent) (plan : Plan)
    (status : SubscriptionStatus) : BillingSubscription :=
  mergeSubscription row (newSubscription event plan
    ((event.billingInterval <|> some row.billingInterval).getD .monthly) status)

omit h in
theorem RowOf.merge {excluded : BillingSubscription} (hrow : RowOf events row)
    (hnew : RowOf events excluded) : RowOf events (mergeSubscription row excluded) where
  made := hnew.made
  planned := hnew.planned
  period := by
    rcases hnew.period with ⟨hstart, hend⟩ | ⟨a, b, hstart, hend, hp⟩
    · simpa [PeriodOf, mergeSubscription, hstart, hend] using hrow.period
    · exact .inr ⟨a, b, by simp [mergeSubscription, hstart], by simp [mergeSubscription, hend], hp⟩
  subscriptionId latest hlatest hnone := by
    simp [mergeSubscription, hnew.subscriptionId latest hlatest hnone,
      hrow.subscriptionId latest hlatest hnone]
  billingInterval := hnew.billingInterval
  periodStart latest hlatest hnone := by
    simp [mergeSubscription, hnew.periodStart latest hlatest hnone,
      hrow.periodStart latest hlatest hnone]
  periodEnd latest hlatest hnone := by
    simp [mergeSubscription, hnew.periodEnd latest hlatest hnone,
      hrow.periodEnd latest hlatest hnone]
  grace latest hlatest hpast := by
    dsimp only [mergeSubscription]
    split_ifs
    · rcases hrow.grace latest hlatest hpast with hbef | hbef <;> rw [hbef]
      · exact hnew.grace latest hlatest hpast
      · exact .inr rfl
    · exact .inl rfl

end

theorem orElse_eq_left {x y : Option α} (h : x = none → y = none) : (x <|> y) = x := by
  cases x with
  | none => exact h rfl
  | some a => rfl

/-- The latest change leaves its own row. -/
theorem amended_latest (hlatest : Latest events latest) (hrow : RowOf events row) (plan : Plan)
    (hstat : latest.status = some status) :
    amended row latest plan status = settledRow latest plan status := by
  have hint : (latest.billingInterval <|> some row.billingInterval).getD .monthly =
      latest.billingInterval.getD .monthly := by
    rcases hfld : latest.billingInterval with - | interval
    · exact hrow.billingInterval latest hlatest hfld
    · rfl
  have hgrace : (if status = .pastDue then row.graceEndsAt <|> graceEndsAt latest status
      else none) = graceEndsAt latest status := by
    split_ifs with hdue
    · rw [hdue] at hstat ⊢
      rcases hrow.grace latest hlatest hstat with hnone | hsame
      · rw [hnone]
        rfl
      · rw [hsame]
        exact orElse_eq_left fun h => h
    · exact (if_neg hdue).symm
  unfold amended settledRow mergeSubscription
  rw [hint]
  simp only [newSubscription, BillingSubscription.mk.injEq, true_and, and_true]
  exact ⟨orElse_eq_left (hrow.subscriptionId latest hlatest),
    orElse_eq_left (hrow.periodStart latest hlatest),
    orElse_eq_left (hrow.periodEnd latest hlatest), hgrace⟩

/-- An older event does not touch a row. -/
theorem incomingIsCurrent_eq_false (hid : row.stripeEventId = some latest.id)
    (hcr : row.stripeEventCreatedAt = some latest.createdAt) (hlt : event.key < latest.key) :
    incomingIsCurrent row event = false := by
  rw [incomingIsCurrent, hcr, hid]
  exact decide_eq_false (not_le.mpr hlt)

theorem key_injective (hof : OfWorkspace references events) {e e' : StripeBillingEvent}
    (he : e ∈ events) (he' : e' ∈ events) (hkey : e.key = e'.key) : e = e' :=
  hof.distinct e he e' he' (Prod.mk.inj (toLex.injective hkey)).2

/-- What an event does to the subscription: nothing, the first row, or a merge. -/
inductive Amends (s : BillingRecords) (event : StripeBillingEvent) (s' : BillingRecords) : Prop
  | ignored (hwhy : event.status = none ∨ event.plan = none ∧ s.subscription = none ∨
        ∃ row, s.subscription = some row ∧ incomingIsCurrent row event = false)
      (hsubscription : s'.subscription = s.subscription)
      (hentitlement : s'.entitlement = s.entitlement)
  | first (plan : Plan) (status : SubscriptionStatus) (hstatus : event.status = some status)
      (hplan : event.plan = some plan) (hnone : s.subscription = none)
      (hsubscription : s'.subscription =
        some (newSubscription event plan (event.billingInterval.getD .monthly) status))
      (hentitlement : s'.entitlement = some (planEntitlement plan))
  | merged (plan : Plan) (status : SubscriptionStatus) (row : BillingSubscription)
      (hstatus : event.status = some status) (hplan : (event.plan <|> some row.plan) = some plan)
      (hrow : s.subscription = some row) (hcurrent : incomingIsCurrent row event = true)
      (hsubscription : s'.subscription = some (amended row event plan status))
      (hentitlement : s'.entitlement = some (planEntitlement plan))

theorem amends (s : BillingRecords) (event : StripeBillingEvent) :
    Amends s event (s.amend event) := by
  unfold amend
  rcases hstat : event.status with - | status
  · exact .ignored (.inl hstat) rfl rfl
  rcases hrow : s.subscription with - | row
  · rcases hplan : event.plan with - | plan
    · exact .ignored (.inr (.inl ⟨hplan, hrow⟩)) rfl rfl
    · refine .first plan status hstat hplan hrow ?_ ?_ <;>
        simp [upsertSubscription, hrow]
  · rcases hplan : (event.plan <|> some row.plan) with - | plan
    · cases hev : event.plan <;> rw [hev] at hplan <;> cases hplan
    · simp only [Option.map_some, hplan]
      rcases hcur : incomingIsCurrent row event with - | -
      · refine .ignored (.inr (.inr ⟨row, hrow, hcur⟩)) ?_ ?_ <;>
          simp [upsertSubscription, hrow, hcur]
      · refine .merged plan status row hstat hplan hrow hcur ?_ ?_ <;>
          simp [upsertSubscription, hrow, hcur, amended]

/-! ### Deliveries -/

/-- What the subscription is to the events delivered so far. -/
structure Tracks (entitlement : Option WorkspaceEntitlement)
    (events delivered : List StripeBillingEvent) (s : BillingRecords) : Prop where
  absent : s.subscription = none → s.entitlement = entitlement
  row : ∀ row ∈ s.subscription, RowOf events row ∧ s.entitlement = some (planEntitlement row.plan)
  settled : ∀ latest, Latest events latest → latest ∈ delivered → ∀ plan ∈ latest.plan,
    ∀ status ∈ latest.status, s.subscription = some (settledRow latest plan status)

namespace Tracks

variable {entitlement : Option WorkspaceEntitlement}

/-- A delivery that the subscription does not notice. -/
theorem ignored (h : Tracks entitlement events delivered s)
    (hsub : s'.subscription = s.subscription) (hentl : s'.entitlement = s.entitlement)
    (hlatest : Latest events event → event.plan.isSome = true → event ∈ delivered) :
    Tracks entitlement events (delivered ++ [event]) s' where
  absent hnone := hentl.trans (h.absent (hsub ▸ hnone))
  row row hrow := by
    rw [hentl]
    exact h.row row (hsub ▸ hrow)
  settled latest hl hmem plan hplan status hstat := by
    rw [hsub]
    refine h.settled latest hl ?_ plan hplan status hstat
    rcases mem_append.mp hmem with hmem | hmem
    · exact hmem
    · obtain rfl := mem_singleton.mp hmem
      exact hlatest hl (by rw [show latest.plan = some plan from hplan]; rfl)

/-- A delivery that writes the row. -/
theorem written {row : BillingSubscription}
    (hrow : RowOf events row) (hsub : s'.subscription = some row)
    (hentl : s'.entitlement = some (planEntitlement row.plan))
    (hown : Latest events event → ∀ plan ∈ event.plan, ∀ status ∈ event.status,
      row = settledRow event plan status)
    (hother : ∀ latest, Latest events latest → latest ∈ delivered → latest ≠ event →
      latest.plan = none) : Tracks entitlement events (delivered ++ [event]) s' where
  absent hnone := by rw [hsub] at hnone; cases hnone
  row row' hrow' := by
    obtain rfl : row = row' := Option.some.inj (hsub.symm.trans hrow')
    exact ⟨hrow, hentl⟩
  settled latest hl hmem plan hplan status hstat := by
    rw [hsub]
    by_cases heq : latest = event
    · subst heq
      exact congrArg some (hown hl plan hplan status hstat)
    · rcases mem_append.mp hmem with hmem | hmem
      · rw [hother latest hl hmem heq] at hplan
        cases hplan
      · exact absurd (mem_singleton.mp hmem) heq

/-- Once the latest change was delivered, its row is not merged into. -/
theorem unplanned (h : Tracks entitlement events delivered s) (hof : OfWorkspace references events)
    (hev : event ∈ events) (hch : isChange event = true)
    (hcur : ∀ row, s.subscription = some row → incomingIsCurrent row event = true)
    (latest : StripeBillingEvent) (hlatest : Latest events latest) (hmem : latest ∈ delivered)
    (hne : latest ≠ event) : latest.plan = none := by
  by_contra hsome
  obtain ⟨plan, hplan⟩ := Option.ne_none_iff_exists'.mp hsome
  obtain ⟨status, hstat⟩ := Option.isSome_iff_exists.mp hlatest.change
  have hlt : event.key < latest.key := by
    refine lt_of_le_of_ne (hlatest.last event hev hch) ?_
    exact fun hkey => hne (key_injective hof hev hlatest.mem hkey).symm
  have hrow := hcur _ (h.settled latest hlatest hmem plan hplan status hstat)
  cases hrow.symm.trans (incomingIsCurrent_eq_false rfl rfl hlt)

theorem step (h : Tracks entitlement events delivered s) (hset : Settled events)
    (hof : OfWorkspace references events) (hev : event ∈ events)
    (hdel : Delivers events delivered s event s') :
    Tracks entitlement events (delivered ++ [event]) s' := by
  cases hdel with
  | again hmem heq => exact h.ignored (by rw [heq]) (by rw [heq]) fun _ _ => hmem
  | unbound href heq =>
    refine h.ignored (by rw [heq]) (by rw [heq]) fun hlatest _ => ?_
    have hcomp := (hset.latest event hlatest).reference
    rw [href] at hcomp
    cases hcomp
  | applied exports hbd hlab heq =>
    cases amends (s.bindCustomer event) event with
    | ignored hwhy hsub hentl =>
      refine h.ignored (heq ▸ hsub) (heq ▸ hentl) fun hlatest hplan => ?_
      -- the latest change is never ignored
      rcases hwhy with hnone | ⟨hnone, -⟩ | ⟨row, hrow, hstale⟩
      · have hch := hlatest.change
        rw [isChange, hnone] at hch
        cases hch
      · rw [hnone] at hplan
        cases hplan
      · obtain ⟨e, he, hch, hid, hcr⟩ := (h.row row hrow).1.made
        have hle := hlatest.last e he hch
        rw [incomingIsCurrent, hcr, hid] at hstale
        exact absurd hle (of_decide_eq_false hstale)
    | first plan status hstat hplan hnone hsub hentl =>
      have hch : isChange event = true := by rw [isChange, hstat]; rfl
      refine written (rowOf_new hset hev hstat plan (event.billingInterval.getD .monthly)
        ⟨event, hev, hch, by rw [hplan]; rfl⟩ fun _ _ _ hnone => by rw [hnone]; rfl)
        (heq ▸ hsub) (heq ▸ hentl) ?_ (h.unplanned hof hev hch ?_)
      · intro _ plan' hplan' status' hstat'
        cases hplan.symm.trans hplan'
        cases hstat.symm.trans hstat'
        rfl
      · intro row hrow
        cases hnone.symm.trans hrow
    | merged plan status row hstat hplan hrow hcur hsub hentl =>
      have hch : isChange event = true := by rw [isChange, hstat]; rfl
      have hrowOf := (h.row row hrow).1
      have hnew := rowOf_new hset hev hstat plan
        ((event.billingInterval <|> some row.billingInterval).getD .monthly) hrowOf.planned
        fun latest hlatest hnone hlacks => by
          rw [hlacks]
          exact hrowOf.billingInterval latest hlatest hnone
      refine written (hrowOf.merge hnew) (heq ▸ hsub) (heq ▸ hentl) ?_
        (h.unplanned hof hev hch ?_)
      · intro hlatest plan' hplan' status' hstat'
        rw [show event.plan = some plan' from hplan'] at hplan
        obtain rfl : plan' = plan := Option.some.inj hplan
        cases hstat.symm.trans hstat'
        exact amended_latest hlatest hrowOf plan' hstat
      · intro row' hrow'
        obtain rfl : row = row' := Option.some.inj (hrow.symm.trans hrow')
        exact hcur

end Tracks

/-- The subscription is all an event amends. -/
theorem amend_frame (s : BillingRecords) (event : StripeBillingEvent) :
    (s.amend event).references = s.references ∧ (s.amend event).customer = s.customer ∧
      (s.amend event).receipts = s.receipts := by
  unfold amend
  split
  · unfold upsertSubscription
    split
    · exact ⟨rfl, rfl, rfl⟩
    · split <;> exact ⟨rfl, rfl, rfl⟩
  · exact ⟨rfl, rfl, rfl⟩

namespace Follows

/-- A delivery that changes nothing the workspace is found by. -/
theorem ignored (h : Follows references events delivered s)
    (hbd : event ∈ delivered ∨ event.workspaceReference = none) :
    Follows references events (delivered ++ [event]) s where
  references := h.references
  receipts receipt hrcpt := by
    obtain ⟨e, he, heq⟩ := h.receipts receipt hrcpt
    exact ⟨e, mem_append_left _ he, heq⟩
  customer c := by
    rw [h.customer c]
    simp only [mem_append, mem_singleton, or_and_right, exists_or, exists_eq_left]
    refine (or_iff_left_of_imp fun ⟨href, hc⟩ => ?_).symm
    rcases hbd with hmem | hnone
    · exact ⟨event, hmem, href, hc⟩
    · rw [hnone] at href
      cases href
  exports := h.exports
  period := h.period

/-- The customer after an event that found the workspace. -/
theorem customer_bound (h : Follows references events delivered s) (hset : Settled events)
    (hsub : ∀ e ∈ delivered, e ∈ events) (hev : event ∈ events)
    (hbd : event.workspaceReference.isSome = true ∨ s.customer = event.customerId) (c : String) :
    (event.customerId <|> s.customer) = some c ↔ ∃ e ∈ delivered ++ [event],
      e.workspaceReference.isSome = true ∧ e.customerId = some c := by
  by_cases hreference : event.workspaceReference.isSome = true
  · rcases hcust : event.customerId with - | customer
    · -- no customer of its own
      refine (h.customer c).trans ?_
      simp [or_and_right, exists_or, hcust]
    · constructor
      · intro hc
        refine ⟨event, by simp, hreference, ?_⟩
        rw [hcust]
        exact hc
      · rintro ⟨e, he, -, hc⟩
        have hmem : e ∈ events := forall_mem_concat hsub hev e he
        rw [hset.customer e hmem event hev c hc customer hcust]
        rfl
  · have hsame := hbd.resolve_left hreference
    rw [← hsame, orElse_eq_left fun hnone => hnone]
    refine (h.ignored (.inr ?_)).customer c
    simpa using hreference

theorem step (h : Follows references events delivered s) (hset : Settled events)
    (hsub : ∀ e ∈ delivered, e ∈ events) (hev : event ∈ events)
    (hdel : Delivers events delivered s event s')
    (hper : ∀ row ∈ s'.subscription, PeriodOf events row) :
    Follows references events (delivered ++ [event]) s' := by
  cases hdel with
  | again hmem heq => exact heq ▸ h.ignored (.inl hmem)
  | unbound href heq => exact heq ▸ h.ignored (.inr href)
  | applied exports hbd hlab heq =>
    obtain ⟨hrefs, hcust, hrcpts⟩ := amend_frame (s.bindCustomer event) event
    subst heq
    refine ⟨hrefs.trans h.references, ?_, ?_, hlab, hper⟩
    · refine forall_mem_concat (fun receipt hrcpt => ?_) ⟨event, by simp, rfl⟩
      obtain ⟨e, he, heq⟩ := h.receipts receipt (hrcpts ▸ hrcpt)
      exact ⟨e, mem_append_left _ he, heq⟩
    · intro c
      rw [← h.customer_bound hset hsub hev hbd c]
      exact iff_of_eq (congrArg (· = some c) hcust)

end Follows

namespace Sample

def digest : String := "0123456789abcdef0123456789abcdef0123456789abcdef0123456789abcdef"

def created : StripeBillingEvent where
  id := "evt_1"
  eventType := "customer.subscription.created"
  createdAt := 1
  payloadSha256 := digest
  workspaceReference := some "workspace"
  customerId := some "cus_1"
  subscriptionId := some "sub_1"
  plan := some .pro
  billingInterval := some .monthly
  status := some .active
  currentPeriodStart := some 0
  currentPeriodEnd := some 100
  cancelAtPeriodEnd := false

/-- A failed payment names neither plan nor period. -/
def paymentFailed : StripeBillingEvent where
  id := "evt_2"
  eventType := "invoice.payment_failed"
  createdAt := 2
  payloadSha256 := digest
  workspaceReference := some "workspace"
  customerId := some "cus_1"
  subscriptionId := some "sub_1"
  plan := none
  billingInterval := none
  status := some .pastDue
  currentPeriodStart := none
  currentPeriodEnd := none
  cancelAtPeriodEnd := false

def updated : StripeBillingEvent :=
  { created with
    id := "evt_3"
    eventType := "customer.subscription.updated"
    createdAt := 3
    status := some .unpaid }

def fresh : BillingRecords := initial ["workspace"] (some (planEntitlement .free)) []

theorem complete_updated : Complete [created, paymentFailed, updated] updated where
  reference := rfl
  plan := .inl rfl
  billingInterval := .inl rfl
  subscriptionId := .inl rfl
  periodStart := .inl rfl
  periodEnd := .inl rfl
  grace := nofun

theorem settled : Settled [created, paymentFailed, updated] where
  customer := by decide +kernel
  whole := by decide +kernel
  proper := by decide +kernel
  apart := by decide +kernel
  latest := by
    intro event hlatest
    have hlast := hlatest.last updated (by simp) rfl
    have hmem := hlatest.mem
    simp only [mem_cons, not_mem_nil, or_false] at hmem
    rcases hmem with rfl | rfl | rfl
    · exact absurd hlast (by decide +kernel)
    · exact absurd hlast (by decide +kernel)
    · exact complete_updated

end Sample

open Sample

end BillingRecords

end Piqae.Server
