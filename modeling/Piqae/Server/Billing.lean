/-
Piqae/Server/Billing.lean

The billing records of one workspace: the projection of Stripe events
(`project_stripe_billing_event`), the usage ledger
(`record_reported_complete_usage`) and the usage exports that are computed from it
(`prepare_due_usage_exports`, `snapshot_previous_usage_period`,
`materialize_usage_export`, all `storage-postgres/src/lib.rs`).

A call is one transaction, so a call that fails leaves the records as they were.
Plan, interval and status are enumerations: an event with any other text is
refused before anything is read.  The rows of the ledger are those of the workspace
and of the workspaces billed to it.
-/
import Piqae.Server.Topology
import Piqae.Lib.Run

namespace Piqae.Server

inductive Plan
  | free
  | pro
deriving DecidableEq, Repr

inductive BillingInterval
  | monthly
  | annual
deriving DecidableEq, Repr

inductive SubscriptionStatus
  | active
  | trialing
  | pastDue
  | unpaid
  | paused
  | cancelled
deriving DecidableEq, Repr

structure StripeBillingEvent where
  id : String
  eventType : String
  createdAt : DateTime
  payloadSha256 : String
  workspaceReference : Option String
  customerId : Option String
  subscriptionId : Option String
  plan : Option Plan
  billingInterval : Option BillingInterval
  status : Option SubscriptionStatus
  currentPeriodStart : Option DateTime
  currentPeriodEnd : Option DateTime
  cancelAtPeriodEnd : Bool
deriving DecidableEq, Repr

/-- Stripe's order of events: by creation, then by id. -/
def StripeBillingEvent.key (event : StripeBillingEvent) : DateTime ×ₗ String :=
  toLex (event.createdAt, event.id)

/-- A row of `billing_subscriptions`. -/
structure BillingSubscription where
  stripeSubscriptionId : Option String
  plan : Plan
  billingInterval : BillingInterval
  status : SubscriptionStatus
  currentPeriodStart : Option DateTime
  currentPeriodEnd : Option DateTime
  graceEndsAt : Option DateTime
  cancelAtPeriodEnd : Bool
  stripeEventId : Option String
  stripeEventCreatedAt : Option DateTime
deriving DecidableEq, Repr

structure WorkspaceEntitlement where
  plan : Plan
  includedJobs : Nat
  nodeLimit : Nat
  metadataRetentionDays : Nat
  documentRetentionHours : Nat
  jobOverageUnit : Option Nat
  jobOverageCents : Option Nat
deriving DecidableEq, Repr

def overageBlockJobs : Nat := 1000

def proAnnualIncludedJobs : Nat := 300000

/-- The entitlement `upsert_plan_entitlement` stores for a plan. -/
def planEntitlement : Plan → WorkspaceEntitlement
  | .free => ⟨.free, 100, 1, 7, 24, none, none⟩
  | .pro => ⟨.pro, 25000, 25, 90, 168, some overageBlockJobs, some 25⟩

/-- A billable job in `usage_ledger`, with the completion time its node reported. -/
structure UsageLedgerRow where
  jobId : Uuid
  units : Nat
  occurredAt : DateTime
deriving DecidableEq, Repr

/-- A row of `usage_exports`, with the ledger rows its total was computed from. -/
structure UsageExport where
  periodStart : DateTime
  periodEnd : DateTime
  units : Nat
  /-- The number that makes `stripe_event_identifier` unique in the workspace. -/
  identifier : Int
  counted : List UsageLedgerRow
deriving DecidableEq, Repr

structure BillingRecords where
  /-- The texts that name the workspace: its id, and its organization's. -/
  references : List String
  customer : Option String
  subscription : Option BillingSubscription
  entitlement : Option WorkspaceEntitlement
  /-- The ids and payload digests of the events handled. -/
  receipts : List (String × String)
  ledger : List UsageLedgerRow
  exports : List UsageExport
deriving DecidableEq, Repr

inductive StripeProjectionResult
  | applied
  | duplicate
deriving DecidableEq, Repr

namespace BillingRecords

def withExports (s : BillingRecords) (exports : List UsageExport) : BillingRecords :=
  { s with exports := exports }

def bindCustomer (s : BillingRecords) (event : StripeBillingEvent) : BillingRecords :=
  { s with customer := event.customerId <|> s.customer }

def addReceipt (s : BillingRecords) (event : StripeBillingEvent) : BillingRecords :=
  { s with receipts := s.receipts ++ [(event.id, event.payloadSha256)] }

/-! ### Usage -/

/-- The rows of a period. -/
def metered (ledger : List UsageLedgerRow) (periodStart periodEnd : DateTime) :
    List UsageLedgerRow :=
  ledger.filter fun row =>
    decide (periodStart ≤ row.occurredAt) && decide (row.occurredAt < periodEnd)

def acceptedJobs (rows : List UsageLedgerRow) : Nat := (rows.map fun row => row.units).sum

def includedJobs (entitlement : WorkspaceEntitlement) (interval : BillingInterval) : Nat :=
  if interval = .annual then proAnnualIncludedJobs else entitlement.includedJobs

/-- The export of a period: inserted once, when the jobs of the period are more
than the plan includes.  Another period under the same identifier is a violation of
a constraint. -/
def insertExport (s : BillingRecords) (entitlement : WorkspaceEntitlement)
    (interval : BillingInterval) (periodStart periodEnd : DateTime) (identifier : Int) :
    Except StorageError BillingRecords :=
  let rows := metered s.ledger periodStart periodEnd
  let included := includedJobs entitlement interval
  let overageUnit := entitlement.jobOverageUnit.getD overageBlockJobs
  if acceptedJobs rows ≤ included then .ok s
  else if s.exports.any fun e => e.periodStart == periodStart && e.periodEnd == periodEnd then
    .ok s
  else if s.exports.any fun e => e.identifier == identifier then .error .database
  else
    .ok (s.withExports (s.exports ++
      [⟨periodStart, periodEnd, (acceptedJobs rows - included + overageUnit - 1) / overageUnit,
        identifier, rows⟩]))

/-- `DateTime::timestamp`: whole seconds. -/
def timestamp (t : DateTime) : Int := t / 1000000000

/-- `extract(epoch FROM …)::bigint`, which rounds. -/
def epoch (t : DateTime) : Int := (t + 500000000) / 1000000000

def materializeUsageExport (s : BillingRecords) (interval : BillingInterval)
    (periodStart periodEnd : DateTime) : Except StorageError BillingRecords :=
  if periodEnd ≤ periodStart then .error (.invalidData "invalid Stripe usage export period")
  else
    match s.entitlement with
    | none => .ok s
    | some entitlement =>
      s.insertExport entitlement interval periodStart periodEnd (timestamp periodStart)

/-- Is the event not older than the last one projected? -/
def incomingIsCurrent (row : BillingSubscription) (event : StripeBillingEvent) : Bool :=
  match row.stripeEventCreatedAt with
  | none => true
  | some createdAt => decide (toLex (createdAt, row.stripeEventId.getD "") ≤ event.key)

def snapshotPreviousUsagePeriod (s : BillingRecords) (event : StripeBillingEvent) :
    Except StorageError BillingRecords :=
  match event.currentPeriodStart, event.currentPeriodEnd, s.subscription with
  | some nextStart, some nextEnd, some current =>
    if !incomingIsCurrent current event || current.plan ≠ .pro then .ok s
    else
      match current.currentPeriodStart, current.currentPeriodEnd with
      | some previousStart, some previousEnd =>
        if (previousStart, previousEnd) ≠ (nextStart, nextEnd) then
          s.materializeUsageExport current.billingInterval previousStart previousEnd
        else .ok s
      | _, _ => .ok s
  | _, _, _ => .ok s

def prepareDueUsageExports (s : BillingRecords) (now : DateTime) :
    Except StorageError BillingRecords :=
  match s.subscription, s.customer, s.entitlement with
  | some row, some _, some entitlement =>
    match row.currentPeriodStart, row.currentPeriodEnd with
    | some periodStart, some periodEnd =>
      if row.plan = .pro && decide (periodEnd ≤ now) then
        s.insertExport entitlement row.billingInterval periodStart periodEnd (epoch periodStart)
      else .ok s
    | _, _ => .ok s
  | _, _, _ => .ok s

/-- One unit for a completed job of the live environment, once a job. -/
def recordReportedCompleteUsage (s : BillingRecords) (live : Bool) (jobId : Uuid)
    (occurredAt : DateTime) : BillingRecords :=
  if live && !(s.ledger.any fun row => row.jobId == jobId) then
    { s with ledger := s.ledger ++ [⟨jobId, 1, occurredAt⟩] }
  else s

/-! ### Projecting an event -/

/-- The workspace an event is for: the one it names, or the one its customer is
bound to. -/
def resolveWorkspace (s : BillingRecords) (event : StripeBillingEvent) : Except StorageError Unit :=
  match event.workspaceReference, event.customerId with
  | some reference, _ => if s.references.contains reference then .ok () else .error .notFound
  | none, some customerId => if s.customer = some customerId then .ok () else .error .notFound
  | none, none => .error (.invalidData "Stripe event has no workspace binding")

def graceEndsAt (event : StripeBillingEvent) (status : SubscriptionStatus) : Option DateTime :=
  if status = .pastDue then some (event.createdAt + 7 * 86400 * 1000000000) else none

/-- The row an event inserts. -/
def newSubscription (event : StripeBillingEvent) (plan : Plan) (interval : BillingInterval)
    (status : SubscriptionStatus) : BillingSubscription where
  stripeSubscriptionId := event.subscriptionId
  plan := plan
  billingInterval := interval
  status := status
  currentPeriodStart := event.currentPeriodStart
  currentPeriodEnd := event.currentPeriodEnd
  graceEndsAt := graceEndsAt event status
  cancelAtPeriodEnd := event.cancelAtPeriodEnd
  stripeEventId := some event.id
  stripeEventCreatedAt := some event.createdAt

/-- `ON CONFLICT … DO UPDATE`: what the event does not carry stays. -/
def mergeSubscription (row excluded : BillingSubscription) : BillingSubscription :=
  { excluded with
    stripeSubscriptionId := excluded.stripeSubscriptionId <|> row.stripeSubscriptionId
    currentPeriodStart := excluded.currentPeriodStart <|> row.currentPeriodStart
    currentPeriodEnd := excluded.currentPeriodEnd <|> row.currentPeriodEnd
    graceEndsAt :=
      if excluded.status = .pastDue then row.graceEndsAt <|> excluded.graceEndsAt else none }

/-- The guarded upsert, and the entitlement of the plan if it wrote. -/
def upsertSubscription (s : BillingRecords) (event : StripeBillingEvent) (plan : Plan)
    (status : SubscriptionStatus) : BillingRecords :=
  let interval := (event.billingInterval <|> s.subscription.map fun row => row.billingInterval).getD
    .monthly
  let excluded := newSubscription event plan interval status
  match s.subscription with
  | none => { s with subscription := some excluded, entitlement := some (planEntitlement plan) }
  | some row =>
    if incomingIsCurrent row event then
      { s with
        subscription := some (mergeSubscription row excluded)
        entitlement := some (planEntitlement plan) }
    else s

/-- The part of the projection that needs a status and a plan. -/
def projectSubscription (s : BillingRecords) (event : StripeBillingEvent) :
    Except StorageError BillingRecords :=
  match event.status, event.plan <|> s.subscription.map fun row => row.plan with
  | some status, some plan =>
    match s.snapshotPreviousUsagePeriod event with
    | .error error => .error error
    | .ok s => .ok (s.upsertSubscription event plan status)
  | _, _ => .ok s

def validEvent (event : StripeBillingEvent) : Bool :=
  event.id ≠ "" && event.eventType ≠ "" && event.payloadSha256.utf8ByteSize == 64

def projectStripeBillingEvent (s : BillingRecords) (event : StripeBillingEvent) :
    Except StorageError (StripeProjectionResult × BillingRecords) :=
  if !validEvent event then .error (.invalidData "invalid Stripe billing projection")
  else
    match s.receipts.find? fun receipt => receipt.1 == event.id with
    | some (_, storedHash) =>
      if storedHash = event.payloadSha256 then .ok (.duplicate, s) else .error .idempotencyConflict
    | none =>
      match s.resolveWorkspace event with
      | .error error => .error error
      | .ok () =>
        match (s.bindCustomer event).projectSubscription event with
        | .error error => .error error
        | .ok s => .ok (.applied, s.addReceipt event)

/-! ### The machine -/

inductive Op
  | project (event : StripeBillingEvent)
  | prepareDueUsageExports (now : DateTime)
  | recordReportedCompleteUsage (live : Bool) (jobId : Uuid) (occurredAt : DateTime)
deriving DecidableEq, Repr

/-- The records after a call; a call that failed was rolled back. -/
def orElse (s : BillingRecords) : Except StorageError BillingRecords → BillingRecords
  | .ok s' => s'
  | .error _ => s

def step (s : BillingRecords) : Op → BillingRecords
  | .project event => s.orElse ((s.projectStripeBillingEvent event).map Prod.snd)
  | .prepareDueUsageExports now => s.orElse (s.prepareDueUsageExports now)
  | .recordReportedCompleteUsage live jobId occurredAt =>
    s.recordReportedCompleteUsage live jobId occurredAt

/-- A workspace that Stripe has not been heard of yet. -/
def initial (references : List String) (entitlement : Option WorkspaceEntitlement)
    (ledger : List UsageLedgerRow) : BillingRecords :=
  ⟨references, none, none, entitlement, [], ledger, []⟩

/-! ### What a projection does -/

variable {s s' : BillingRecords} {event : StripeBillingEvent}

theorem projectSubscription_cases (h : s.projectSubscription event = .ok s') :
    s' = s ∨ ∃ snapshot plan status, s.snapshotPreviousUsagePeriod event = .ok snapshot ∧
      s' = snapshot.upsertSubscription event plan status := by
  unfold projectSubscription at h
  split at h
  · next status plan _ _ =>
    rcases hsnap : s.snapshotPreviousUsagePeriod event with error | snapshot <;>
      rw [hsnap] at h
    · cases h
    · exact .inr ⟨snapshot, plan, status, rfl, (Except.ok.inj h).symm⟩
  · exact .inl (Except.ok.inj h).symm

theorem step_project_cases (s : BillingRecords) (event : StripeBillingEvent) :
    s.step (.project event) = s ∨ ∃ s', (s.bindCustomer event).projectSubscription event = .ok s' ∧
        s.step (.project event) = s'.addReceipt event := by
  simp only [step, projectStripeBillingEvent]
  split_ifs
  · exact .inl rfl
  split
  · split_ifs <;> exact .inl rfl
  split
  · exact .inl rfl
  rcases (s.bindCustomer event).projectSubscription event with error | s'
  · exact .inl rfl
  · exact .inr ⟨s', rfl, rfl⟩

end BillingRecords

end Piqae.Server
