/-
Piqae/Server/Usage.lean

The ledger of completed jobs and the exports of billing periods.

A completed job enters the ledger when the control plane hears of it, with the
completion time its node reports, and a period is exported once, from the rows the
ledger has at that moment.  So a job that is reported after the export of the
period it completed in is in no total; as long as that does not happen, the total of
every exported period stays that of its rows.
-/
import Piqae.Server.Billing

namespace Piqae.Server

open List

/-- Consecutive billing periods: the `k`-th is from boundary `k` to boundary `k + 1`. -/
structure BillingPeriods where
  boundary : Nat → Int
  increasing : StrictMono boundary

namespace BillingPeriods

variable (periods : BillingPeriods) {t : Int}

theorem le_boundary (k : Nat) : periods.boundary 0 + k ≤ periods.boundary k := by
  induction k with
  | zero => simp
  | succ k ih =>
    have := periods.increasing (Nat.lt_add_one k)
    push_cast
    omega

/-- An instant after the first boundary is in a period. -/
theorem exists_period (h : periods.boundary 0 ≤ t) :
    ∃ k, periods.boundary k ≤ t ∧ t < periods.boundary (k + 1) := by
  have hpast : ∃ k, t < periods.boundary k := by
    refine ⟨(t - periods.boundary 0).toNat + 1, ?_⟩
    have := periods.le_boundary ((t - periods.boundary 0).toNat + 1)
    push_cast at this
    omega
  classical
  obtain ⟨k, hk⟩ : ∃ k, Nat.find hpast = k + 1 := by
    refine Nat.exists_eq_succ_of_ne_zero fun hzero => ?_
    have := Nat.find_spec hpast
    rw [hzero] at this
    omega
  refine ⟨k, ?_, hk ▸ Nat.find_spec hpast⟩
  exact Int.not_lt.mp (Nat.find_min hpast (hk ▸ Nat.lt_succ_self k))

/-- Periods do not overlap. -/
theorem period_unique {k k' : Nat} (h : periods.boundary k ≤ t)
    (h' : t < periods.boundary (k + 1)) (hk : periods.boundary k' ≤ t)
    (hk' : t < periods.boundary (k' + 1)) : k = k' := by
  have hlt := periods.increasing.lt_iff_lt.mp (lt_of_le_of_lt h hk')
  have hlt' := periods.increasing.lt_iff_lt.mp (lt_of_le_of_lt hk h')
  omega

end BillingPeriods

namespace BillingRecords

variable {periods : BillingPeriods} {s s' : BillingRecords} {event : StripeBillingEvent}
  {a b : DateTime}

/-! ### Conditions on steps -/

/-- No period, or one of the row of periods. -/
def InPeriods (periods : BillingPeriods) (periodStart periodEnd : Option DateTime) : Prop :=
  periodStart = none ∧ periodEnd = none ∨
    ∃ k, periodStart = some (periods.boundary k) ∧ periodEnd = some (periods.boundary (k + 1))

/-- Billing events announce the consecutive periods. -/
def Consecutive (periods : BillingPeriods) : Op → Prop
  | .project event => InPeriods periods event.currentPeriodStart event.currentPeriodEnd
  | _ => True

/-- A job is reported while the period it completed in has not been exported, and
did not complete before the first period. -/
def OnTime (periods : BillingPeriods) (s : BillingRecords) : Op → Prop
  | .recordReportedCompleteUsage live jobId occurredAt =>
    live = true → (∀ row ∈ s.ledger, row.jobId ≠ jobId) → periods.boundary 0 ≤ occurredAt ∧
      ∀ e ∈ s.exports, ¬(e.periodStart ≤ occurredAt ∧ occurredAt < e.periodEnd)
  | _ => True

/-! ### What a step does -/

theorem mem_metered {ledger : List UsageLedgerRow} {row : UsageLedgerRow} :
    row ∈ metered ledger a b ↔ row ∈ ledger ∧ a ≤ row.occurredAt ∧ row.occurredAt < b := by
  simp [metered]

/-- The export of a period, if it is one, is new and has the rows of the period. -/
inductive Exports (s : BillingRecords) (a b : DateTime) (s' : BillingRecords) : Prop
  | none (heq : s' = s)
  | one (e : UsageExport) (hstart : e.periodStart = a) (hend : e.periodEnd = b)
      (hcounted : e.counted = metered s.ledger a b)
      (hnew : ∀ e' ∈ s.exports, ¬(e'.periodStart = a ∧ e'.periodEnd = b))
      (heq : s' = s.withExports (s.exports ++ [e]))

theorem insertExport_exports {entitlement : WorkspaceEntitlement} {interval : BillingInterval}
    {identifier : Int} (h : s.insertExport entitlement interval a b identifier = .ok s') :
    Exports s a b s' := by
  unfold insertExport at h
  dsimp only at h
  split_ifs at h with hfew hdone hclash
  · exact .none (Except.ok.inj h).symm
  · exact .none (Except.ok.inj h).symm
  · refine .one _ rfl rfl rfl ?_ (Except.ok.inj h).symm
    intro e' he' hsame
    exact hdone (any_eq_true.mpr ⟨e', he', by simp [hsame.1, hsame.2]⟩)

/-- The snapshot of a renewal exports the period of the subscription, if anything. -/
theorem snapshotPreviousUsagePeriod_exports (h : s.snapshotPreviousUsagePeriod event = .ok s') :
    s' = s ∨ ∃ row a b, s.subscription = some row ∧ row.currentPeriodStart = some a ∧
      row.currentPeriodEnd = some b ∧ Exports s a b s' := by
  revert h
  fun_cases snapshotPreviousUsagePeriod s event
  case case2 current hrow _ _ _ a b hend hstart _ =>
    intro h
    unfold materializeUsageExport at h
    split_ifs at h
    split at h
    · exact .inl (Except.ok.inj h).symm
    · exact .inr ⟨current, a, b, hrow, hstart, hend, insertExport_exports h⟩
  all_goals exact fun h => .inl (Except.ok.inj h).symm

theorem prepareDueUsageExports_exports {now : DateTime}
    (h : s.prepareDueUsageExports now = .ok s') :
    s' = s ∨ ∃ row a b, s.subscription = some row ∧ row.currentPeriodStart = some a ∧
      row.currentPeriodEnd = some b ∧ Exports s a b s' := by
  revert h
  fun_cases prepareDueUsageExports s now
  case case1 row _ _ _ _ hrow a b hend hstart _ =>
    exact fun h => .inr ⟨row, a, b, hrow, hstart, hend, insertExport_exports h⟩
  all_goals exact fun h => .inl (Except.ok.inj h).symm

/-- What a step does to the exports and the ledger. -/
inductive Moves (s : BillingRecords) (s' : BillingRecords) : Prop
  | quiet (hledger : s'.ledger = s.ledger) (hexports : s'.exports = s.exports)
  | exported (row : BillingSubscription) (e : UsageExport) (hrow : s.subscription = some row)
      (hstart : row.currentPeriodStart = some e.periodStart)
      (hend : row.currentPeriodEnd = some e.periodEnd)
      (hcounted : e.counted = metered s.ledger e.periodStart e.periodEnd)
      (hnew : ∀ e' ∈ s.exports, ¬(e'.periodStart = e.periodStart ∧ e'.periodEnd = e.periodEnd))
      (hledger : s'.ledger = s.ledger) (hexports : s'.exports = s.exports ++ [e])

theorem Exports.moves {row : BillingSubscription} (h : Exports s a b s')
    (hrow : s.subscription = some row) (hstart : row.currentPeriodStart = some a)
    (hend : row.currentPeriodEnd = some b) : Moves s s' := by
  cases h with
  | none heq => exact .quiet (by rw [heq]) (by rw [heq])
  | one e hs he hcnt hnew heq =>
    subst hs he
    exact .exported row e hrow hstart hend hcnt hnew (by rw [heq]; rfl) (by rw [heq]; rfl)

theorem upsertSubscription_frame (event : StripeBillingEvent) (plan : Plan)
    (status : SubscriptionStatus) : (s.upsertSubscription event plan status).ledger = s.ledger ∧
      (s.upsertSubscription event plan status).exports = s.exports := by
  unfold upsertSubscription
  split
  · exact ⟨rfl, rfl⟩
  · split <;> exact ⟨rfl, rfl⟩

/-- The period of the row after the upsert is the event's, or what it was. -/
theorem upsertSubscription_period (plan : Plan) (status : SubscriptionStatus)
    (hev : InPeriods periods event.currentPeriodStart event.currentPeriodEnd)
    (hrow : ∀ row ∈ s.subscription, InPeriods periods row.currentPeriodStart row.currentPeriodEnd) :
    ∀ row ∈ (s.upsertSubscription event plan status).subscription,
      InPeriods periods row.currentPeriodStart row.currentPeriodEnd := by
  unfold upsertSubscription
  split
  · rintro row ⟨⟩
    exact hev
  · next current hcur =>
    split_ifs
    · rintro row ⟨⟩
      rcases hev with ⟨hstart, hend⟩ | ⟨k, hstart, hend⟩
      · simpa [mergeSubscription, newSubscription, hstart, hend] using hrow current hcur
      · exact .inr ⟨k, by simp [mergeSubscription, newSubscription, hstart],
          by simp [mergeSubscription, newSubscription, hend]⟩
    · exact fun row hmem => hrow row (hcur ▸ hmem)

/-- Neither the customer before nor the receipts after matter to a move. -/
theorem Moves.of_bindCustomer {s'' : BillingRecords} (h : Moves (s.bindCustomer event) s')
    (hled : s''.ledger = s'.ledger) (hexp : s''.exports = s'.exports) : Moves s s'' := by
  cases h with
  | quiet hl hx => exact .quiet (hled.trans hl) (hexp.trans hx)
  | exported row e hrow hstart hend hcnt hnew hl hx =>
    exact .exported row e hrow hstart hend hcnt hnew (hled.trans hl) (hexp.trans hx)

/-- A projection moves at most the export of the previous period. -/
theorem project_moves (s : BillingRecords) (event : StripeBillingEvent) :
    Moves s (s.step (.project event)) := by
  rcases step_project_cases s event with heq | ⟨s', hproj, heq⟩
  · exact .quiet (by rw [heq]) (by rw [heq])
  rw [heq]
  rcases projectSubscription_cases hproj with rfl | ⟨snapshot, plan, status, hsnap, rfl⟩
  · exact .quiet rfl rfl
  obtain ⟨hled, hexp⟩ := upsertSubscription_frame (s := snapshot) event plan status
  rcases snapshotPreviousUsagePeriod_exports hsnap with rfl | ⟨row, a, b, hrow, hstart, hend, he⟩
  · exact .quiet hled hexp
  · exact (he.moves hrow hstart hend).of_bindCustomer hled hexp

theorem Exports.subscription (h : Exports s a b s') : s'.subscription = s.subscription := by
  cases h with
  | none heq => rw [heq]
  | one e _ _ _ _ heq => rw [heq]; rfl

/-- A projection of an event of the periods leaves a period of the periods. -/
theorem project_period (hev : InPeriods periods event.currentPeriodStart event.currentPeriodEnd)
    (hrow : ∀ row ∈ s.subscription, InPeriods periods row.currentPeriodStart row.currentPeriodEnd) :
    ∀ row ∈ (s.step (.project event)).subscription,
      InPeriods periods row.currentPeriodStart row.currentPeriodEnd := by
  rcases step_project_cases s event with heq | ⟨s', hproj, heq⟩
  · rw [heq]
    exact hrow
  rw [heq]
  rcases projectSubscription_cases hproj with rfl | ⟨snapshot, plan, status, hsnap, rfl⟩
  · exact hrow
  refine upsertSubscription_period plan status hev ?_
  rcases snapshotPreviousUsagePeriod_exports hsnap with rfl | ⟨row, a, b, -, -, -, he⟩
  · exact hrow
  · rw [he.subscription]
    exact hrow

/-! ### Every row of an exported period is in its total -/

/-- Exports are of distinct periods of the row, each with the rows of its period. -/
structure Billed (periods : BillingPeriods) (s : BillingRecords) : Prop where
  placed : ∀ e ∈ s.exports, ∃ k, e.periodStart = periods.boundary k ∧
    e.periodEnd = periods.boundary (k + 1)
  once : s.exports.Pairwise fun e e' =>
    ¬(e.periodStart = e'.periodStart ∧ e.periodEnd = e'.periodEnd)
  counted : ∀ e ∈ s.exports, e.counted = metered s.ledger e.periodStart e.periodEnd
  current : ∀ row ∈ s.subscription, InPeriods periods row.currentPeriodStart row.currentPeriodEnd
  started : ∀ row ∈ s.ledger, periods.boundary 0 ≤ row.occurredAt

theorem billed_initial (references : List String) (entitlement : Option WorkspaceEntitlement) :
    Billed periods (initial references entitlement []) := by
  constructor <;> simp [initial]

namespace Billed

theorem moves (h : Billed periods s) (hmoves : Moves s s') (hcur : ∀ row ∈ s'.subscription,
      InPeriods periods row.currentPeriodStart row.currentPeriodEnd) : Billed periods s' := by
  cases hmoves with
  | quiet hled hexp =>
    exact ⟨hexp ▸ h.placed, hexp ▸ h.once, by rw [hexp, hled]; exact h.counted,
      hcur, hled ▸ h.started⟩
  | exported row e hrow hstart hend hcnt hnew hled hexp =>
    have hper : ∃ k, e.periodStart = periods.boundary k ∧
        e.periodEnd = periods.boundary (k + 1) := by
      rcases h.current row hrow with ⟨hnone, -⟩ | ⟨k, hk, hk'⟩
      · rw [hstart] at hnone
        cases hnone
      · exact ⟨k, Option.some.inj (hstart.symm.trans hk), Option.some.inj (hend.symm.trans hk')⟩
    constructor
    · exact hexp ▸ forall_mem_concat h.placed hper
    · rw [hexp, pairwise_append]
      refine ⟨h.once, pairwise_singleton _ _, fun e' he' e'' he'' => ?_⟩
      rw [mem_singleton.mp he'']
      exact hnew e' he'
    · rw [hexp, hled]
      exact forall_mem_concat h.counted hcnt
    · exact hcur
    · exact hled ▸ h.started

/-- A row outside the exported periods changes no total. -/
theorem record (h : Billed periods s) {live : Bool} {jobId : Uuid} {occurredAt : DateTime}
    (hontime : OnTime periods s (.recordReportedCompleteUsage live jobId occurredAt)) :
    Billed periods (s.recordReportedCompleteUsage live jobId occurredAt) := by
  unfold recordReportedCompleteUsage
  split_ifs with hnew
  · simp only [Bool.and_eq_true, Bool.not_eq_true', any_eq_false, beq_iff_eq] at hnew
    obtain ⟨hstart, hopen⟩ := hontime hnew.1 fun row hrow heq => hnew.2 row hrow heq
    refine ⟨h.placed, h.once, ?_, h.current, ?_⟩
    · intro e he
      have hout : (decide (e.periodStart ≤ occurredAt) && decide (occurredAt < e.periodEnd)) =
          false := by
        simpa using hopen e he
      rw [h.counted e he, metered, metered, filter_append, filter_cons_of_neg (by simp [hout])]
      simp
    · exact forall_mem_concat h.started hstart
  · exact h

/-- What one step keeps. -/
theorem step (h : Billed periods s) {op : Op} (hcons : Consecutive periods op)
    (hontime : OnTime periods s op) : Billed periods (s.step op) := by
  cases op with
  | project event => exact h.moves (project_moves s event) (project_period hcons h.current)
  | prepareDueUsageExports now =>
    simp only [BillingRecords.step]
    rcases hprepare : s.prepareDueUsageExports now with error | s'
    · exact h
    · rcases prepareDueUsageExports_exports hprepare with rfl | ⟨row, a, b, hrow, hstart, hend, he⟩
      · exact h
      · exact h.moves (he.moves hrow hstart hend) (he.subscription ▸ h.current)
  | recordReportedCompleteUsage => exact h.record hontime

end Billed

theorem billed_run {references : List String} {entitlement : Option WorkspaceEntitlement}
    {l : List Op} (h : Run.Meets BillingRecords.step
      (fun s op => Consecutive periods op ∧ OnTime periods s op)
      (initial references entitlement []) l) :
    Billed periods (Run.exec BillingRecords.step (initial references entitlement []) l) :=
  Run.Meets.invariant (P := Billed periods) (fun _ _ hbilled hop => hbilled.step hop.1 hop.2)
    (billed_initial references entitlement) h

/-- **Usage is billed exactly once**: when jobs are reported before the period they
completed in is exported, and every period with a job is exported in the end, every
row of the ledger is in the total of exactly one export, that of its period. -/
theorem usage_billed_once (periods : BillingPeriods) (references : List String)
    (entitlement : Option WorkspaceEntitlement) (l : List Op)
    (h : Run.Meets BillingRecords.step (fun s op => Consecutive periods op ∧ OnTime periods s op)
      (initial references entitlement []) l)
    (hexported :
      ∀ row ∈ (Run.exec BillingRecords.step (initial references entitlement []) l).ledger,
      ∀ k, periods.boundary k ≤ row.occurredAt → row.occurredAt < periods.boundary (k + 1) →
        ∃ e ∈ (Run.exec BillingRecords.step (initial references entitlement []) l).exports,
          e.periodStart = periods.boundary k ∧ e.periodEnd = periods.boundary (k + 1)) :
    ∀ row ∈ (Run.exec BillingRecords.step (initial references entitlement []) l).ledger,
      ∃ e, (Run.exec BillingRecords.step (initial references entitlement []) l).exports.filter
          (fun e => e.counted.contains row) = [e] ∧
        e.periodStart ≤ row.occurredAt ∧ row.occurredAt < e.periodEnd := by
  have hbilled := billed_run h
  intro row hrow
  obtain ⟨k, hstart, hend⟩ := periods.exists_period (hbilled.started row hrow)
  obtain ⟨e, he, hs, hd⟩ := hexported row hrow k hstart hend
  have hmem : ∀ e ∈ (Run.exec BillingRecords.step (initial references entitlement []) l).exports,
      e.counted.contains row = true → e.periodStart ≤ row.occurredAt ∧
        row.occurredAt < e.periodEnd := by
    intro e he hcnt
    rw [hbilled.counted e he, List.contains_iff_mem, mem_metered] at hcnt
    exact hcnt.2
  refine ⟨e, filter_eq_singleton ?_ he ?_, hs ▸ hstart, hd ▸ hend⟩
  · -- two exports with the row would be of one period
    refine List.Pairwise.imp_of_mem (fun {e e'} he he' hdistinct hboth => hdistinct ?_) hbilled.once
    obtain ⟨j, hj, hj'⟩ := hbilled.placed e he
    obtain ⟨j', hk, hk'⟩ := hbilled.placed e' he'
    have hin := hmem e he hboth.1
    have hin' := hmem e' he' hboth.2
    rw [hj, hj'] at hin
    rw [hk, hk'] at hin'
    obtain rfl := periods.period_unique hin.1 hin.2 hin'.1 hin'.2
    exact ⟨hj.trans hk.symm, hj'.trans hk'.symm⟩
  · rw [hbilled.counted e he, List.contains_iff_mem, mem_metered]
    exact ⟨hrow, hs ▸ hstart, hd ▸ hend⟩

/-! ### Samples -/

namespace Sample

/-- Periods of a second. -/
def seconds : BillingPeriods where
  boundary k := k * 1000000000
  increasing := by
    intro k k' h
    dsimp only
    omega

def first : StripeBillingEvent where
  id := "evt_1"
  eventType := "customer.subscription.created"
  createdAt := 1
  payloadSha256 := "0123456789abcdef0123456789abcdef0123456789abcdef0123456789abcdef"
  workspaceReference := some "workspace"
  customerId := some "cus_1"
  subscriptionId := some "sub_1"
  plan := some .pro
  billingInterval := some .monthly
  status := some .active
  currentPeriodStart := some 0
  currentPeriodEnd := some 1000000000
  cancelAtPeriodEnd := false

/-- The renewal. -/
def second : StripeBillingEvent :=
  { first with
    id := "evt_2"
    eventType := "customer.subscription.updated"
    createdAt := 2
    currentPeriodStart := some 1000000000
    currentPeriodEnd := some 2000000000 }

def start : BillingRecords := initial ["workspace"] (some (planEntitlement .free)) []

/-- The workspace in its first period. -/
def opened (ledger : List UsageLedgerRow) : BillingRecords :=
  { start with
    customer := some "cus_1"
    subscription := some (newSubscription first .pro .monthly .active)
    entitlement := some (planEntitlement .pro)
    receipts := [("evt_1", first.payloadSha256)]
    ledger := ledger }

def rows (n : Nat) : List UsageLedgerRow := (List.range n).map fun i => ⟨BitVec.ofNat 128 i, 1, 0⟩

def completions (n : Nat) : List Op :=
  (List.range n).map fun i => .recordReportedCompleteUsage true (BitVec.ofNat 128 i) 0

/-- A first period with `n` jobs, and its renewal. -/
def busy (n : Nat) : List Op := .project first :: (completions n ++ [.project second])

theorem step_first : start.step (.project first) = opened [] := by decide +kernel

theorem rows_succ (n : Nat) : rows (n + 1) = rows n ++ [⟨BitVec.ofNat 128 n, 1, 0⟩] := by
  simp [rows, range_succ]

theorem completions_succ (n : Nat) : completions (n + 1) =
    completions n ++ [.recordReportedCompleteUsage true (BitVec.ofNat 128 n) 0] := by
  simp [completions, range_succ]

variable {n : Nat}

theorem new_job (hn : n < 2 ^ 128) : ∀ row ∈ rows n, row.jobId ≠ BitVec.ofNat 128 n := by
  intro row hrow
  obtain ⟨i, hi, rfl⟩ := mem_map.mp hrow
  have hlt := mem_range.mp hi
  intro heq
  have := congrArg BitVec.toNat heq
  simp only [BitVec.toNat_ofNat] at this
  rw [Nat.mod_eq_of_lt (hlt.trans hn), Nat.mod_eq_of_lt hn] at this
  omega

theorem exec_completions (hn : n ≤ 2 ^ 128) :
    Run.exec BillingRecords.step (opened []) (completions n) = opened (rows n) := by
  induction n with
  | zero => rfl
  | succ n ih =>
    rw [completions_succ, Run.exec_append, ih (by omega), rows_succ]
    have hnew := new_job (n := n) (by omega)
    simp only [Run.exec_cons, Run.exec_nil, BillingRecords.step, recordReportedCompleteUsage]
    rw [if_pos]
    · rfl
    · simpa [opened] using hnew

theorem metered_rows (n : Nat) : metered (rows n) 0 1000000000 = rows n := by
  refine filter_eq_self.mpr fun row hrow => ?_
  obtain ⟨i, -, rfl⟩ := mem_map.mp hrow
  rfl

theorem acceptedJobs_rows (n : Nat) : acceptedJobs (rows n) = n := by
  induction n with
  | zero => rfl
  | succ n ih =>
    rw [rows_succ, acceptedJobs, map_append, sum_append]
    rw [acceptedJobs] at ih
    simp [ih]

/-- The export of the first period. -/
def firstExport (n : Nat) : UsageExport :=
  ⟨0, 1000000000, (n - 25000 + overageBlockJobs - 1) / overageBlockJobs, 0, rows n⟩

theorem snapshot_second (hn : 25000 < n) :
    ((opened (rows n)).bindCustomer second).snapshotPreviousUsagePeriod second =
      .ok (((opened (rows n)).bindCustomer second).withExports [firstExport n]) := by
  have hmore : ¬n ≤ includedJobs (planEntitlement .pro) .monthly := Nat.not_le.mpr hn
  have hexport : ((opened (rows n)).bindCustomer second).insertExport (planEntitlement .pro)
      .monthly 0 1000000000 (timestamp 0) =
        .ok (((opened (rows n)).bindCustomer second).withExports [firstExport n]) := by
    unfold insertExport
    dsimp only [bindCustomer, opened]
    rw [metered_rows, acceptedJobs_rows, if_neg hmore]
    rfl
  exact hexport

theorem step_second (hn : 25000 < n) : ((opened (rows n)).step (.project second)).ledger = rows n ∧
      ((opened (rows n)).step (.project second)).exports = [firstExport n] := by
  have hproj : ((opened (rows n)).bindCustomer second).projectSubscription second =
      .ok ((((opened (rows n)).bindCustomer second).withExports [firstExport n]).upsertSubscription
        second .pro .active) := by
    unfold projectSubscription
    rw [snapshot_second hn]
    rfl
  have hstep : (opened (rows n)).step (.project second) =
      ((((opened (rows n)).bindCustomer second).withExports [firstExport n]).upsertSubscription
        second .pro .active).addReceipt second := by
    simp only [BillingRecords.step, projectStripeBillingEvent, hproj]
    rfl
  rw [hstep]
  exact upsertSubscription_frame second .pro .active

theorem exec_busy (hn : 25000 < n) (hn' : n ≤ 2 ^ 128) :
    (Run.exec BillingRecords.step start (busy n)).ledger = rows n ∧
      (Run.exec BillingRecords.step start (busy n)).exports = [firstExport n] := by
  rw [busy, Run.exec_cons, step_first, Run.exec_append, exec_completions hn', Run.exec_cons,
    Run.exec_nil]
  exact step_second hn

theorem meets_completions (hn : n ≤ 2 ^ 128) :
    Run.Meets BillingRecords.step (fun s op => Consecutive seconds op ∧ OnTime seconds s op)
      (opened []) (completions n) := by
  induction n with
  | zero => trivial
  | succ n ih =>
    rw [completions_succ, Run.meets_append, exec_completions (by omega)]
    refine ⟨ih (by omega), ⟨trivial, fun _ _ => ⟨le_rfl, ?_⟩⟩, trivial⟩
    simp [opened, start, initial]

theorem meets_busy (hn : n ≤ 2 ^ 128) :
    Run.Meets BillingRecords.step (fun s op => Consecutive seconds op ∧ OnTime seconds s op)
      start (busy n) := by
  refine ⟨⟨.inr ⟨0, rfl, rfl⟩, trivial⟩, ?_⟩
  rw [step_first, Run.meets_append]
  exact ⟨meets_completions hn, ⟨.inr ⟨1, rfl, rfl⟩, trivial⟩, trivial⟩

/-- The first period is the one that its jobs fall in. -/
theorem period_of_early {t : Int} (hearly : t < 1000000000) {k : Nat}
    (hstart : seconds.boundary k ≤ t) : k = 0 := by
  simp only [seconds] at hstart
  omega

theorem mem_rows {row : UsageLedgerRow} (h : row ∈ rows n) : row.occurredAt = 0 := by
  obtain ⟨i, -, rfl⟩ := mem_map.mp h
  rfl

end Sample

open Sample

/-- One job more than the plan includes: the first job is billed once. -/
theorem usage_billed_once_busy :
    ∃ e, (Run.exec BillingRecords.step start (busy 25001)).exports.filter
        (fun e => e.counted.contains ⟨0, 1, 0⟩) = [e] ∧ e.periodStart ≤ 0 ∧ 0 < e.periodEnd := by
  obtain ⟨hled, hexp⟩ := exec_busy (n := 25001) (by decide) (by decide)
  refine usage_billed_once seconds ["workspace"] (some (planEntitlement .free))
    (busy 25001) (meets_busy (by decide)) ?_ ⟨0, 1, 0⟩ ?_
  · intro row hrow k hstart _
    have hrow : row ∈ rows 25001 := hled ▸ hrow
    obtain rfl := period_of_early (by rw [mem_rows hrow]; decide) hstart
    exact ⟨firstExport 25001, hexp ▸ List.mem_singleton_self _, rfl, rfl⟩
  · exact hled ▸ List.mem_map.mpr ⟨0, List.mem_range.mpr (by decide), rfl⟩

namespace Sample

/-- A job of the first period that is reported after the renewal. -/
def late (n : Nat) : List Op :=
  busy n ++ [.recordReportedCompleteUsage true (BitVec.ofNat 128 n) 5]

variable {n : Nat}

theorem exec_late (hn : 25000 < n) (hn' : n < 2 ^ 128) :
    (Run.exec BillingRecords.step start (late n)).ledger = rows n ++ [⟨BitVec.ofNat 128 n, 1, 5⟩] ∧
      (Run.exec BillingRecords.step start (late n)).exports = [firstExport n] := by
  obtain ⟨hled, hexp⟩ := exec_busy hn hn'.le
  rw [late, Run.exec_append, Run.exec_cons, Run.exec_nil]
  have hnew : (true && !((Run.exec BillingRecords.step start (busy n)).ledger.any
      fun row => row.jobId == BitVec.ofNat 128 n)) = true := by
    rw [hled]
    simpa using new_job hn'
  simp only [BillingRecords.step, recordReportedCompleteUsage]
  rw [if_pos hnew]
  exact ⟨congrArg (· ++ _) hled, hexp⟩

theorem late_not_counted (n : Nat) :
    (firstExport n).counted.contains ⟨BitVec.ofNat 128 n, 1, 5⟩ = false := by
  rw [← Bool.not_eq_true, contains_iff_mem]
  intro hmem
  have hzero : (5 : Int) = 0 := mem_rows hmem
  omega

theorem late_consecutive (n : Nat) : ∀ op ∈ late n, Consecutive seconds op := by
  intro op hop
  simp only [late, busy, completions, cons_append, mem_cons, mem_append,
    mem_map, not_mem_nil, or_false] at hop
  rcases hop with rfl | (⟨i, -, rfl⟩ | rfl) | rfl
  · exact .inr ⟨0, rfl, rfl⟩
  · trivial
  · exact .inr ⟨1, rfl, rfl⟩
  · trivial

theorem late_exported (hn : 25000 < n) (hn' : n < 2 ^ 128) :
    ∀ row ∈ (Run.exec BillingRecords.step start (late n)).ledger, ∀ k,
      seconds.boundary k ≤ row.occurredAt → row.occurredAt < seconds.boundary (k + 1) →
        ∃ e ∈ (Run.exec BillingRecords.step start (late n)).exports,
          e.periodStart = seconds.boundary k ∧ e.periodEnd = seconds.boundary (k + 1) := by
  obtain ⟨hled, hexp⟩ := exec_late hn hn'
  rw [hled, hexp]
  intro row hrow k hstart _
  have hearly : row.occurredAt < (1000000000 : Int) := by
    refine forall_mem_concat (P := (·.occurredAt < 1000000000)) (fun row hrow => ?_)
      (show (5 : Int) < 1000000000 by decide) row hrow
    rw [mem_rows hrow]
    decide
  obtain rfl := period_of_early hearly hstart
  exact ⟨firstExport n, mem_singleton_self _, rfl, rfl⟩

theorem late_unbilled (hn : 25000 < n) (hn' : n < 2 ^ 128) :
    ∃ row ∈ (Run.exec BillingRecords.step start (late n)).ledger,
      (Run.exec BillingRecords.step start (late n)).exports.filter
        (fun e => e.counted.contains row) = [] := by
  obtain ⟨hled, hexp⟩ := exec_late hn hn'
  rw [hled, hexp]
  refine ⟨⟨BitVec.ofNat 128 n, 1, 5⟩, by simp, ?_⟩
  rw [filter_cons_of_neg (by rw [late_not_counted]; decide), filter_nil]

end Sample

/-- A job of the first period that is reported after the renewal is in the ledger, its
period is exported, as that of every row is, and the job is in no total. -/
theorem late_report_is_not_billed : (∀ op ∈ late 25001, Consecutive seconds op) ∧
    (∀ row ∈ (Run.exec BillingRecords.step start (late 25001)).ledger, ∀ k,
      seconds.boundary k ≤ row.occurredAt → row.occurredAt < seconds.boundary (k + 1) →
          ∃ e ∈ (Run.exec BillingRecords.step start (late 25001)).exports,
            e.periodStart = seconds.boundary k ∧ e.periodEnd = seconds.boundary (k + 1)) ∧
    ∃ row ∈ (Run.exec BillingRecords.step start (late 25001)).ledger,
      (Run.exec BillingRecords.step start (late 25001)).exports.filter
        (fun e => e.counted.contains row) = [] :=
  ⟨late_consecutive 25001, late_exported (by decide) (by decide),
    late_unbilled (by decide) (by decide)⟩

end BillingRecords

end Piqae.Server
