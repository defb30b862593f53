/-
Piqae/Server/Turns.lean

The order in which the jobs of a physical destination are begun.

`begin_delivery_attempt` refuses a job while an older job of the destination is
still to be begun.  Which older jobs are is read off their latest attempt: one
whose lease ran out, or which ended before the handoff, counts as if its job were
done with the destination.  So a job is begun in its turn just if no older job
that still waits has lost its attempt.
-/
import Piqae.Server.Leases
import Piqae.Server.Acceptance

namespace Piqae.Server

open SortedMap

namespace PostgresStore

variable {s s' : PostgresStore} {now : DateTime} {digest : String → String}
  {request : NewDeliveryAttempt}

/-! ### Who is to be begun -/

/-- Has the native spooler had the attempt, or may it have? -/
def reachedSpooler (attempt : DeliveryAttempt) : Bool :=
  attempt.spoolerAcceptedAt.isSome || attempt.state == .acceptedBySpooler ||
    attempt.state == .printingReported || attempt.state == .completedReported ||
    attempt.state == .deliveryUncertain

/-- The job waits for the destination: no node has accepted it, and no spooler
has had it. -/
structure Eligible (s : PostgresStore) (now : DateTime) (destinationId jobId : String)
    (job : JobRow) : Prop where
  found : s.jobs.get? jobId = some job
  destination : job.destinationId = some destinationId
  waiting : job.state = .waitingForAgent ∨ job.state = .failedRetryable
  unexpired : now < job.expiresAt
  unaccepted : s.acceptances.contains jobId = false
  unspooled : ∀ attempt ∈ s.attempts.values, attempt.jobId = jobId → reachedSpooler attempt = false

/-- The order of jobs: by creation, then by identifier. -/
def Before (olderId : String) (older : JobRow) (jobId : String) (job : JobRow) : Prop :=
  older.createdAt < job.createdAt ∨ older.createdAt = job.createdAt ∧ olderId < jobId

/-- No other job that waits for the destination comes before the one requested. -/
def InTurn (s : PostgresStore) (now : DateTime) (request : NewDeliveryAttempt) : Prop :=
  ∀ job, s.jobs.get? request.jobId = some job → ∀ olderId older,
    s.Eligible now request.destinationId olderId older → olderId ≠ request.jobId →
      ¬Before olderId older request.jobId job

/-- A route lease for the destination that has run out. -/
def lapsed (now : DateTime) (destinationId : String) (attempt : DeliveryAttempt) : Bool :=
  attempt.destinationId == destinationId && attempt.state == .routeLeased &&
    attempt.finalAt.isNone && decide (attempt.leaseUntil ≤ now)

/-- The latest attempt of the job has come to nothing: it ended before the handoff,
or its lease has run out. -/
def LostAttempt (s : PostgresStore) (now : DateTime) (destinationId jobId : String) : Prop :=
  ∃ attempt, s.latestAttempt jobId = some attempt ∧
    (attempt.2.state = .superseded ∨ attempt.2.state = .cancelled ∨ attempt.2.state = .failed ∨
      lapsed now destinationId attempt.2 = true)

/-! ### The check -/

/-- An update that keeps jobs and generations keeps which attempt is the latest. -/
theorem latestWhere_mapValues {p : DeliveryAttempt → Bool} {f : DeliveryAttempt → DeliveryAttempt}
    (hatts : s'.attempts = s.attempts.mapValues fun _ => f) (hp : ∀ a, p (f a) = p a)
    (hgen : ∀ a, (f a).generation = a.generation) :
    s'.latestWhere p = (s.latestWhere p).map fun e => (e.1, f e.2) := by
  have hvalues : s'.attempts.values = s.attempts.values.map f := by
    simp [hatts, SortedMap.values, SortedMap.mapValues]
  unfold latestWhere SortedMap.findEntry?
  rw [hvalues]
  simp only [hatts, SortedMap.mapValues, List.find?_map, Function.comp_def, hp, hgen, List.all_map]

theorem latestAttempt_supersedeStale (destinationId jobId : String) :
    (s.supersedeStale now destinationId).latestAttempt jobId =
      (s.latestAttempt jobId).map fun e => (e.1,
        if lapsed now destinationId e.2 then e.2.advance .superseded now else e.2) := by
  refine latestWhere_mapValues (f := fun attempt =>
    if lapsed now destinationId attempt then attempt.advance .superseded now else attempt) rfl ?_ ?_
  · intro attempt
    split_ifs <;> rfl
  · intro attempt
    split_ifs <;> rfl

theorem latestAttempt_mem {jobId : String} {e : String × DeliveryAttempt}
    (h : s.latestAttempt jobId = some e) : e.2 ∈ s.attempts.values ∧ e.2.jobId = jobId := by
  unfold latestAttempt latestWhere at h
  obtain ⟨hmem, hlatest⟩ := findEntry?_some h
  refine ⟨mem_values.mpr ⟨e.1, hmem⟩, ?_⟩
  simp only [Bool.and_eq_true, beq_iff_eq] at hlatest
  exact hlatest.1

/-- Where no older job is to be begun, the older jobs that wait have lost their
attempts. -/
theorem lostAttempt_of_before {job older : JobRow} {olderId : String}
    (hcheck : olderEligibleJob ((s.directed request).supersedeStale now request.destinationId) now
      request.destinationId request.jobId job.createdAt = false)
    (hel : s.Eligible now request.destinationId olderId older)
    (hne : olderId ≠ request.jobId) (hbef : Before olderId older request.jobId job) :
    s.LostAttempt now request.destinationId olderId := by
  have hmem : (olderId, older) ∈ (s.directed request).jobs.entries := by
    refine get?_eq_some_iff.mp ?_
    rw [directed, putJob, get?_modify, if_neg hne]
    exact hel.found
  have hpass := List.any_eq_false.mp hcheck (olderId, older) hmem
  have hlatest : ((s.directed request).supersedeStale now request.destinationId).latestAttempt
        olderId = (s.latestAttempt olderId).map fun e => (e.1,
      if lapsed now request.destinationId e.2 then e.2.advance .superseded now else e.2) :=
    latestAttempt_supersedeStale request.destinationId olderId
  have horder : (decide (older.createdAt < job.createdAt) ||
      older.createdAt == job.createdAt && decide (olderId < request.jobId)) = true := by
    simpa [Before] using hbef
  have hst : (older.state == .waitingForAgent || older.state == .failedRetryable) = true := by
    simpa using hel.waiting
  simp only [hel.destination, beq_self_eq_true, bne_iff_ne.mpr hne, horder, hst,
    decide_eq_true hel.unexpired, Bool.true_and, hlatest] at hpass
  cases hfound : s.latestAttempt olderId with
  | none => simp [hfound] at hpass
  | some e =>
    refine ⟨e, hfound, ?_⟩
    obtain ⟨hval, hjobId⟩ := latestAttempt_mem hfound
    have hspooler := hel.unspooled e.2 hval hjobId
    simp only [hfound, Option.map_some, Bool.not_eq_true', Bool.not_eq_false] at hpass
    by_cases hlapsed : lapsed now request.destinationId e.2 = true
    · exact .inr (.inr (.inr hlapsed))
    -- an attempt that is past the check and has not reached the spooler has ended
    · rw [if_neg hlapsed] at hpass
      revert hpass hspooler
      unfold reachedSpooler
      cases e.2.state <;> simp [passed, DeliveryAttemptState.isFinal]

/-- **First in, first out**: a job that is begun comes before every other job that
waits for the destination, just if no older job that waits has lost its latest
attempt. -/
theorem begun_in_turn_iff (s s' : PostgresStore) (now : DateTime) (digest : String → String)
    (token : String) (request : NewDeliveryAttempt) (started : StartedDeliveryAttempt)
    (h : s.beginDeliveryAttempt now digest token request = .ok (started, s')) :
    s.InTurn now request ↔ ∀ job, s.jobs.get? request.jobId = some job → ∀ olderId older,
        s.Eligible now request.destinationId olderId older → olderId ≠ request.jobId →
          Before olderId older request.jobId job →
            ¬s.LostAttempt now request.destinationId olderId := by
  obtain ⟨job, -, hjob, hcheck, -⟩ := beginDeliveryAttempt_ok h
  constructor
  · intro hturn found hfound olderId older hel hne hbef
    exact absurd hbef (hturn found hfound olderId older hel hne)
  · intro hkept found hfound olderId older hel hne hbef
    cases hjob.symm.trans hfound
    exact hkept job hjob olderId older hel hne hbef (lostAttempt_of_before hcheck hel hne hbef)

/-! ### Two jobs for one destination -/

/-- A node with a route to the destination, and two jobs in its queue. -/
def twoJobs : List ServerOp :=
  [.request (.enrolAgent "agent"),
    .request (.upsertRoute "route" ⟨"printer", "agent", some "office", true, false⟩),
    .request (.createCloudJob "job-1" "agent" (some ("printer", "route")) .uri .registered 1 1000),
    .transitionJob 2 "job-1" .waitingForAgent,
    .request (.createCloudJob "job-2" "agent" (some ("printer", "route")) .uri .registered 3 1000),
    .transitionJob 4 "job-2" .waitingForAgent]

/-- The older job is begun, and its lease runs out at 30. -/
def olderBegun : List ServerOp :=
  twoJobs ++
    [.request (.beginDeliveryAttempt 10 "t1" ⟨"a1", "r1", "job-1", "printer", "route", 30⟩)]

def secondRequest : NewDeliveryAttempt := ⟨"a2", "r2", "job-2", "printer", "route", 90⟩

theorem begun_in_turn_iff_alone :
    let s := Run.exec (serve id fun _ => none) empty twoJobs
    ∃ started s', s.beginDeliveryAttempt 40 id "t1" ⟨"a1", "r1", "job-1", "printer", "route", 90⟩ =
        .ok (started, s') ∧ s.InTurn 40 ⟨"a1", "r1", "job-1", "printer", "route", 90⟩ := by
  intro s
  have hok : (s.beginDeliveryAttempt 40 id "t1"
      ⟨"a1", "r1", "job-1", "printer", "route", 90⟩).isOk = true := by decide +kernel
  cases hres : s.beginDeliveryAttempt 40 id "t1" ⟨"a1", "r1", "job-1", "printer", "route", 90⟩ with
  | error error => simp [hres, Except.isOk, Except.toBool] at hok
  | ok result =>
    refine ⟨result.1, result.2, rfl,
      (begun_in_turn_iff s result.2 40 id "t1" _ result.1 hres).mpr ?_⟩
    rintro job - olderId older hel - - ⟨attempt, hatt, -⟩
    have hnone : s.attempts.values = [] := by decide +kernel
    have hmem := (latestAttempt_mem hatt).1
    rw [hnone] at hmem
    cases hmem

/-- The lease of the older job has run out.  The younger one is begun, and the
older one still waits. -/
theorem older_job_overtaken :
    let s := Run.exec (serve id fun _ => none) empty olderBegun
    (s.beginDeliveryAttempt 40 id "t2" secondRequest).isOk = true ∧ ¬s.InTurn 40 secondRequest := by
  intro s
  refine ⟨by decide +kernel, fun hturn => ?_⟩
  have hfst : s.jobs.get? "job-1" = some ⟨"agent", some "printer", .uri, .waitingForAgent, 1, 1000,
    none, none, none, none⟩ := by decide +kernel
  have hsnd : s.jobs.get? "job-2" = some ⟨"agent", some "printer", .uri, .waitingForAgent, 3, 1000,
    none, none, none, none⟩ := by decide +kernel
  have hel : s.Eligible 40 secondRequest.destinationId "job-1"
      ⟨"agent", some "printer", .uri, .waitingForAgent, 1, 1000, none, none, none, none⟩ :=
    ⟨hfst, rfl, .inl rfl, by decide, by decide +kernel, by decide +kernel⟩
  exact hturn _ hsnd "job-1" _ hel (by decide) (.inl (by decide))

end PostgresStore

end Piqae.Server
