/-
Piqae/Queue/Rows.lean

What the operations of the queue do to the row and to the acceptance intent of
each job.

A row keeps what identifies its job for ever; only its state moves.  An
operation is quiet, moves one job with an event (`Moves`), or belongs to the
acceptance of cloud jobs, and then it writes the row and the intent of a job
together (`Prepares`, `Confirms`, `Activates`, `Releases`).
-/
import Piqae.Queue.Moves

namespace Piqae

open SortedMap List

/-- What never changes about the row of a job. -/
def LocalJob.identity (job : LocalJob) : AcceptedJob × Nat := (job.accepted, job.printerSequence)

namespace AgentStore

variable {s s' s'' : AgentStore} {jobId : String} {job : LocalJob}
  {state source target : JobState} {reason message : Option String} {change : LocalJob → LocalJob}
  {cloud : Option Bool} {lease : CloudLease} {now : Int} {nextObserve : Int}
  {guard : LocalJob → Bool} {refusal : StorageError} {facts : JobPersistenceFacts}
  {nativeState nativeJobId connectorId failure detail : String} {errorCode : Option String}
  {sequence limit : Nat} {deadline nextAttempt : Int} {recovery : HandoffRecovery}
  {item : ReconciliationItem}

def identityOf (s : AgentStore) (jobId : String) : Option (AcceptedJob × Nat) :=
  (s.getJob jobId).map LocalJob.identity

theorem identityOf_congr (h : s'.jobs = s.jobs) : s'.identityOf = s.identityOf := by
  funext jobId
  simp only [identityOf, getJob, h]

theorem identityOf_of_getJob (h : s.getJob jobId = some job) :
    s.identityOf jobId = some job.identity := by
  rw [identityOf, h]
  rfl

theorem identityOf_putJob (job : LocalJob) : (s.putJob job).identityOf jobId =
      if jobId = job.jobId then some job.identity else s.identityOf jobId := by
  rw [identityOf, getJob_putJob]
  split <;> rfl

section

variable (hk : s.Keyed)

include hk

/-- A row written over one of the same identity. -/
theorem identityOf_putJob_of_same {job' : LocalJob} (hjob : s.getJob jobId = some job)
    (h : job'.identity = job.identity) (id : String) :
    (s.putJob job').identityOf id = s.identityOf id := by
  have hid : job'.jobId = jobId := by
    rw [← hk jobId job hjob]
    exact congrArg (AcceptedJob.jobId ∘ Prod.fst) h
  rw [identityOf_putJob, hid]
  split
  · next heq => rw [heq, h, identityOf_of_getJob hjob]
  · rfl

/-! ### Quiet operations -/

/-- No job moves, and no event is recorded. -/
structure Quiet (s s' : AgentStore) : Prop where
  states : s'.stateOf = s.stateOf
  identities : s'.identityOf = s.identityOf
  intents : s'.intents = s.intents
  events : s'.events = s.events
  keyed : s'.Keyed

theorem Quiet.of_jobs (hjobs : s'.jobs = s.jobs) (hints : s'.intents = s.intents)
    (hevs : s'.events = s.events) : Quiet s s' :=
  ⟨stateOf_congr hjobs, identityOf_congr hjobs, hints, hevs, hk.congr hjobs⟩

theorem Quiet.refl : Quiet s s := .of_jobs hk rfl rfl rfl

theorem recordReconciliationAttempt_quiet
    (h : s.recordReconciliationAttempt jobId nativeState errorCode nextObserve = .ok s') :
    Quiet s s' := by
  unfold recordReconciliationAttempt at h
  split at h
  · cases h
  · cases h
    exact .of_jobs hk rfl rfl rfl

theorem scheduleCancel_quiet (observed : Int) : Quiet s (s.scheduleCancel jobId observed) := by
  unfold scheduleCancel
  split
  · exact .refl hk
  · exact .of_jobs hk rfl rfl rfl

theorem finalizeUncertainCloudHandoffRecovery_quiet
    (h : s.finalizeUncertainCloudHandoffRecovery jobId = .ok s') : Quiet s s' := by
  unfold finalizeUncertainCloudHandoffRecovery at h
  split at h
  · cases h
    exact .of_jobs hk rfl rfl rfl
  · cases h

theorem backfillCloudRouteOwner_quiet
    (h : s.backfillCloudRouteOwner jobId connectorId = .ok s') : Quiet s s' := by
  unfold backfillCloudRouteOwner at h
  split_ifs at h
  split at h
  · next job hjob =>
    split at h
    · cases h
      have hid : job.jobId = jobId := hk _ _ hjob
      refine ⟨?_, ?_, rfl, rfl, hk.putJob _⟩
      · funext other
        rw [stateOf_putJob]
        split
        · next heq =>
          have hother : other = jobId := heq.trans hid
          rw [hother, stateOf_of_getJob hjob]
        · rfl
      · funext other
        apply identityOf_putJob_of_same hk hjob
        rfl
    split at h
    · cases h
      exact .refl hk
    · cases h
  · cases h

/-! ### Moves -/

/-- One job has moved to a state and an event says so; nothing else about any
job has changed. -/
structure Moves (s s' : AgentStore) (jobId : String) (state : JobState) : Prop
    extends Appends s s' jobId state where
  identities : s'.identityOf = s.identityOf
  intents : s'.intents = s.intents

/-- The change leaves the identity and the state of a job. -/
abbrev Incidental (change : LocalJob → LocalJob) : Prop :=
  ∀ job, (change job).identity = job.identity ∧ (change job).state = job.state

theorem moveJob_moves (h : s.moveJob jobId guard state reason message change refusal = .ok s')
    (hch : Incidental change) : Moves s s' jobId state := by
  have happends := moveJob_appends hk h
    (fun job => congrArg (AcceptedJob.jobId ∘ Prod.fst) (hch job).1) fun job => (hch job).2
  refine ⟨happends, ?_, ?_⟩
  · obtain ⟨job, hjob, -, rfl⟩ := moveJob_ok h
    have hk' : (s.appendEventTx jobId state reason message).Keyed := hk.congr rfl
    funext other
    show _ = (s.appendEventTx jobId state reason message).identityOf other
    apply identityOf_putJob_of_same hk' hjob
    exact (hch _).1
  · obtain ⟨job, -, -, rfl⟩ := moveJob_ok h
    rfl

theorem appendEvent_moves
    (h : s.appendEvent jobId sequence state reason message = .ok s') : Moves s s' jobId state := by
  unfold appendEvent at h
  split_ifs at h
  · exact moveJob_moves hk h fun _ => ⟨rfl, rfl⟩

omit hk in
theorem Moves.congr (h : Moves s s' jobId state) (hjobs : s''.jobs = s'.jobs)
    (hevs : s''.events = s'.events) (hset : s''.settings = s'.settings)
    (hints : s''.intents = s'.intents) : Moves s s'' jobId state :=
  ⟨h.toAppends.congr hjobs hevs hset, (identityOf_congr hjobs).trans h.identities,
    hints.trans h.intents⟩

omit hk in
/-- The row that has moved. -/
theorem Moves.row (h : Moves s s' jobId state) :
    ∃ job job', s.getJob jobId = some job ∧ s'.getJob jobId = some job' ∧
      job'.identity = job.identity ∧ job'.state = .known state := by
  obtain ⟨before, hbef⟩ := Option.isSome_iff_exists.mp h.existed
  obtain ⟨job, hjob, -⟩ := stateOf_eq_some.mp hbef
  obtain ⟨job', hjob', hst⟩ := stateOf_eq_some.mp h.moved
  refine ⟨job, job', hjob, hjob', ?_, hst⟩
  have hid := congrFun h.identities jobId
  rw [identityOf_of_getJob hjob, identityOf_of_getJob hjob'] at hid
  exact Option.some.inj hid

/-- A transaction moves a job out of one state, which it has checked. -/
structure Settles (s s' : AgentStore) (jobId : String) (source target : JobState)
    (cloud : Option Bool) : Prop extends Moves s s' jobId target where
  left : ∃ job, s.getJob jobId = some job ∧ job.state = .known source ∧
    ∀ managed ∈ cloud, job.cloudManaged = managed

theorem moveJob_settles (h : s.moveJob jobId guard target reason message change refusal = .ok s')
    (hguard : ∀ job, guard job = true → job.state = .known source ∧
      ∀ managed ∈ cloud, job.cloudManaged = managed) (hch : Incidental change) :
    Settles s s' jobId source target cloud := by
  obtain ⟨job, hjob, hok, -⟩ := moveJob_ok h
  exact ⟨moveJob_moves hk h hch, job, hjob, hguard job hok⟩

omit hk in
theorem Settles.congr (h : Settles s s' jobId source target cloud) (hjobs : s''.jobs = s'.jobs)
    (hevs : s''.events = s'.events) (hset : s''.settings = s'.settings)
    (hints : s''.intents = s'.intents) : Settles s s'' jobId source target cloud :=
  ⟨h.toMoves.congr hjobs hevs hset hints, h.left⟩

omit hk in
theorem Settles.source_eq (h : Settles s s' jobId source target cloud) :
    s.stateOf jobId = some (.known source) := by
  obtain ⟨job, hjob, hst, -⟩ := h.left
  rw [stateOf_of_getJob hjob, hst]

theorem recordNativeAcceptance_settles
    (h : s.recordNativeAcceptance jobId nativeJobId nextObserve deadline = .ok s') :
    Settles s s' jobId .spoolIntent .acceptedBySpooler none := by
  obtain ⟨accepted, hmove, h⟩ := Except.bind_eq_ok h
  cases h
  have hset : Settles s accepted jobId .spoolIntent .acceptedBySpooler none :=
    moveJob_settles hk hmove (fun job hguard => ⟨of_decide_eq_true hguard, nofun⟩)
      fun _ => ⟨rfl, rfl⟩
  exact hset.congr rfl rfl rfl rfl

theorem recordLocalRetryableFailure_settles
    (h : s.recordLocalRetryableFailure jobId failure detail nextAttempt = .ok s') :
    Settles s s' jobId .spoolIntent .failedRetryable (some false) :=
  moveJob_settles hk h (fun _ hguard => by simpa using hguard) fun _ => ⟨rfl, rfl⟩

theorem recordLocalHandoffUncertainty_settles (h : s.recordLocalHandoffUncertainty jobId = .ok s') :
    Settles s s' jobId .spoolIntent .deliveryUncertain (some false) :=
  moveJob_settles hk h (fun _ hguard => by simpa using hguard) fun _ => ⟨rfl, rfl⟩

theorem resolveUncertainLocalHandoff_settles {ambiguityId : String}
    {resolution : LocalHandoffResolution} {reason message refusal : String}
    (h : s.resolveUncertainLocalHandoff jobId ambiguityId resolution state reason message change
      refusal = .ok s') (hch : Incidental change) :
    Settles s s' jobId .deliveryUncertain state (some false) := by
  obtain ⟨moved, hmove, h⟩ := Except.bind_eq_ok h
  have hset : Settles s moved jobId .deliveryUncertain state (some false) :=
    moveJob_settles hk hmove (fun _ hguard => by simpa using hguard) hch
  split_ifs at h
  · cases h
    exact hset.congr rfl rfl rfl rfl

theorem recordCloudHandoffRecovery_settles
    (h : s.recordCloudHandoffRecovery jobId recovery failure detail = .ok s') :
    Settles s s' jobId .spoolIntent recovery.state (some true) := by
  obtain ⟨recovered, hmove, h⟩ := Except.bind_eq_ok h
  have hset : Settles s recovered jobId .spoolIntent recovery.state (some true) :=
    moveJob_settles hk hmove (fun _ hguard => by simpa using hguard) fun _ => ⟨rfl, rfl⟩
  cases h
  cases recovery
  · exact hset.congr rfl rfl rfl rfl
  · exact hset

theorem releaseUncertainCloudHandoffForRetry_settles
    (h : s.releaseUncertainCloudHandoffForRetry jobId = .ok s') :
    Settles s s' jobId .deliveryUncertain .failedRetryable (some true) := by
  obtain ⟨released, hmove, h⟩ := Except.bind_eq_ok h
  have hset : Settles s released jobId .deliveryUncertain .failedRetryable (some true) :=
    moveJob_settles hk hmove (fun _ hguard => by simpa using hguard) fun _ => ⟨rfl, rfl⟩
  cases h
  exact hset.congr rfl rfl rfl rfl

/-! ### Acceptance -/

/-- The intent to accept a lease for a job. -/
def CloudLease.intentFor (lease : CloudLease) (job : LocalJob) (confirmed : Bool) :
    CloudAcceptIntent where
  leaseId := lease.leaseId
  leaseToken := lease.leaseToken
  leaseExpiresUnixMs := lease.leaseExpiresUnixMs
  contentSha256 := job.accepted.contentSha256
  localSequence := job.printerSequence
  proof := lease.proof
  remoteAcceptConfirmed := confirmed

omit hk in
theorem upsertCloudAcceptIntent_intents (h : s.upsertCloudAcceptIntent job lease = .ok s') :
    s'.intents = s.intents.insert job.jobId (lease.intentFor job
        ((s.intents.get? job.jobId).any (·.remoteAcceptConfirmed))) ∧
      ∀ intent, s.intents.get? job.jobId = some intent → intent.remoteAcceptConfirmed = true →
        cloudAcceptEvidenceMatches intent job lease = true := by
  simp only [upsertCloudAcceptIntent] at h
  split_ifs at h with hguard
  cases h
  refine ⟨rfl, ?_⟩
  intro intent hget hconf
  rw [hget] at hguard
  simpa [hconf] using hguard

/-- Nothing about the other jobs has changed. -/
structure OnlyJob (s s' : AgentStore) (jobId : String) : Prop where
  rows : ∀ other, other ≠ jobId → s'.getJob other = s.getJob other
  intents : ∀ other, other ≠ jobId → s'.intents.get? other = s.intents.get? other
  keyed : s'.Keyed

theorem OnlyJob.of_putJob (job : LocalJob) (hjobs : s'.jobs = (s.putJob job).jobs)
    (hints : ∀ other, other ≠ job.jobId → s'.intents.get? other = s.intents.get? other) :
    OnlyJob s s' job.jobId := by
  refine ⟨?_, hints, (hk.putJob job).congr hjobs⟩
  intro other hother
  rw [getJob, hjobs]
  exact get?_insert_ne hother

/-- A job is pending under a lease: it is new, it was pending before, or it is
tried again. -/
structure Prepares (s s' : AgentStore) (job : AcceptedJob) (lease : CloudLease)
    (row : LocalJob) (confirmed : Bool) : Prop extends OnlyJob s s' job.jobId where
  written : s'.getJob job.jobId = some row
  pending : row.state = .cloudAcceptPending
  managed : row.cloudManaged = true
  digest : row.accepted.contentSha256 = job.contentSha256
  before : s.getJob job.jobId = none ∨ ∃ old, s.getJob job.jobId = some old ∧
    old.identity = row.identity ∧
      (old.state = .cloudAcceptPending ∨ old.state = .known .failedRetryable)
  intent : s'.intents.get? job.jobId = some (lease.intentFor row confirmed)
  kept : s.stateOf job.jobId = some .cloudAcceptPending → ∀ intent,
    s.intents.get? job.jobId = some intent → intent.remoteAcceptConfirmed = true →
      confirmed = true ∧ cloudAcceptEvidenceMatches intent row lease = true
  events : s'.events = s.events

theorem upsertCloudAcceptIntent_prepares {t : AgentStore} {job : AcceptedJob} {row : LocalJob}
    (hid : row.jobId = job.jobId) (hjobs : t.jobs = (s.putJob row).jobs)
    (hevs : t.events = s.events)
    (hints : ∀ other, other ≠ job.jobId → t.intents.get? other = s.intents.get? other)
    (hkept : s.stateOf job.jobId = some .cloudAcceptPending → t.intents = s.intents)
    (h : t.upsertCloudAcceptIntent row lease = .ok s')
    (hpend : row.state = .cloudAcceptPending) (hmg : row.cloudManaged = true)
    (hdig : row.accepted.contentSha256 = job.contentSha256)
    (hbef : s.getJob job.jobId = none ∨ ∃ old, s.getJob job.jobId = some old ∧
      old.identity = row.identity ∧
        (old.state = .cloudAcceptPending ∨ old.state = .known .failedRetryable)) :
    ∃ confirmed, Prepares s s' job lease row confirmed := by
  obtain ⟨hjobs', hevs', -⟩ := upsertCloudAcceptIntent_ok h
  obtain ⟨hins, hmat⟩ := upsertCloudAcceptIntent_intents h
  rw [hid] at hins hmat
  have honly : OnlyJob s s' row.jobId := by
    refine .of_putJob hk row (hjobs'.trans hjobs) ?_
    intro other hother
    rw [hins, get?_insert_ne (hid ▸ hother), hints other (hid ▸ hother)]
  refine ⟨_, hid ▸ honly, ?_, hpend, hmg, hdig, hbef,
    hins ▸ SortedMap.get?_insert_self, ?_, hevs'.trans hevs⟩
  · rw [getJob, hjobs', hjobs, ← hid]
    exact SortedMap.get?_insert_self
  · intro hst intent hget hconf
    rw [← hkept hst] at hget
    exact ⟨by rw [hget]; exact hconf, hmat intent hget hconf⟩

theorem prepareCloudJobWithFacts_prepares {job : AcceptedJob}
    (h : s.prepareCloudJobWithFacts job lease facts = .ok s') :
    (s' = s ∧ s.stateOf job.jobId ≠ some .cloudAcceptPending ∧
        s.proofs.get? job.jobId = some lease.proof) ∨
      ∃ row confirmed, Prepares s s' job lease row confirmed := by
  unfold prepareCloudJobWithFacts at h
  dsimp only at h
  split at h
  · cases h
  next hrequest =>
  have hmg : job.cloudManaged = true := by
    rcases hm : job.cloudManaged with - | -
    · simp [hm] at hrequest
    · rfl
  split at h
  · next existing hex =>
    have hid : existing.jobId = job.jobId := hk _ _ hex
    split at h
    · cases h
    next hsame =>
    have hmat : acceptedJobMatches existing job = true := by
      rcases hm : acceptedJobMatches existing job with - | -
      · simp [hm] at hsame
      · rfl
    simp only [acceptedJobMatches, Bool.and_eq_true, beq_iff_eq] at hmat
    split at h
    · next hwait =>
      -- the job is known, pending or to be tried again
      refine .inr ⟨{ existing with
        state := .cloudAcceptPending
        routeConnectorId := facts.routeConnectorId
        nextAttemptUnixMs := none }, ?_⟩
      refine upsertCloudAcceptIntent_prepares hk hid ?_ ?_ ?_ ?_ h rfl ?_ ?_
        (.inr ⟨existing, hex, rfl, hwait⟩)
      · split <;> rfl
      · split <;> rfl
      · intro other hother
        split
        · exact get?_erase_ne hother
        · rfl
      · intro hst
        have hpend : existing.state = .cloudAcceptPending := by
          rw [stateOf_of_getJob hex] at hst
          exact Option.some.inj hst
        rw [if_neg (by rw [hpend]; decide)]
        rfl
      · exact hmat.2.trans hmg
      · exact hmat.1.1.1.1.2
    · next hother =>
      split at h
      · next hproof =>
        refine .inl ⟨(Except.ok.inj h).symm, ?_, hproof⟩
        rw [stateOf_of_getJob hex]
        exact fun heq => hother (.inl (Option.some.inj heq))
      · cases h
  · next hnone =>
    refine .inr ⟨(s.insertJob job facts .cloudAcceptPending).2, ?_⟩
    exact upsertCloudAcceptIntent_prepares (t := (s.insertJob job facts .cloudAcceptPending).1)
      hk rfl rfl rfl (fun _ _ => rfl) (fun _ => rfl) h rfl hmg rfl (.inl hnone)

/-- An intent is marked as accepted by its authority. -/
structure Confirms (s s' : AgentStore) (jobId : String) (intent : CloudAcceptIntent) : Prop where
  found : s.intents.get? jobId = some intent
  intents : s'.intents = s.intents.insert jobId { intent with remoteAcceptConfirmed := true }
  jobs : s'.jobs = s.jobs
  events : s'.events = s.events

omit hk in
theorem confirmCloudAccept_confirms (h : s.confirmCloudAccept jobId = .ok s') :
    ∃ intent, Confirms s s' jobId intent := by
  unfold confirmCloudAccept at h
  split at h
  · cases h
  · next intent hint =>
    cases h
    exact ⟨intent, hint, rfl, rfl, rfl⟩

/-- A pending job whose intent is confirmed becomes runnable. -/
structure Activates (s s' : AgentStore) (jobId : String) (job : LocalJob)
    (intent : CloudAcceptIntent) : Prop extends OnlyJob s s' jobId where
  found : s.getJob jobId = some job
  pending : job.state = .cloudAcceptPending
  intent_eq : s.intents.get? jobId = some intent
  confirmed : intent.remoteAcceptConfirmed = true
  written : s'.getJob jobId = some { job with state := .known .queuedLocal }
  consumed : s'.intents.get? jobId = none
  events : ∃ event : JobEvent, event.jobId = jobId ∧ event.state = .queuedLocal ∧
    s'.events = s.events ++ [event]

theorem activateCloudJob_activates (h : s.activateCloudJob jobId = .ok s') :
    s' = s ∨ ∃ job intent, Activates s s' jobId job intent := by
  unfold activateCloudJob at h
  split at h
  · cases h
  next job hjob =>
  split at h
  · exact .inl (Except.ok.inj h).symm
  split_ifs at h with hpend hconf
  cases h
  have hid : job.jobId = jobId := hk _ _ hjob
  have hany : (s.intents.get? jobId).any (·.remoteAcceptConfirmed) = true := by simpa using hconf
  obtain ⟨intent, hint, hmarked⟩ := (Option.any_eq_true _ _).mp hany
  subst hid
  refine .inr ⟨job, intent, ?_, hjob, not_not.mp hpend, hint, hmarked,
    SortedMap.get?_insert_self, get?_erase_self, ⟨_, rfl, rfl, rfl⟩⟩
  exact .of_putJob hk { job with state := .known .queuedLocal } rfl
    fun other hother => get?_erase_ne hother

/-- What the withdrawal of intents can do to one job: nothing, drop an intent
that no pending job has, or cancel a pending job with its intent. -/
def Withdrawn (s s' : AgentStore) (jobId : String) : Prop :=
  s'.getJob jobId = s.getJob jobId ∧ (s'.intents.get? jobId = s.intents.get? jobId ∨
      s.stateOf jobId ≠ some .cloudAcceptPending ∧ s'.intents.get? jobId = none) ∨
    ∃ job, s.getJob jobId = some job ∧ job.state = .cloudAcceptPending ∧
      s'.getJob jobId = some { job with state := .known .cancelled } ∧
        s'.intents.get? jobId = none

omit hk in
theorem Withdrawn.trans (h : Withdrawn s s' jobId) (h' : Withdrawn s' s'' jobId) :
    Withdrawn s s'' jobId := by
  rcases h with ⟨hrow, hint⟩ | ⟨job, hjob, hpend, hrow, hint⟩
  · have hst : s'.stateOf jobId = s.stateOf jobId := by simp only [stateOf, hrow]
    rcases h' with ⟨hrow', hint'⟩ | ⟨job, hjob, hpend, hrow', hint'⟩
    · refine .inl ⟨hrow'.trans hrow, ?_⟩
      rcases hint' with hint' | hint'
      · rwa [hint']
      · exact .inr ⟨hst ▸ hint'.1, hint'.2⟩
    · exact .inr ⟨job, hrow ▸ hjob, hpend, hrow', hint'⟩
  · -- a cancelled job is not touched again
    rcases h' with ⟨hrow', hint'⟩ | ⟨job', hjob', hpend', -⟩
    · refine .inr ⟨job, hjob, hpend, hrow'.trans hrow, ?_⟩
      rcases hint' with hint' | hint'
      · rw [hint', hint]
      · exact hint'.2
    · cases hjob'.symm.trans hrow
      cases hpend'

/-- Intents are withdrawn, without an event. -/
structure Releases (s s' : AgentStore) : Prop where
  withdrawn : ∀ jobId, Withdrawn s s' jobId
  events : s'.events = s.events
  keyed : s'.Keyed

theorem Releases.refl : Releases s s :=
  ⟨fun _ => .inl ⟨rfl, .inl rfl⟩, rfl, hk⟩

omit hk in
theorem Releases.trans (h : Releases s s') (h' : Releases s' s'') : Releases s s'' :=
  ⟨fun jobId => (h.withdrawn jobId).trans (h'.withdrawn jobId), h'.events.trans h.events, h'.keyed⟩

/-- A pending job is cancelled and its intent dropped. -/
theorem Releases.of_putJob (hjob : s.getJob jobId = some job)
    (hpend : job.state = .cloudAcceptPending)
    (hjobs : s'.jobs = (s.putJob { job with state := .known .cancelled }).jobs)
    (hints : s'.intents = s.intents.erase jobId) (hevs : s'.events = s.events) : Releases s s' := by
  have hid : job.jobId = jobId := hk _ _ hjob
  refine ⟨?_, hevs, (hk.putJob _).congr hjobs⟩
  intro other
  have hrow : s'.getJob other =
      if other = job.jobId then some { job with state := .known .cancelled }
      else s.getJob other := by
    rw [getJob, hjobs]
    exact getJob_putJob _
  by_cases hother : other = jobId
  · subst hother
    rw [if_pos hid.symm] at hrow
    exact .inr ⟨job, hjob, hpend, hrow, hints ▸ get?_erase_self⟩
  · rw [if_neg fun heq => hother (heq.trans hid)] at hrow
    exact .inl ⟨hrow, .inl (hints ▸ get?_erase_ne hother)⟩

/-- An intent that no pending job has is dropped. -/
theorem Releases.of_erase (hst : s.stateOf jobId ≠ some .cloudAcceptPending) :
    Releases s { s with intents := s.intents.erase jobId } := by
  refine ⟨?_, rfl, hk.congr rfl⟩
  intro other
  by_cases hother : other = jobId
  · subst hother
    exact .inl ⟨rfl, .inr ⟨hst, get?_erase_self⟩⟩
  · exact .inl ⟨rfl, .inl (get?_erase_ne hother)⟩

theorem abandonCloudAccept_releases (h : s.abandonCloudAccept jobId = .ok s') : Releases s s' := by
  unfold abandonCloudAccept at h
  split at h
  · cases h
  next job hjob =>
  split at h
  · cases h
    exact .refl hk
  split_ifs at h with hpend
  cases h
  exact .of_putJob hk hjob (not_not.mp hpend) rfl rfl rfl

theorem withdrawIntent_releases (jobId : String) : Releases s (s.withdrawIntent jobId) := by
  unfold withdrawIntent
  split
  · next job hjob =>
    have hst := stateOf_of_getJob hjob
    split
    · next hpend => exact .of_putJob hk hjob hpend rfl rfl rfl
    · next hpend =>
      apply Releases.of_erase hk
      rw [hst]
      exact fun heq => hpend (Option.some.inj heq)
  · next hnone =>
    apply Releases.of_erase hk
    rw [stateOf_eq_none.mpr hnone]
    nofun

theorem quarantinePreparedCloudAccept_releases (jobId : String) :
    Releases s (s.quarantinePreparedCloudAccept jobId) := by
  unfold quarantinePreparedCloudAccept
  split
  · split
    · exact .refl hk
    · exact withdrawIntent_releases hk jobId
  · exact .refl hk

theorem quarantineInvalidCloudAccepts_releases : Releases s s.quarantineInvalidCloudAccepts := by
  -- one withdrawal after another
  have hfold : ∀ (jobIds : List String) (t : AgentStore), t.Keyed →
      Releases t (jobIds.foldl withdrawIntent t) := by
    intro jobIds
    induction jobIds with
    | nil => exact fun t ht => .refl ht
    | cons jobId jobIds ih =>
      intro t ht
      have hfst := withdrawIntent_releases ht jobId
      exact hfst.trans (ih _ hfst.keyed)
  exact hfold _ s hk

/-- A local job enters the queue. -/
structure Enters (s s' : AgentStore) (job : AcceptedJob) (row : LocalJob) : Prop
    extends OnlyJob s s' job.jobId where
  absent : s.getJob job.jobId = none
  written : s'.getJob job.jobId = some row
  queued : row.state = .known .queuedLocal
  accepted : row.accepted = job
  intents_eq : s'.intents = s.intents
  events : ∃ event : JobEvent, event.jobId = job.jobId ∧ event.state = .queuedLocal ∧
    s'.events = s.events ++ [event]

theorem acceptJobWithFacts_enters {job : AcceptedJob}
    (h : s.acceptJobWithFacts job facts = .ok s') : s' = s ∨ ∃ row, Enters s s' job row := by
  unfold acceptJobWithFacts at h
  split at h
  · split at h
    · exact .inl (Except.ok.inj h).symm
    · cases h
  · next hnone =>
    cases h
    exact .inr ⟨(s.insertJob job facts (.known .queuedLocal)).2,
      .of_putJob hk (s.insertJob job facts (.known .queuedLocal)).2 rfl fun _ _ => rfl,
      hnone, SortedMap.get?_insert_self, rfl, rfl, rfl, ⟨_, rfl, rfl, rfl⟩⟩

/-! ### Inventories -/

theorem getJob_of_mem_values (h : job ∈ s.jobs.values) : s.getJob job.jobId = some job := by
  obtain ⟨id, hmem⟩ := mem_values.mp h
  have hget : s.getJob id = some job := get?_eq_some_iff.mpr hmem
  rwa [hk id job hget]

theorem map_jobId_values : s.jobs.values.map LocalJob.jobId = s.jobs.keys := by
  rw [SortedMap.values, SortedMap.keys, map_map]
  apply map_congr_left
  intro entry hent
  exact hk entry.1 entry.2 (get?_eq_some_iff.mpr hent)

theorem nodup_values : (s.jobs.values.map LocalJob.jobId).Nodup := by
  rw [map_jobId_values hk]
  exact s.jobs.nodup_keys

theorem mem_selectJobs {predicate : LocalJob → Bool} (h : job ∈ s.selectJobs predicate) :
    s.getJob job.jobId = some job ∧ predicate job = true := by
  obtain ⟨hmem, hpred⟩ := mem_filter.mp ((mem_insertionSort _).mp h)
  exact ⟨getJob_of_mem_values hk hmem, hpred⟩

theorem nodup_selectJobs (predicate : LocalJob → Bool) :
    ((s.selectJobs predicate).map LocalJob.jobId).Nodup := by
  refine (((perm_insertionSort _ _).map _).nodup_iff).mpr ?_
  exact (nodup_values hk).sublist (filter_sublist.map _)

theorem mem_runnableHeads (h : job ∈ s.runnableHeads now) :
    s.getJob job.jobId = some job ∧ waiting job = true := by
  obtain ⟨hget, hpred⟩ := mem_selectJobs hk h
  simp only [Bool.and_eq_true] at hpred
  exact ⟨hget, hpred.1.1.1.1⟩

theorem mem_expiredWaiting (h : jobId ∈ s.expiredWaiting now) :
    s.stateOf jobId = some (.known .queuedLocal) ∨
      s.stateOf jobId = some (.known .failedRetryable) := by
  obtain ⟨job, hmem, rfl⟩ := mem_map.mp h
  obtain ⟨hvalues, hpred⟩ := mem_filter.mp hmem
  have hst := stateOf_of_getJob (getJob_of_mem_values hk hvalues)
  simp only [Bool.and_eq_true, decide_eq_true_eq, mem_cons, not_mem_nil, or_false] at hpred
  rcases hpred.1 with h | h
  · exact .inl (hst.trans (congrArg some h))
  · exact .inr (hst.trans (congrArg some h))

theorem nodup_expiredWaiting (now : Int) : (s.expiredWaiting now).Nodup :=
  (nodup_values hk).sublist (filter_sublist.map _)

omit hk in
theorem map_filterMap_sublist {α β γ : Type} {f : α → Option β} {g : β → γ} {h : α → γ}
    (hf : ∀ a b, f a = some b → g b = h a) (l : List α) :
    ((l.filterMap f).map g).Sublist (l.map h) := by
  induction l with
  | nil => exact .slnil
  | cons a l ih =>
    rcases ha : f a with - | b
    · rw [filterMap_cons_none ha]
      exact ih.cons _
    · rw [filterMap_cons_some ha, map_cons, map_cons, hf a b ha]
      exact ih.cons_cons _

/-- The jobs that are due for observation are scheduled and in observed states,
and no two items are about one job. -/
theorem mem_dueReconciliations (h : item ∈ s.dueReconciliations now limit) :
    s.getJob item.job.jobId = some item.job ∧ item.job.state ∈ observedStates ∧
      (s.reconciliation.get? item.job.jobId).isSome := by
  obtain ⟨⟨due, job, row⟩, hmem, rfl⟩ := mem_map.mp h
  have hdue := (mem_insertionSort _).mp (mem_of_mem_take hmem)
  obtain ⟨entry, hsched, hent⟩ := mem_filterMap.mp hdue
  obtain ⟨found, hget, hfound⟩ := Option.bind_eq_some_iff.mp hent
  split at hfound
  · next hobs =>
    obtain ⟨-, rfl, -⟩ := Prod.mk.inj (Option.some.inj hfound) |>.imp id fun h => Prod.mk.inj h
    simp only [Bool.and_eq_true, decide_eq_true_eq] at hobs
    have hid : found.jobId = entry.1 := hk _ _ hget
    exact ⟨hid ▸ hget, hobs.2, by rw [hid, get?_eq_some_iff.mpr hsched]; rfl⟩
  · cases hfound

theorem nodup_dueReconciliations (now : Int) (limit : Nat) :
    ((s.dueReconciliations now limit).map (·.job.jobId)).Nodup := by
  unfold dueReconciliations
  rw [map_map, map_take]
  refine List.Nodup.sublist (take_sublist _ _) ?_
  refine (((perm_insertionSort _ _).map _).nodup_iff).mpr ?_
  refine List.Nodup.sublist (map_filterMap_sublist (h := Prod.fst) ?_ _) s.reconciliation.nodup_keys
  rintro entry ⟨due, job, row⟩ hent
  obtain ⟨found, hget, hfound⟩ := Option.bind_eq_some_iff.mp hent
  split at hfound
  · obtain ⟨-, rfl, -⟩ := Prod.mk.inj (Option.some.inj hfound) |>.imp id fun h => Prod.mk.inj h
    exact hk _ _ hget
  · cases hfound

end

end AgentStore

end Piqae
