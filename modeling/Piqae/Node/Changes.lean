/-
Piqae/Node/Changes.lean

What one action of a thread can do to the queue.

Three parties write to it: the reconciliation at start-up, the engine and the
synchronization.  `Change` lists every change they make, with the milestones
that go with it; `JobMove` is what a change means for one job.  An event that
the engine appends is the one change whose source state nobody checks: what is
known about it depends on the regime, that is on the assumption under which the
two threads are interleaved.
-/
import Piqae.Node.Machine
import Piqae.Queue.Rows

namespace Piqae

open AgentStore

/-- Who acts on the queue. -/
inductive Party
  | startup
  | engine
  | sync
deriving DecidableEq

/-- The assumptions under which the threads are interleaved. -/
structure Regime where
  /-- A call of the queue is not interrupted. -/
  atomic : Prop
  /-- A statement finds its job in a state that its caller takes it to be in. -/
  based : Prop
  /-- A cancellation finds its job in a state that it handles. -/
  handled : Prop
  covered : atomic ∨ based

/-- May an event with this state be meant for a job in a local state?  The
lifecycle allows it, or it is the cancellation of a job that was handed over. -/
def Follows (target : JobState) : LocalState → Prop
  | .cloudAcceptPending => False
  | .known source => source.canTransitionTo target = true ∨
      target = .cancelRequested ∧ .known source ∈ Sync.handedOver

instance (target : JobState) : ∀ state, Decidable (Follows target state)
  | .cloudAcceptPending => inferInstanceAs (Decidable False)
  | .known source => inferInstanceAs (Decidable (source.canTransitionTo target = true ∨ _))

/-- The states in which the synchronization appends events to a job. -/
def cancellable : List LocalState :=
  Engine.expirable ++ Sync.handedOver ++ [.known .cancelRequested]

/-- The moves of transactions that check the state they leave. -/
def settlements : List (JobState × JobState) :=
  [(.spoolIntent, .acceptedBySpooler), (.spoolIntent, .failedRetryable),
    (.spoolIntent, .deliveryUncertain), (.deliveryUncertain, .failedRetryable),
    (.deliveryUncertain, .deliveryUncertain)]

/-- A job that need not be cancelled any more, or is being cancelled. -/
def CancelSettled (s : AgentStore) (jobId : String) : Prop :=
  ∀ state, s.stateOf jobId = some state → state = .known .cancelRequested ∨
    ∃ final : JobState, state = .known final ∧ final.isTerminal = true

/-- What a milestone that is noted without a change says about the queue. -/
def Noted (R : Regime) (s : AgentStore) : Milestone → Prop
  | .submitted jobId => s.stateOf jobId = some (.known .spoolIntent)
  | .recorded _ _ => False
  | .prepared _ => False
  | .applied (.cancelJob jobId) => R.based → R.handled → CancelSettled s jobId
  | _ => True

/-- What one action of a party can do. -/
inductive Change (R : Regime) (p : Party) (s : AgentStore) : List Milestone → AgentStore → Prop
  | quiet {ms : List Milestone} {s' : AgentStore} (h : Quiet s s')
      (hnoted : ∀ m ∈ ms, Noted R s m) : Change R p s ms s'
  /-- An event is appended; the transaction checks nothing but its number. -/
  | event {s' : AgentStore} {jobId : String} {basis : List LocalState} {target : JobState}
      (h : Moves s s' jobId target) (hfollows : ∀ state ∈ basis, Follows target state)
      (hbasis : R.based ∨ p = .sync → ∃ state ∈ basis, s.stateOf jobId = some state)
      (hpending : s.stateOf jobId ≠ some .cloudAcceptPending)
      (hqueued : target = .queuedLocal → ∀ row, s.getJob jobId = some row →
        row.cloudManaged = false)
      (hsync : p = .sync → (target = .cancelRequested ∨ target = .cancelled) ∧
        ∀ state ∈ basis, state ∈ cancellable) : Change R p s [] s'
  | settle {ms : List Milestone} {s' : AgentStore} {jobId : String} {source target : JobState}
      {cloud : Option Bool} (h : Settles s s' jobId source target cloud)
      (hpair : (source, target) ∈ settlements) (hreleased : ∀ m ∈ ms, m = .released jobId)
      (hengine : p = .engine → source = .deliveryUncertain → cloud = some false)
      (hsync : p = .sync → source = .deliveryUncertain ∧ cloud = some true) : Change R p s ms s'
  | enter {s' : AgentStore} {job : AcceptedJob} {row : LocalJob} (hp : p = .engine)
      (h : Enters s s' job row) (hlocal : job.cloudManaged = false) : Change R p s [] s'
  | prepare {s' : AgentStore} {offer : Offer} (hp : p = .sync)
      (h : s' = s ∧ s.stateOf offer.job.jobId ≠ some .cloudAcceptPending ∨
        ∃ row confirmed, Prepares s s' offer.cloudJob offer.lease row confirmed) :
      Change R p s [.prepared offer] s'
  | confirm {s' : AgentStore} {jobId : String} {intent : CloudAcceptIntent} (hp : p = .sync)
      (h : Confirms s s' jobId intent) : Change R p s [] s'
  | activate {s' : AgentStore} {jobId : String} {job : LocalJob} {intent : CloudAcceptIntent}
      (hp : p = .sync) (hcall : s.activateCloudJob jobId = .ok s')
      (h : Activates s s' jobId job intent) : Change R p s [] s'
  | release {s' : AgentStore} (hp : p = .sync) (h : Releases s s') : Change R p s [] s'

variable {R : Regime} {p : Party} {s s' : AgentStore} {ms : List Milestone} {jobId : String}
  {target state : JobState} {row job : LocalJob} {row' : Option LocalJob}

theorem Change.keyed (h : Change R p s ms s') (hk : s.Keyed) : s'.Keyed := by
  cases h with
  | quiet h | event h | settle h | enter _ h | activate _ _ h | release _ h => exact h.keyed
  | prepare _ h =>
    rcases h with ⟨rfl, -⟩ | ⟨row, confirmed, h⟩
    · exact hk
    · exact h.keyed
  | confirm _ h => exact hk.congr h.jobs

/-! ### One job -/

/-- What a change means for the row of one job. -/
inductive JobMove (R : Regime) (p : Party) : Option LocalJob → Option LocalJob → Prop
  | stay {row row' : Option LocalJob}
      (hid : row'.map LocalJob.identity = row.map LocalJob.identity)
      (hstate : row'.map LocalJob.state = row.map LocalJob.state) : JobMove R p row row'
  | event {row row' : LocalJob} {target : JobState} (hid : row'.identity = row.identity)
      (hstate : row'.state = .known target)
      (hfollows : R.based ∨ p = .sync → Follows target row.state)
      (hpending : row.state ≠ .cloudAcceptPending)
      (hqueued : target = .queuedLocal → row.cloudManaged = false)
      (hsync : p = .sync → (target = .cancelRequested ∨ target = .cancelled) ∧
        row.state ∈ cancellable) : JobMove R p (some row) (some row')
  | settle {row row' : LocalJob} {source target : JobState} (hid : row'.identity = row.identity)
      (hsource : row.state = .known source) (hstate : row'.state = .known target)
      (hpair : (source, target) ∈ settlements)
      (hengine : p = .engine → source = .deliveryUncertain → row.cloudManaged = false)
      (hsync : p = .sync → source = .deliveryUncertain ∧ row.cloudManaged = true) :
      JobMove R p (some row) (some row')
  | enter {row' : LocalJob} (hp : p = .engine) (hstate : row'.state = .known .queuedLocal)
      (hlocal : row'.cloudManaged = false) : JobMove R p none (some row')
  | offer {row' : LocalJob} (hp : p = .sync) (hstate : row'.state = .cloudAcceptPending)
      (hmanaged : row'.cloudManaged = true) : JobMove R p none (some row')
  | retry {row row' : LocalJob} (hp : p = .sync) (hid : row'.identity = row.identity)
      (hsource : row.state = .known .failedRetryable) (hstate : row'.state = .cloudAcceptPending)
      (hmanaged : row.cloudManaged = true) : JobMove R p (some row) (some row')
  | activate {row row' : LocalJob} (hp : p = .sync) (hid : row'.identity = row.identity)
      (hsource : row.state = .cloudAcceptPending) (hstate : row'.state = .known .queuedLocal) :
      JobMove R p (some row) (some row')
  | withdraw {row row' : LocalJob} (hp : p = .sync) (hid : row'.identity = row.identity)
      (hsource : row.state = .cloudAcceptPending) (hstate : row'.state = .known .cancelled) :
      JobMove R p (some row) (some row')

theorem JobMove.refl (row : Option LocalJob) : JobMove R p row row := .stay rfl rfl

theorem AgentStore.Moves.jobMove_other {other : String} (h : Moves s s' jobId target)
    (hother : other ≠ jobId) : JobMove R p (s.getJob other) (s'.getJob other) :=
  .stay (congrFun h.identities other) (h.others other hother)

theorem AgentStore.Prepares.jobMove {job : AcceptedJob} {lease : CloudLease} {confirmed : Bool}
    (h : Prepares s s' job lease row confirmed) :
    JobMove R .sync (s.getJob job.jobId) (s'.getJob job.jobId) := by
  rw [h.written]
  rcases h.before with hnone | ⟨old, hold, hid, hpend | hfail⟩
  · rw [hnone]
    exact .offer rfl h.pending h.managed
  · rw [hold]
    refine .stay ?_ ?_
    · simp only [Option.map_some, hid]
    · simp only [Option.map_some, hpend, h.pending]
  · rw [hold]
    have hmg : old.cloudManaged = true := by
      rw [LocalJob.cloudManaged, show old.accepted = row.accepted from congrArg Prod.fst hid]
      exact h.managed
    exact .retry rfl hid.symm hfail h.pending hmg

theorem AgentStore.Withdrawn.jobMove (h : Withdrawn s s' jobId) :
    JobMove R .sync (s.getJob jobId) (s'.getJob jobId) := by
  rcases h with ⟨hrow, -⟩ | ⟨job, hjob, hpend, hrow, -⟩
  · rw [hrow]
    exact .refl _
  · rw [hjob, hrow]
    exact .withdraw rfl rfl hpend rfl

/-- Every change moves every job as `JobMove` says. -/
theorem Change.jobMove (h : Change R p s ms s') (jobId : String) :
    JobMove R p (s.getJob jobId) (s'.getJob jobId) := by
  cases h with
  | quiet h => exact .stay (congrFun h.identities jobId) (congrFun h.states jobId)
  | @event _ moved basis target h hfol hbasis hpend hq hsync =>
    by_cases hid : jobId = moved
    · subst hid
      obtain ⟨row, row', hrow, hrow', hsame, hst⟩ := h.row
      have hbef := stateOf_of_getJob hrow
      rw [hrow, hrow']
      have hin : R.based ∨ p = .sync → row.state ∈ basis := by
        intro hbased
        obtain ⟨state, hmem, hst⟩ := hbasis hbased
        cases hbef.symm.trans hst
        exact hmem
      refine .event hsame hst (fun hbased => hfol _ (hin hbased)) ?_
        (fun htgt => hq htgt row hrow) ?_
      · exact fun heq => hpend (heq ▸ hbef)
      · exact fun hp => ⟨(hsync hp).1, (hsync hp).2 _ (hin (.inr hp))⟩
    · exact h.jobMove_other hid
  | @settle _ _ moved source target cloud h hpair _ hengine hsync =>
    by_cases hid : jobId = moved
    · subst hid
      obtain ⟨row, row', hrow, hrow', hsame, hst⟩ := h.row
      obtain ⟨job, hjob, hsrc, hcloud⟩ := h.left
      cases hrow.symm.trans hjob
      rw [hrow, hrow']
      refine .settle hsame hsrc hst hpair ?_ ?_
      · exact fun hp hu => hcloud false (hengine hp hu)
      · exact fun hp => ⟨(hsync hp).1, hcloud true (hsync hp).2⟩
    · exact h.toMoves.jobMove_other hid
  | @enter _ job row hp h hloc =>
    by_cases hid : jobId = job.jobId
    · subst hid
      rw [h.absent, h.written]
      refine .enter hp h.queued ?_
      rw [LocalJob.cloudManaged, h.accepted]
      exact hloc
    · rw [h.rows jobId hid]
      exact .refl _
  | @prepare _ offer hp h =>
    subst hp
    rcases h with ⟨rfl, -⟩ | ⟨row, confirmed, h⟩
    · exact .refl _
    by_cases hid : jobId = offer.cloudJob.jobId
    · subst hid
      exact h.jobMove
    · rw [h.rows jobId hid]
      exact .refl _
  | confirm _ h =>
    rw [getJob, getJob, h.jobs]
    exact .refl _
  | @activate _ moved job intent hp _ h =>
    by_cases hid : jobId = moved
    · subst hid
      rw [h.found, h.written]
      exact .activate hp rfl h.pending rfl
    · rw [h.rows jobId hid]
      exact .refl _
  | release hp h =>
    subst hp
    exact (h.withdrawn jobId).jobMove

/-- A row keeps its identity. -/
theorem JobMove.identity {row : Option LocalJob} (h : JobMove R p row row')
    (hrow : row = some job) : ∃ job', row' = some job' ∧ job'.identity = job.identity := by
  subst hrow
  cases h with
  | stay hid _ =>
    obtain ⟨job', hrow', hsame⟩ := Option.map_eq_some_iff.mp hid
    exact ⟨job', hrow', hsame⟩
  | event hid | settle hid | retry _ hid | activate _ hid | withdraw _ hid => exact ⟨_, rfl, hid⟩

/-! ### What the other thread leaves alone -/

/-- The engine may go on with a job: neither acceptance nor the resolution of
an uncertainty reaches it. -/
def LocalJob.Reserved (row : LocalJob) : Prop :=
  row.state ≠ .cloudAcceptPending ∧ (row.cloudManaged = true →
    row.state ≠ .known .failedRetryable ∧ row.state ≠ .known .deliveryUncertain)

/-- The job that the engine has read is still the one in the queue. -/
def Held (job : LocalJob) (s : AgentStore) : Prop :=
  ∃ row, s.getJob job.jobId = some row ∧ row.identity = job.identity ∧ row.Reserved

/-- The job that the engine has read is in a state. -/
def At (job : LocalJob) (state : JobState) (s : AgentStore) : Prop :=
  ∃ row, s.getJob job.jobId = some row ∧ row.identity = job.identity ∧ row.state = .known state

theorem managed_of_identity {row' : LocalJob} (h : row'.identity = row.identity) :
    row'.cloudManaged = row.cloudManaged :=
  congrArg (AcceptedJob.cloudManaged ∘ Prod.fst) h

/-- The synchronization leaves a reserved job reserved. -/
theorem JobMove.reserved (h : JobMove R .sync (some row) row') (hrow : row.Reserved) :
    ∃ job', row' = some job' ∧ job'.identity = row.identity ∧ job'.Reserved := by
  cases h with
  | stay hid hst =>
    obtain ⟨job', rfl, hsame⟩ := Option.map_eq_some_iff.mp hid
    have heq : job'.state = row.state := Option.some.inj hst
    refine ⟨job', rfl, hsame, ?_⟩
    rwa [LocalJob.Reserved, heq, managed_of_identity hsame]
  | @event _ job' target hid hst _ _ _ hsync =>
    refine ⟨_, rfl, hid, ?_⟩
    rcases (hsync rfl).1 with rfl | rfl <;> simp [LocalJob.Reserved, hst]
  | settle hid hsrc _ _ _ hsync =>
    obtain ⟨rfl, hmg⟩ := hsync rfl
    exact absurd hsrc (hrow.2 hmg).2
  | retry _ _ hsrc _ hmg => exact absurd hsrc (hrow.2 hmg).1
  | activate _ _ hsrc | withdraw _ _ hsrc => exact absurd hsrc hrow.1

/-- The states that the engine alone moves a job out of. -/
def engineStates : List JobState := [.preparing, .rendering, .spoolIntent]

/-- The synchronization leaves a job alone that the engine is working on. -/
theorem JobMove.working (h : JobMove R .sync (some row) row') (hst : row.state = .known state)
    (hmem : state ∈ engineStates) :
    ∃ job', row' = some job' ∧ job'.identity = row.identity ∧ job'.state = .known state := by
  have hnot : LocalState.known state ∉ cancellable ∧ state ≠ .deliveryUncertain ∧
      state ≠ .failedRetryable := by
    have hall : ∀ state ∈ engineStates, .known state ∉ cancellable ∧
      state ≠ .deliveryUncertain ∧ state ≠ .failedRetryable := by decide
    exact hall state hmem
  cases h with
  | stay hid hsame =>
    obtain ⟨job', rfl, hid'⟩ := Option.map_eq_some_iff.mp hid
    exact ⟨job', rfl, hid', (Option.some.inj hsame).trans hst⟩
  | event _ _ _ _ _ hsync => exact absurd (hst ▸ (hsync rfl).2) hnot.1
  | settle _ hsrc _ _ _ hsync =>
    rw [hst, (hsync rfl).1] at hsrc
    exact absurd (LocalState.known.inj hsrc) hnot.2.1
  | retry _ _ hsrc =>
    rw [hst] at hsrc
    exact absurd (LocalState.known.inj hsrc) hnot.2.2
  | activate _ _ hsrc | withdraw _ _ hsrc => cases hst.symm.trans hsrc

theorem Held.change (h : Held job s) (hch : Change R .sync s ms s') : Held job s' := by
  obtain ⟨row, hrow, hid, hresd⟩ := h
  have hmove := hch.jobMove job.jobId
  rw [hrow] at hmove
  obtain ⟨row', hrow', hid', hresd'⟩ := hmove.reserved hresd
  exact ⟨row', hrow', hid'.trans hid, hresd'⟩

theorem At.change (hmem : state ∈ engineStates) (h : At job state s)
    (hch : Change R .sync s ms s') : At job state s' := by
  obtain ⟨row, hrow, hid, hst⟩ := h
  have hmove := hch.jobMove job.jobId
  rw [hrow] at hmove
  obtain ⟨row', hrow', hid', hst'⟩ := hmove.working hst hmem
  exact ⟨row', hrow', hid'.trans hid, hst'⟩

/-! ### Final states -/

/-- The states that a job does not leave. -/
def closedStates : List JobState := [.cancelled, .expired, .completedReported, .failedTerminal]

theorem not_follows_of_terminal (h : state.isTerminal = true) : ¬Follows target (.known state) := by
  rintro (hnext | ⟨-, hmem⟩)
  · rw [state.not_canTransitionTo_of_isTerminal h] at hnext
    cases hnext
  · simp only [Sync.handedOver, List.mem_cons, LocalState.known.injEq, List.not_mem_nil,
      or_false] at hmem
    rcases hmem with rfl | rfl | rfl | rfl <;> cases h

/-- If every event finds its job where its caller takes it to be, nothing
leaves a final state. -/
theorem JobMove.closed (h : JobMove R p (some row) row') (hbased : R.based)
    (hst : row.state = .known state) (hmem : state ∈ closedStates) :
    row'.map LocalJob.state = some (.known state) := by
  have hclo : state.isTerminal = true ∧ state ≠ .spoolIntent ∧ state ≠ .deliveryUncertain ∧
      state ≠ .failedRetryable := by
    have hall : ∀ state ∈ closedStates, state.isTerminal = true ∧ state ≠ .spoolIntent ∧
      state ≠ .deliveryUncertain ∧ state ≠ .failedRetryable := by decide
    exact hall state hmem
  cases h with
  | stay _ hsame =>
    rw [hsame, ← hst]
    rfl
  | event _ _ hfol =>
    exact absurd (hst ▸ hfol (.inl hbased)) (not_follows_of_terminal hclo.1)
  | settle _ hsrc _ hpair =>
    cases hst.symm.trans hsrc
    simp [settlements, hclo.2.1, hclo.2.2.1] at hpair
  | retry _ _ hsrc =>
    exact absurd (LocalState.known.inj (hst.symm.trans hsrc)) hclo.2.2.2
  | activate _ _ hsrc | withdraw _ _ hsrc => cases hst.symm.trans hsrc

/-- A cloud job that is being cancelled, or has come to an end. -/
def Cancelling (jobId : String) (s : AgentStore) : Prop :=
  ∃ row, s.getJob jobId = some row ∧ row.cloudManaged = true ∧
    (row.state = .known .cancelRequested ∨
      ∃ final : JobState, row.state = .known final ∧ final.isTerminal = true)

theorem Cancelling.settled (h : Cancelling jobId s) : CancelSettled s jobId := by
  obtain ⟨row, hrow, -, hst⟩ := h
  intro state hst'
  rw [stateOf_of_getJob hrow] at hst'
  cases hst'
  exact hst

/-- What follows a cancellation is final. -/
theorem final_of_follows_cancelRequested (h : Follows target (.known .cancelRequested)) :
    target.isTerminal = true := by
  rcases h with h | ⟨-, hmem⟩
  · revert h
    cases target <;> decide
  · exact absurd hmem (by decide)

/-- The engine does not take a cancellation back. -/
theorem Cancelling.change (hbased : R.based) (h : Cancelling jobId s)
    (hch : Change R .engine s ms s') : Cancelling jobId s' := by
  obtain ⟨row, hrow, hmg, hst⟩ := h
  have hmove := hch.jobMove jobId
  rw [hrow] at hmove
  obtain ⟨row', hrow', hid⟩ := hmove.identity rfl
  refine ⟨row', hrow', (managed_of_identity hid).trans hmg, ?_⟩
  rw [hrow'] at hmove
  cases hmove with
  | stay _ hsame => rwa [Option.some.inj hsame]
  | event _ hst' hfol =>
    have hfol := hfol (.inl hbased)
    rcases hst with hcan | ⟨final, hfin, hterm⟩
    · rw [hcan] at hfol
      exact .inr ⟨_, hst', final_of_follows_cancelRequested hfol⟩
    · rw [hfin] at hfol
      exact absurd hfol (not_follows_of_terminal hterm)
  | settle _ hsrc hst' hpair hengine =>
    -- a spool intent is neither, and the uncertainty of a cloud job is not the engine's
    rcases hst with hcan | ⟨final, hfin, hterm⟩
    · rw [hcan] at hsrc
      cases hsrc
      simp [settlements] at hpair
    · rw [hfin] at hsrc
      obtain rfl := LocalState.known.inj hsrc
      have hneither : final ≠ .spoolIntent ∧ final ≠ .deliveryUncertain := by
        refine ⟨?_, ?_⟩
        · rintro rfl
          cases hterm
        · rintro rfl
          rw [hengine rfl rfl] at hmg
          cases hmg
      simp [settlements, hneither.1, hneither.2] at hpair
  | retry hp | activate hp | withdraw hp => cases hp

end Piqae
