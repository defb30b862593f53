/-
Piqae/Node/Observation.lean

Reconciliation with the native spooler: when it ends a job, and when it fails.

The programs run alone here, on a database that executes their statements, with
any answers of the spooler.  Every state in which a job is observed may become
`delivery_uncertain`, except `blocked`: a blocked job about which nothing can be
proved at its deadline fails, and the round with it.
-/
import Piqae.Node.Cancellation

namespace Piqae

namespace Engine

open Prog AgentStore SortedMap List

variable {answer : Shared → Input} {now : Int} {item : ReconciliationItem} {jobs : List String}
  {jobId message : String} {reason : Option String} {source target : JobState} {s : Shared}
  {prog : Prog Unit} {next : Unit → Prog Unit}

/-- The program ends well, in a queue with `Q`. -/
def Ends (answer : Shared → Input) (prog : Prog Unit) (s : Shared) (Q : AgentStore → Prop) : Prop :=
  ∃ t, prog.alone answer s = (.ok (), t) ∧ t.store.Keyed ∧ Q t.store

/-- A question to the spooler. -/
theorem alone_ask {α : Type} {f : Input → α} {next : α → Prog Unit} :
    (Process.atomic .plain (fun i s => (f i, s)) >>= next).alone answer s =
      (next (f (answer s))).alone answer s := rfl

theorem Ends.bind {Q Q' : AgentStore → Prop} (h : Ends answer prog s Q)
    (hnext : ∀ t : Shared, t.store.Keyed → Q t.store → Ends answer (next ()) t Q') :
    Ends answer (prog >>= next) s Q' := by
  obtain ⟨t, hrun, hk, hq⟩ := h
  obtain ⟨t', hrun', h'⟩ := hnext t hk hq
  exact ⟨t', Process.alone_bind.trans (by rw [hrun]; exact hrun'), h'⟩

theorem Ends.fails {Q : AgentStore → Prop} {error : NodeError} (h : Ends answer prog s Q)
    (hnext : ∀ t, ((next ()).alone answer t).1 = .error error) :
    ((prog >>= next).alone answer s).1 = .error error := by
  obtain ⟨t, hrun, -⟩ := h
  exact (congrArg Prod.fst Process.alone_bind).trans (by rw [hrun]; exact hnext t)

/-- The jobs have their rows and their schedules. -/
def Scheduled (jobs : List String) (s : AgentStore) : Prop :=
  ∀ jobId ∈ jobs, (s.stateOf jobId).isSome ∧ (s.reconciliation.get? jobId).isSome

/-- The job has come to a state and is off the schedule. -/
def Ended (jobId : String) (target : JobState) (s : AgentStore) : Prop :=
  s.stateOf jobId = some (.known target) ∧ s.reconciliation.get? jobId = none

section Alone

variable (hdb : ∀ s, (answer s).database = true)

include hdb

theorem update_alone {f : AgentStore → Except StorageError AgentStore} {t : AgentStore}
    (h : f s.store = .ok t) : (Prog.update f).alone answer s = (.ok (), s.putStore t) := by
  simp [Prog.update, Prog.write, Process.fallible, Process.alone, Process.ofExcept, hdb, h,
    Except.map, Shared.log]

theorem recordAttempt_ends {nativeState : String} {errorCode : Option String}
    (hk : s.store.Keyed) (hs : Scheduled jobs s.store) (hmem : item.job.jobId ∈ jobs) :
    Ends answer (recordAttempt item.job nativeState errorCode now) s (Scheduled jobs) := by
  obtain ⟨row, hrow⟩ := Option.isSome_iff_exists.mp (hs _ hmem).2
  obtain ⟨row', ht⟩ : ∃ row', s.store.recordReconciliationAttempt item.job.jobId nativeState
      errorCode (now + reconciliationIntervalMs) = .ok { s.store with
        reconciliation := s.store.reconciliation.insert item.job.jobId row' } :=
    ⟨_, by rw [recordReconciliationAttempt, hrow]⟩
  refine ⟨_, update_alone hdb ht, hk.congr rfl, fun other hother => ?_⟩
  refine ⟨(hs other hother).1, ?_⟩
  show ((s.store.reconciliation.insert item.job.jobId row').get? other).isSome
  by_cases heq : other = item.job.jobId
  · rw [heq, get?_insert_self]
    rfl
  · rw [get?_insert_ne heq]
    exact (hs other hother).2

theorem transition_ends (hk : s.store.Keyed) (hs : Scheduled jobs s.store) (hmem : jobId ∈ jobs)
    (hall : source.canTransitionTo target = true) :
    Ends answer (transition jobId (.known source) target reason message) s fun t =>
      Scheduled jobs t ∧ t.stateOf jobId = some (.known target) := by
  obtain ⟨row, hrow⟩ := Option.isSome_iff_exists.mp (hs jobId hmem).1
  obtain ⟨job, hjob, -⟩ := stateOf_eq_some.mp hrow
  -- the sequence is the one that was read, so the event is appended
  obtain ⟨t, ht, hsched⟩ : ∃ t, s.store.appendEvent jobId (s.store.nextSequence jobId) target
      reason (some message) = .ok t ∧ t.reconciliation = s.store.reconciliation := by
    simp [appendEvent, moveJob, hjob, putJob, appendEventTx]
  have hmoves := appendEvent_moves hk ht
  refine ⟨s.putStore t, ?_, hmoves.keyed, fun other hother => ?_, hmoves.moved⟩
  · simp [transition, validateTransition, hall, appendNextEvent, bind, Process.bind, readAt,
      readFallible, Prog.write, Process.fallible, Process.alone, Process.ofExcept, hdb, ht,
      Except.map, Except.mapError, Shared.log]
  · show (t.stateOf other).isSome ∧ (t.reconciliation.get? other).isSome
    rw [hsched]
    refine ⟨?_, (hs other hother).2⟩
    by_cases heq : other = jobId
    · rw [heq, hmoves.moved]
      rfl
    · rw [hmoves.others other heq]
      exact (hs other hother).1

/-! ### One job -/

section Item

variable {Q : AgentStore → Prop} (hk : s.store.Keyed) (hrest : item.job.jobId ∉ jobs)
  (hs : Scheduled (item.job.jobId :: jobs) s.store)

include hk hs hrest

theorem settle_ends (hall : source.canTransitionTo target = true)
    (hQ : ∀ t, Scheduled jobs t → Ended item.job.jobId target t → Q t) : Ends answer (do
      transition item.job.jobId (.known source) target reason message
      Prog.update fun store => .ok (store.finishReconciliation item.job.jobId)) s Q := by
  refine (transition_ends hdb hk hs mem_cons_self hall).bind ?_
  rintro t hk ⟨hs, hst⟩
  refine ⟨_, update_alone hdb rfl, hk.congr rfl, hQ _ ?_ ⟨hst, get?_erase_self⟩⟩
  intro other hother
  obtain ⟨hrow, hsched⟩ := hs other (mem_cons_of_mem _ hother)
  have hne : other ≠ item.job.jobId := fun heq => hrest (heq ▸ hother)
  exact ⟨hrow, (congrArg _ (get?_erase_ne hne)).trans hsched⟩

theorem conclude_ends (hst : item.job.state = .known source) (hne : source ≠ target)
    (hall : source.canTransitionTo target = true)
    (hQ : ∀ t, Scheduled jobs t → Ended item.job.jobId target t → Q t) :
    Ends answer (conclude item.job target reason message) s Q := by
  rw [conclude, transitionIfNeeded, hst, if_neg fun h => hne (LocalState.known.inj h)]
  exact settle_ends hdb hk hrest hs hall hQ

omit hdb hrest in
theorem stay_ends (hQ : ∀ t, Scheduled jobs t → Q t) : Ends answer (pure ()) s Q :=
  ⟨s, rfl, hk, hQ _ fun other hother => hs other (mem_cons_of_mem _ hother)⟩

omit hrest in
theorem advance_ends (hst : item.job.state = .known source)
    (hall : source ≠ target → source.canTransitionTo target = true)
    (hQ : ∀ t, Scheduled jobs t → Q t) :
    Ends answer (transitionIfNeeded item.job target reason message) s Q := by
  rw [transitionIfNeeded, hst]
  split
  · exact stay_ends hk hs hQ
  next hne =>
  obtain ⟨t, hrun, hk, hs, -⟩ := transition_ends hdb hk hs mem_cons_self
    (hall fun h => hne (congrArg _ h))
  exact ⟨t, hrun, hk, hQ _ fun other hother => hs other (mem_cons_of_mem _ hother)⟩

end Item

/-- Does the spooler's answer leave open what became of the job? -/
def inconclusive (item : ReconciliationItem) (i : Input) : Bool :=
  if item.cancelRequested ∨ item.job.state = .known .cancelRequested then
    match i.cancellation with
    | .ok _ => false
    | .error _ => true
  else
    match i.observation with
    | .ok .missing | .ok .unknown | .error _ => true
    | .ok _ => false

/-- A job that reconciliation cannot end: it is blocked, and nothing is known
about it (at its deadline). -/
def Stranded (now : Int) (item : ReconciliationItem) (i : Input) : Prop :=
  item.job.state = .known .blocked ∧ (item.job.nativeJobId = none ∨
    item.uncertaintyDeadlineUnixMs ≤ now ∧ inconclusive item i = true)

/-- What one job has come to; `jobs` are those behind it. -/
def Handled (now : Int) (item : ReconciliationItem) (i : Input) (jobs : List String)
    (s : AgentStore) : Prop :=
  Scheduled jobs s ∧ (item.uncertaintyDeadlineUnixMs ≤ now → inconclusive item i = true →
    Ended item.job.jobId .deliveryUncertain s)

theorem reconcileItem_ends (hk : s.store.Keyed) (hrest : item.job.jobId ∉ jobs)
    (hs : Scheduled (item.job.jobId :: jobs) s.store)
    (hobs : item.job.state ∈ observedStates) (hnot : ¬Stranded now item (answer s)) :
    Ends answer (reconcileItem now item) s (Handled now item (answer s) jobs) := by
  obtain ⟨known, hst, hmem⟩ : ∃ known, item.job.state = .known known ∧
      known ∈ [.acceptedBySpooler, .spooling, .printing, .blocked, .cancelRequested] := by
    revert hobs
    rcases item.job.state with - | known <;> simp [observedStates]
  have hall : ∀ known ∈ [JobState.acceptedBySpooler, .spooling, .printing, .blocked,
      .cancelRequested], known.canTransitionTo .cancelled = true ∧
        (known ≠ .blocked → known.canTransitionTo .deliveryUncertain = true) ∧
        (known ≠ .cancelRequested → known.canTransitionTo .completedReported = true ∧
          known.canTransitionTo .failedTerminal = true ∧
          (known ≠ .blocked → known.canTransitionTo .blocked = true)) := by decide
  obtain ⟨hcancelled, hunc, hwatched⟩ := hall known hmem
  have hunc : ∀ {t : Shared} {message : String}, t.store.Keyed →
      Scheduled (item.job.jobId :: jobs) t.store → item.job.state ≠ .known .blocked →
      Ends answer (markUncertain item.job message) t (Handled now item (answer s) jobs) :=
    fun hk hs hblk => conclude_ends hdb hk hrest hs hst
      (by rintro rfl; simp at hmem) (hunc fun h => hblk (h ▸ hst))
      fun _ hs hended => ⟨hs, fun _ _ => hended⟩
  -- after an inconclusive answer the job waits for its deadline
  have hdoubt : ∀ {t : Shared} {message : String}, inconclusive item (answer s) = true →
      t.store.Keyed → Scheduled (item.job.jobId :: jobs) t.store →
      Ends answer (if item.uncertaintyDeadlineUnixMs ≤ now then markUncertain item.job message
        else pure ()) t (Handled now item (answer s) jobs) := by
    intro t message hi hk hs
    split
    · next hlate => exact hunc hk hs fun h => hnot ⟨h, .inr ⟨hlate, hi⟩⟩
    · next hlate => exact stay_ends hk hs fun _ hs => ⟨hs, fun h => absurd h hlate⟩
  have hset : inconclusive item (answer s) = false → ∀ t, Scheduled jobs t →
      Handled now item (answer s) jobs t :=
    fun hi _ hs => ⟨hs, fun _ h => absurd (hi.symm.trans h) nofun⟩
  unfold reconcileItem
  split
  · next hid => exact hunc hk hs fun h => hnot ⟨h, .inl (Option.isNone_iff_eq_none.mp hid)⟩
  split
  · next hcan =>
    unfold reconcileCancellation Ends
    rw [alone_ask]
    rcases hans : (answer s).cancellation with failure | ⟨⟩ <;>
      refine (recordAttempt_ends hdb hk hs mem_cons_self).bind fun t hk hs => ?_
    · exact hdoubt (by simp [inconclusive, hcan, hans]) hk hs
    · rw [hst]
      exact settle_ends hdb hk hrest hs hcancelled fun t hs _ =>
        hset (by simp [inconclusive, hcan, hans]) t hs
  next hcan =>
  obtain ⟨hcompleted, hfail, hblk⟩ := hwatched fun h => hcan (.inr (h ▸ hst))
  unfold Ends
  rw [alone_ask]
  rcases hans : (answer s).observation with failure | observed <;>
    refine (recordAttempt_ends hdb hk hs mem_cons_self).bind fun t hk hs => ?_
  · exact hdoubt (by simp [inconclusive, hcan, hans]) hk hs
  have hi : inconclusive item (answer s) = decide (observed = .missing ∨ observed = .unknown) := by
    cases observed <;> simp [inconclusive, hcan, hans]
  cases observed with
  | queued | printing =>
    dsimp only
    split
    · next hcase =>
      refine advance_ends hdb hk hs hst (fun _ => ?_) (hset hi)
      rw [hst] at hcase
      revert hcase
      rcases known <;> decide
    · exact stay_ends hk hs (hset hi)
  | blocked => exact advance_ends hdb hk hs hst hblk (hset hi)
  | completed =>
    exact conclude_ends hdb hk hrest hs hst (by rintro rfl; simp at hmem) hcompleted
      fun t hs _ => hset hi t hs
  | failed =>
    exact conclude_ends hdb hk hrest hs hst (by rintro rfl; simp at hmem) hfail
      fun t hs _ => hset hi t hs
  | cancelled =>
    exact conclude_ends hdb hk hrest hs hst (by rintro rfl; simp at hmem) hcancelled
      fun t hs _ => hset hi t hs
  | missing | unknown => exact hdoubt hi hk hs

/-- A blocked job cannot become uncertain. -/
theorem stranded_fails (hk : s.store.Keyed) (hs : Scheduled [item.job.jobId] s.store)
    (h : Stranded now item (answer s)) : ((reconcileItem now item).alone answer s).1 =
      .error (.invalidTransition .blocked .deliveryUncertain) := by
  obtain ⟨hblk, hopen⟩ := h
  have hfails : ∀ (t : Shared) (message : String), ((markUncertain item.job message).alone answer
      t).1 = .error (.invalidTransition .blocked .deliveryUncertain) := by
    intro t message
    rw [markUncertain, transitionIfNeeded, hblk]
    rfl
  unfold reconcileItem
  split
  · exact hfails s _
  next hid =>
  obtain ⟨hlate, hi⟩ := hopen.resolve_left (by simpa using hid)
  -- the attempt is recorded, and then the deadline has passed
  have haft : ∀ {nativeState message : String} {errorCode : Option String}, ((do
      recordAttempt item.job nativeState errorCode now
      if item.uncertaintyDeadlineUnixMs ≤ now then markUncertain item.job message
      else pure () : Prog Unit).alone answer s).1 =
        .error (.invalidTransition .blocked .deliveryUncertain) :=
    (recordAttempt_ends hdb hk hs mem_cons_self).fails fun t => by
      rw [if_pos hlate]
      exact hfails t _
  unfold inconclusive at hi
  by_cases hcan : item.cancelRequested ∨ item.job.state = .known .cancelRequested
  · rw [if_pos hcan] at hi ⊢
    unfold reconcileCancellation
    rw [alone_ask]
    rcases hans : (answer s).cancellation with failure | ⟨⟩
    · exact haft
    · simp [hans] at hi
  · rw [if_neg hcan] at hi ⊢
    rw [alone_ask]
    rcases hans : (answer s).observation with failure | observed
    · exact haft
    · rw [hans] at hi
      cases observed <;> first | exact haft | cases hi

theorem reconcileEach_ends {items : List ReconciliationItem} (hk : s.store.Keyed)
    (huniq : (items.map (·.job.jobId)).Nodup) (hs : Scheduled (items.map (·.job.jobId)) s.store)
    (hitems : ∀ item ∈ items, item.job.state ∈ observedStates ∧ ∀ i, ¬Stranded now item i) :
    Ends answer (Process.each items (reconcileItem now)) s fun _ => True := by
  induction items generalizing s with
  | nil => exact ⟨s, rfl, hk, trivial⟩
  | cons item items ih =>
    obtain ⟨⟨hobs, hnot⟩, hitems⟩ := forall_mem_cons.mp hitems
    obtain ⟨hrest, huniq⟩ := nodup_cons.mp huniq
    exact (reconcileItem_ends hdb hk hrest hs hobs (hnot _)).bind
      fun t hk ht => ih hk huniq ht.1 hitems

end Alone

/-- **Reconciliation ends**: it is total and bounded for a job that is due, and
for a whole round, unless the job is blocked and nothing is known about it. -/
theorem reconciliation_total_unless_stranded (answer : Shared → Input) (s : Shared)
    (hdatabase : ∀ s, (answer s).database = true) (hkeyed : s.store.Keyed) :
    (∀ now limit, ∀ item ∈ s.store.dueReconciliations now limit,
      (∃ t, (reconcileItem now item).alone answer s = (.ok (), t) ∧
        (item.uncertaintyDeadlineUnixMs ≤ now → inconclusive item (answer s) = true →
          Ended item.job.jobId .deliveryUncertain t.store)) ↔ ¬Stranded now item (answer s)) ∧
    ((∀ item ∈ s.store.dueReconciliations (answer s).now.timestampMillis 32, ∀ i,
        ¬Stranded (answer s).now.timestampMillis item i) →
      (reconcileDue.alone answer s).1 = .ok ()) := by
  have hsched : ∀ now limit, ∀ item ∈ s.store.dueReconciliations now limit,
      item.job.state ∈ observedStates ∧ (s.store.stateOf item.job.jobId).isSome ∧
        (s.store.reconciliation.get? item.job.jobId).isSome := by
    intro now limit item hitem
    obtain ⟨hget, hobs, hrow⟩ := mem_dueReconciliations hkeyed hitem
    exact ⟨hobs, by rw [stateOf_of_getJob hget]; rfl, hrow⟩
  constructor
  · intro now limit item hitem
    obtain ⟨hobs, hs⟩ := hsched now limit item hitem
    have hs : Scheduled [item.job.jobId] s.store := by simpa [Scheduled] using hs
    constructor
    · rintro ⟨t, hrun, -⟩ hstranded
      have hfails := stranded_fails hdatabase hkeyed hs hstranded
      rw [hrun] at hfails
      cases hfails
    · intro hnot
      obtain ⟨t, hrun, -, -, hended⟩ := reconcileItem_ends hdatabase hkeyed not_mem_nil hs hobs hnot
      exact ⟨t, hrun, hended⟩
  · intro hnot
    obtain ⟨t, hrun, -⟩ := reconcileEach_ends hdatabase hkeyed
      (nodup_dueReconciliations hkeyed (answer s).now.timestampMillis 32) (by
        intro jobId hjob
        obtain ⟨item, hitem, rfl⟩ := mem_map.mp hjob
        exact (hsched _ _ item hitem).2)
      fun item hitem => ⟨(hsched _ _ item hitem).1, hnot item hitem⟩
    have hround : reconcileDue.alone answer s = (.ok (), t) := by
      simp [reconcileDue, clock, Prog.read, readAt, readFallible, bind, Process.bind,
        Process.atomic, Process.fallible, Process.alone, Process.ofExcept, hdatabase,
        Except.mapError, hrun]
    rw [hround]

end Engine

namespace Sample

/-- The spooler has the job. -/
def printing : List NodeOp := queueing ++ .work .tick :: List.replicate 28 (.engine input)

/-- It reports the job blocked. -/
def blocking : List NodeOp := printing ++ .work .tick ::
  List.replicate 12 (.engine { input with now := 3000000000, observation := .ok .blocked })

/-- After the deadline it no longer knows the job. -/
def lost : Input := { input with now := 700000000000, observation := .ok .missing }

end Sample

open Sample

theorem reconciliation_total_unless_stranded_printing : (Engine.reconcileDue.alone (fun _ => lost)
      (Node.run worker (Node.blank worker) printing).shared).1 = .ok () := by
  have hmeets : Run.Meets (Node.step worker) Node.InBasis (Node.blank worker) printing := by
    decide +kernel
  have hk := (Node.sound_run (hmeets.mono fun _ _ => Node.InBasis.admits)).keyed
  refine (Engine.reconciliation_total_unless_stranded (fun _ => lost) _ (fun _ => rfl) hk).2 ?_
  have hstates : ∀ item ∈
      (Node.run worker (Node.blank worker) printing).shared.store.dueReconciliations 700000 32,
      item.job.state ≠ .known .blocked := by decide +kernel
  exact fun item hitem i h => hstates item hitem h.1

/-- The round fails at the blocked job, which stays as it is. -/
theorem blocked_job_stranded : (Engine.reconcileDue.alone (fun _ => lost)
      (Node.run worker (Node.blank worker) blocking).shared).1 =
        .error (.invalidTransition .blocked .deliveryUncertain) ∧
    (Engine.reconcileDue.alone (fun _ => lost)
      (Node.run worker (Node.blank worker) blocking).shared).2.store.stateOf "job-1" =
        some (.known .blocked) := by
  decide +kernel

end Piqae
