/-
Piqae/Node/Threads.lean

The engine's thread keeps its discipline: every program of the engine, of the
reconciliation and of the local queue makes only changes of its party.

The engine works through lists that it has read before.  What carries the walk
is that the jobs left on the list are `Held`: acceptance and the resolution of
an uncertainty, which the synchronization may do meanwhile, do not reach them,
and the engine's own work on one job leaves the others alone.
-/
import Piqae.Node.Guards

namespace Piqae

open AgentStore List

variable {α : Type} {R : Regime} {s s' : AgentStore} {job : LocalJob} {rest : List LocalJob}
  {state : JobState}

/-! ### Held jobs -/

theorem Held.of_same (h : Held job s) (hst : s'.stateOf job.jobId = s.stateOf job.jobId)
    (hid : s'.identityOf job.jobId = s.identityOf job.jobId) : Held job s' := by
  obtain ⟨row, hrow, hsame, hresd⟩ := h
  rw [stateOf_of_getJob hrow] at hst
  rw [identityOf_of_getJob hrow] at hid
  obtain ⟨row', hrow', hst'⟩ := stateOf_eq_some.mp hst
  rw [identityOf_of_getJob hrow'] at hid
  have hid' := Option.some.inj hid
  refine ⟨row', hrow', hid'.trans hsame, ?_⟩
  rwa [LocalJob.Reserved, hst', managed_of_identity hid']

theorem At.quiet (h : At job state s) (hquiet : Quiet s s') : At job state s' := by
  obtain ⟨row, hrow, hsame, hst⟩ := h
  have hid := congrFun hquiet.identities job.jobId
  have hst' := congrFun hquiet.states job.jobId
  rw [stateOf_of_getJob hrow] at hst'
  obtain ⟨row', hrow', hst'⟩ := stateOf_eq_some.mp hst'
  rw [identityOf_of_getJob hrow, identityOf_of_getJob hrow'] at hid
  exact ⟨row', hrow', (Option.some.inj hid).trans hsame, hst'.trans hst⟩

theorem At.held (h : At job state s)
    (hst : state ≠ .failedRetryable ∧ state ≠ .deliveryUncertain) : Held job s := by
  obtain ⟨row, hrow, hid, hrs⟩ := h
  refine ⟨row, hrow, hid, ?_⟩
  simp [LocalJob.Reserved, hrs, hst.1, hst.2]

/-- Jobs that the engine has still to work on. -/
def HeldAll (jobs : List LocalJob) (s : AgentStore) : Prop := ∀ job ∈ jobs, Held job s

theorem HeldAll.quiet (h : HeldAll rest s) (hquiet : Quiet s s') : HeldAll rest s' :=
  fun job hmem => (h job hmem).of_same (congrFun hquiet.states _) (congrFun hquiet.identities _)

theorem HeldAll.moves {jobId : String} (h : HeldAll rest s) (hmoves : Moves s s' jobId state)
    (hrest : ∀ other ∈ rest, other.jobId ≠ jobId) : HeldAll rest s' :=
  fun job hmem => (h job hmem).of_same (hmoves.others _ (hrest job hmem))
    (congrFun hmoves.identities _)

theorem steadfast_held : Steadfast R .engine (Held job) :=
  fun _ _ _ hch hs => hs.change hch

theorem steadfast_heldAll : Steadfast R .engine (HeldAll rest) :=
  fun _ _ _ hch hs other hmem => (hs other hmem).change hch

theorem steadfast_at (hmem : state ∈ engineStates) : Steadfast R .engine (At job state) :=
  fun _ _ _ hch hs => .change hmem hs hch

/-! ### Quiet actions -/

namespace Guards

variable {p : Party} {P : AgentStore → Prop} {Q : α → AgentStore → Prop}

theorem clock (hstd : Steadfast R p P) : Guards R p P Prog.clock fun _ => P :=
  Guards.ask fun _ => hstd

theorem coordinate {label : Label} {f : Input → RouteCoordinator → Fallible α × RouteCoordinator}
    (hstd : Steadfast R p P) : Guards R p P (Prog.coordinate label f) fun _ => P := by
  apply Guards.atomic fun _ => hstd
  · intro i s
    split <;> rfl
  · intro i s _
    refine ⟨[], ?_, by simp⟩
    split <;> exact (append_nil _).symm

theorem consult {f : RouteCoordinator → α} {stopped : α} (hstd : Steadfast R p P) :
    Guards R p P (Prog.consult f stopped) fun _ => P := by
  apply Guards.atomic fun _ => hstd
  · intro i s
    split <;> rfl
  · intro i s _
    refine ⟨[], ?_, by simp⟩
    split <;> exact (append_nil _).symm

theorem orFail {prog : Prog (Fallible α)}
    (h : Guards R p P prog fun result s => ∀ a, result = .ok a → Q a s) :
    Guards R p P (Prog.orFail prog) Q := by
  refine .bind h fun result => ?_
  rcases result with messages | value
  · exact .fail
  · exact .done fun s hs => hs value rfl

theorem orCode {code : String} {prog : Prog α} (h : Guards R p P prog Q) :
    Guards R p P (Prog.orCode code prog) Q := by
  refine .bind h.attempt fun result => ?_
  rcases result with error | value
  · exact .fail
  · exact .done fun s hs => hs value rfl

/-- An update that moves no job. -/
theorem quietly {f : AgentStore → Except StorageError AgentStore} (hstd : Steadfast R p P)
    (hquiet : ∀ s s', s.Keyed → f s = .ok s' → Quiet s s')
    (hP : ∀ s s', P s → Quiet s s' → P s') : Guards R p P (Prog.update f) fun _ => P := by
  apply Guards.update hstd
  intro s s' hk hs hf
  have h := hquiet s s' hk hf
  exact ⟨.quiet h (by simp), hP s s' hs h⟩

theorem openCoordinator {W : Worker} (hstd : Steadfast R p P) :
    Guards R p P (Prog.openCoordinator W) fun _ => P := by
  apply Process.Triple.fallible fun _ => hstd.stable
  intro s i hk hs _
  refine ⟨hk, ⟨[], .quiet (.refl hk) (by simp), ?_⟩, fun _ _ => hs, fun _ _ => trivial⟩
  show s.history = (s.putStore s.store).history ++ []
  rw [putStore_same, append_nil]

theorem resolveAmbiguousHandoff {W : Worker} {identity : HandoffIdentity}
    {resolution : AmbiguousHandoffResolution} (hstd : Steadfast R p P) :
    Guards R p P (Prog.resolveAmbiguousHandoff W identity resolution) fun _ => P := by
  apply Guards.atomic fun _ => hstd
  · intro i s
    split <;> rfl
  · intro i s _
    split
    · exact ⟨[], (append_nil _).symm, by simp⟩
    · refine ⟨_, rfl, ?_⟩
      intro m hm
      obtain ⟨-, hm⟩ := mem_ite_nil_right.mp hm
      obtain rfl := mem_singleton.mp hm
      trivial

end Guards

/-! ### Transitions -/

/-- The engine knows the job of an event, and the job is not pending. -/
def Knows (job : LocalJob) (P : AgentStore → Prop) : Prop :=
  ∀ s, P s → ∃ row, s.getJob job.jobId = some row ∧ row.identity = job.identity ∧
    row.state ≠ .cloudAcceptPending

theorem knows_held : Knows job (Held job) :=
  fun _ ⟨row, hrow, hid, hresd⟩ => ⟨row, hrow, hid, hresd.1⟩

theorem knows_at : Knows job (At job state) := by
  rintro s ⟨row, hrow, hid, hst⟩
  refine ⟨row, hrow, hid, ?_⟩
  rw [hst]
  nofun

/-- An event of the engine for a job that it knows. -/
theorem Change.of_transition {P : AgentStore → Prop} {basis : List LocalState} {target : JobState}
    (hknows : Knows job P) (hs : P s) (hmoves : Moves s s' job.jobId target)
    (hfol : ∀ state ∈ basis, Follows target state)
    (hbased : R.based → ∃ before ∈ basis, s.stateOf job.jobId = some before)
    (hq : target = .queuedLocal → job.cloudManaged = false) :
    Change R .engine s [] s' ∧ At job target s' := by
  obtain ⟨row, hrow, hid, hpend⟩ := hknows s hs
  refine ⟨.event hmoves hfol ?_ ?_ ?_ nofun, ?_⟩
  · rintro (h | h)
    · exact hbased h
    · cases h
  · rw [stateOf_of_getJob hrow]
    exact fun heq => hpend (Option.some.inj heq)
  · intro htgt other hother
    cases hrow.symm.trans hother
    rw [managed_of_identity hid]
    exact hq htgt
  · obtain ⟨row', moved, hrow', hmoved, hid', hst⟩ := hmoves.row
    cases hrow.symm.trans hrow'
    exact ⟨moved, hmoved, hid'.trans hid, hst⟩

namespace Engine

variable {W : Worker} {P : AgentStore → Prop} {target : JobState} {reason : Option String}
  {message : String} {now : Int}

/-- The engine works on a held job and has others to come. -/
def Works (job : LocalJob) (rest : List LocalJob) (s : AgentStore) : Prop :=
  Held job s ∧ HeldAll rest s

section

variable (hrest : ∀ other ∈ rest, other.jobId ≠ job.jobId)

include hrest

theorem transition_guards {source : LocalState} (hstd : Steadfast R .engine P)
    (hknows : Knows job P) (hq : target = .queuedLocal → job.cloudManaged = false) :
    Guards R .engine (fun s => P s ∧ HeldAll rest s)
      (transition job.jobId source target reason message)
      fun _ s => At job target s ∧ HeldAll rest s := by
  have hboth : Steadfast R .engine fun s => P s ∧ HeldAll rest s :=
    hstd.and steadfast_heldAll
  unfold transition
  split
  · exact .fail
  · next state =>
    split
    · exact .fail
    · next hval =>
      apply Guards.appendNextEvent (fun _ => hboth) fun _ => hboth
      intro s s' _ hs hbased hmoves
      have hnext : state.canTransitionTo target = true := by
        unfold validateTransition at hval
        split at hval
        · assumption
        · cases hval
      have hfol : ∀ before ∈ [LocalState.known state], Follows target before := by
        intro before hmem
        obtain rfl := mem_singleton.mp hmem
        exact .inl hnext
      obtain ⟨hch, hat⟩ := Change.of_transition hknows hs.1 hmoves hfol hbased hq
      exact ⟨hch, hat, hs.2.moves hmoves hrest⟩

/-- A transition from a held job to a state that is not the queue's. -/
theorem transitionIfNeeded_guards (htgt : target ≠ .queuedLocal) :
    Guards R .engine (Works job rest) (transitionIfNeeded job target reason message)
      fun _ => HeldAll rest := by
  unfold transitionIfNeeded
  split
  · exact .done fun _ hs => hs.2
  · refine (transition_guards hrest steadfast_held knows_held ?_).after fun _ _ _ hs => hs.2
    exact fun heq => absurd heq htgt

/-! ### One job -/

theorem beginExecution_guards :
    Guards R .engine (Works job rest) (beginExecution job)
      fun _ s => At job .preparing s ∧ HeldAll rest s := by
  unfold beginExecution
  split
  · exact .fail
  split
  · split
    · exact .fail
    · next hloc =>
      -- a local job is queued again first
      have hmg : job.cloudManaged = false := by simpa using hloc
      refine .bind (transition_guards hrest steadfast_held knows_held fun _ => hmg) fun _ => ?_
      refine .before (transition_guards hrest steadfast_held knows_held ?_) ?_
      · nofun
      · exact fun s _ hs => ⟨hs.1.held (by decide), hs.2⟩
  · exact transition_guards hrest steadfast_held knows_held nofun

/-- A transition of a job that the engine is working on. -/
theorem work_guards {state : JobState} (hmem : state ∈ engineStates)
    (htgt : target ≠ .queuedLocal) : Guards R .engine (fun s => At job state s ∧ HeldAll rest s)
      (transition job.jobId (.known state) target reason message)
      fun _ s => At job target s ∧ HeldAll rest s :=
  transition_guards hrest (steadfast_at hmem) knows_at fun heq => absurd heq htgt

theorem persistIntent_guards :
    Guards R .engine (fun s => At job .preparing s ∧ HeldAll rest s) (persistIntent job)
      fun _ s => At job .spoolIntent s ∧ HeldAll rest s := by
  unfold persistIntent
  split
  · refine .bind (work_guards hrest (by decide) nofun) fun _ => ?_
    exact work_guards hrest (by decide) nofun
  · exact work_guards hrest (by decide) nofun

end

/-- The engine is about to hand a job over. -/
def Intends (job : LocalJob) (rest : List LocalJob) (s : AgentStore) : Prop :=
  At job .spoolIntent s ∧ HeldAll rest s

theorem steadfast_intends : Steadfast R .engine (Intends job rest) :=
  (steadfast_at (by decide)).and steadfast_heldAll

theorem nativeProfileForJob_guards :
    Guards R .engine (Intends job rest) (nativeProfileForJob job) fun _ => Intends job rest := by
  refine .bind (.ask fun _ => steadfast_intends) fun profile => ?_
  split
  · exact .done fun _ hs => hs
  · split
    · exact .fail
    · split
      · exact .done fun _ hs => hs
      · exact .fail
  · exact .fail

theorem nativeSubmit_guards :
    Guards R .engine (Intends job rest) (nativeSubmit job.jobId) fun _ => Intends job rest := by
  refine .bind (.atomic (fun _ => steadfast_intends) (fun _ _ => rfl) ?_) fun _ => ?_
  · intro i s hs
    refine ⟨[.submitted job.jobId], rfl, ?_⟩
    intro m hm
    obtain rfl := mem_singleton.mp hm
    obtain ⟨row, hrow, -, hst⟩ := hs.1
    exact (stateOf_of_getJob hrow).trans (congrArg some hst)
  · refine .atomic (fun _ => steadfast_intends) (fun _ _ => rfl) ?_
    intro i s _
    refine ⟨_, rfl, ?_⟩
    intro m hm
    obtain rfl := mem_singleton.mp hm
    trivial

theorem submitFenced_guards {connectorId : String} {reservation : RouteReservation} :
    Guards R .engine (Intends job rest) (submitFenced W job connectorId reservation)
      fun _ => Intends job rest := by
  refine .bind (.consult steadfast_intends) fun validated => ?_
  rcases validated with messages | -
  · exact .done fun _ hs => hs
  · refine .bind nativeSubmit_guards fun result => ?_
    refine .bind (.coordinate steadfast_intends) fun finished => ?_
    rcases finished with messages | -
    · exact .done fun _ hs => hs
    · exact .done fun _ hs => hs

theorem submit_guards :
    Guards R .engine (Intends job rest) (submit W job) fun _ => Intends job rest := by
  refine .bind (.ask fun _ => steadfast_intends) fun bindingCurrent => ?_
  split
  · exact .done fun _ hs => hs
  · refine .bind (.coordinate steadfast_intends) fun reserved => ?_
    rcases reserved with messages | reservation
    · exact .done fun _ hs => hs
    · exact submitFenced_guards

section

variable (hrest : ∀ other ∈ rest, other.jobId ≠ job.jobId)

include hrest

/-- The engine settles a spool intent. -/
theorem settleIntent {f : AgentStore → Except StorageError AgentStore} {cloud : Option Bool}
    (hpair : (.spoolIntent, target) ∈ settlements)
    (hf : ∀ s s', s.Keyed → f s = .ok s' → Settles s s' job.jobId .spoolIntent target cloud) :
    Guards R .engine (Intends job rest) (Prog.update f) fun _ => HeldAll rest := by
  apply Guards.update steadfast_intends
  intro s s' hk hs hok
  have hset := hf s s' hk hok
  exact ⟨.settle hset hpair (by simp) nofun nofun, hs.2.moves hset.toMoves hrest⟩

theorem recordSubmission_guards {result : Except ExecutorFailure NativeAcceptance} :
    Guards R .engine (Intends job rest) (recordSubmission job result) fun _ => HeldAll rest := by
  rcases result with failure | acceptance
  · refine .bind (.quietly steadfast_intends ?_ ?_) fun _ => ?_
    · rintro s s' hk ⟨⟩
      exact .refl hk
    · exact fun s s' hs hquiet => ⟨hs.1.quiet hquiet, hs.2.quiet hquiet⟩
    split
    · refine .bind (.clock steadfast_intends) fun now => ?_
      exact settleIntent hrest (by decide) fun _ _ => recordLocalRetryableFailure_settles
    · refine (work_guards hrest (by decide) ?_).after fun _ _ _ hs => hs.2
      unfold failureState
      split
      · nofun
      · split <;> nofun
  · refine .bind (.clock steadfast_intends) fun now => ?_
    exact settleIntent hrest (by decide) fun _ _ => recordNativeAcceptance_settles

theorem executeJob_guards :
    Guards R .engine (Works job rest) (executeJob W job) fun _ => HeldAll rest := by
  refine .bind (beginExecution_guards hrest) fun _ => ?_
  split
  · refine .bind (persistIntent_guards hrest) fun _ => ?_
    refine .bind nativeProfileForJob_guards fun _ => ?_
    refine .bind submit_guards fun result => ?_
    exact recordSubmission_guards hrest
  · refine .after (work_guards hrest ?_ ?_) fun _ _ _ hs => hs.2
    · decide
    · nofun

end

/-! ### Native jobs -/

theorem steadfast_works : Steadfast R .engine (Works job rest) :=
  steadfast_held.and steadfast_heldAll

theorem Works.quiet (h : Works job rest s) (hquiet : Quiet s s') : Works job rest s' :=
  ⟨h.1.of_same (congrFun hquiet.states _) (congrFun hquiet.identities _), h.2.quiet hquiet⟩

theorem recordAttempt_guards {nativeState : String} {errorCode : Option String} :
    Guards R .engine (Works job rest) (recordAttempt job nativeState errorCode now)
      fun _ => Works job rest :=
  Guards.quietly steadfast_works (fun _ _ => recordReconciliationAttempt_quiet) fun _ _ => .quiet

theorem finishReconciliation_guards {jobId : String} : Guards R .engine (HeldAll rest)
      (Prog.update fun store => .ok (store.finishReconciliation jobId)) fun _ => HeldAll rest := by
  refine .quietly steadfast_heldAll ?_ fun _ _ => .quiet
  rintro s s' hk ⟨⟩
  exact .of_jobs hk rfl rfl rfl

section

variable {item : ReconciliationItem} (hrest : ∀ other ∈ rest, other.jobId ≠ item.job.jobId)

include hrest

/-- A final state of a native job, and what is left of its schedule. -/
theorem conclude_guards (htgt : target ≠ .queuedLocal) :
    Guards R .engine (Works item.job rest) (conclude item.job target reason message)
      fun _ => HeldAll rest :=
  Guards.bind (transitionIfNeeded_guards hrest htgt) fun _ => finishReconciliation_guards

theorem markUncertain_guards :
    Guards R .engine (Works item.job rest) (markUncertain item.job message) fun _ => HeldAll rest :=
  Guards.bind (transitionIfNeeded_guards hrest nofun) fun _ => finishReconciliation_guards

theorem reconcileCancellation_guards :
    Guards R .engine (Works item.job rest) (reconcileCancellation item now)
      fun _ => HeldAll rest := by
  refine .bind (.ask fun _ => steadfast_works) fun cancellation => ?_
  rcases cancellation with failure | -
  · refine .bind recordAttempt_guards fun _ => ?_
    split
    · exact markUncertain_guards hrest
    · exact .done fun _ hs => hs.2
  · refine .bind recordAttempt_guards fun _ => ?_
    refine .bind (transition_guards hrest steadfast_held knows_held nofun) fun _ => ?_
    exact finishReconciliation_guards.before fun _ _ hs => hs.2

theorem applyNativeObservation_guards {observed : NativeJobState} :
    Guards R .engine (Works item.job rest) (applyNativeObservation item observed now)
      fun _ => HeldAll rest := by
  have hstay : Guards R .engine (Works item.job rest) (pure () : Prog Unit) fun _ => HeldAll rest :=
    .done fun _ hs => hs.2
  refine .bind recordAttempt_guards fun _ => ?_
  cases observed with
  | blocked => exact transitionIfNeeded_guards hrest nofun
  | completed => exact conclude_guards hrest nofun
  | failed => exact conclude_guards hrest nofun
  | cancelled => exact conclude_guards hrest nofun
  | missing =>
    dsimp only
    split
    · exact markUncertain_guards hrest
    · exact hstay
  | unknown =>
    dsimp only
    split
    · exact markUncertain_guards hrest
    · exact hstay
  | _ =>
    dsimp only
    split
    · exact transitionIfNeeded_guards hrest nofun
    · exact hstay

theorem reconcileItem_guards :
    Guards R .engine (Works item.job rest) (reconcileItem now item) fun _ => HeldAll rest := by
  unfold reconcileItem
  split
  · exact markUncertain_guards hrest
  split
  · exact reconcileCancellation_guards hrest
  refine .bind (.ask fun _ => steadfast_works) fun observation => ?_
  rcases observation with failure | observed
  · refine .bind recordAttempt_guards fun _ => ?_
    split
    · exact markUncertain_guards hrest
    · exact .done fun _ hs => hs.2
  · exact applyNativeObservation_guards hrest

end

/-! ### One round -/

/-- The jobs of a list are held, and no job is there twice. -/
def Listed (jobs : List LocalJob) (s : AgentStore) : Prop :=
  HeldAll jobs s ∧ (jobs.map LocalJob.jobId).Nodup

theorem Listed.cons (h : Listed (job :: rest) s) :
    Works job rest s ∧ (∀ other ∈ rest, other.jobId ≠ job.jobId) ∧
      (rest.map LocalJob.jobId).Nodup := by
  obtain ⟨hheld, hnodup⟩ := h
  obtain ⟨hnotin, hrest⟩ := nodup_cons.mp hnodup
  refine ⟨⟨hheld job mem_cons_self, fun other hmem => hheld other (.tail _ hmem)⟩, ?_, hrest⟩
  intro other hmem heq
  exact hnotin (heq ▸ mem_map_of_mem hmem)

theorem held_of_waiting (hget : s.getJob job.jobId = some job) (hwait : waiting job = true) :
    Held job s := by
  refine ⟨job, hget, rfl, ?_⟩
  simp only [waiting, Bool.and_eq_true, Bool.or_eq_true, decide_eq_true_eq, Bool.not_eq_true']
    at hwait
  rcases hwait.1 with hst | ⟨hst, hloc⟩
  · simp [LocalJob.Reserved, hst]
  · simp [LocalJob.Reserved, hst, hloc]

theorem held_of_observed (hget : s.getJob job.jobId = some job)
    (hst : job.state ∈ observedStates) : Held job s := by
  refine ⟨job, hget, rfl, ?_⟩
  have hall : ∀ state ∈ observedStates, state ≠ .cloudAcceptPending ∧
    state ≠ .known .failedRetryable ∧ state ≠ .known .deliveryUncertain := by decide
  exact ⟨(hall _ hst).1, fun _ => (hall _ hst).2⟩

/-- The jobs that are to expire are where they were when they were selected, if
the call is not interrupted. -/
def Expiring (R : Regime) (jobIds : List String) (s : AgentStore) : Prop :=
  R.atomic → jobIds.Nodup ∧ ∀ jobId ∈ jobIds, ∃ state ∈ expirable, s.stateOf jobId = some state

theorem expireWaiting_guards :
    Guards R .engine (fun _ => True) (expireWaiting now) fun _ _ => True := by
  refine .bind (.read (.const True)) fun jobIds => ?_
  have hloop : Guards R .engine (Expiring R jobIds) (.each jobIds fun jobId =>
      Prog.appendNextEvent .within jobId expirable .expired (some "expired_before_handoff")
        (some "Job expired before native submission")) fun _ => Expiring R [] := by
    refine .each (I := Expiring R) (fun jobId jobIds => ?_) jobIds
    -- the rival runs between the statements only if the call can be interrupted
    have hstd : ¬R.atomic → Steadfast R .engine (Expiring R (jobId :: jobIds)) :=
      fun hnot _ _ _ _ _ hatom => absurd hatom hnot
    apply Guards.appendNextEvent (fun hj => hstd fun hatom => hj ⟨hatom, rfl⟩) hstd
    intro s s' _ hs hbased hmoves
    have hst : ∃ state ∈ expirable, s.stateOf jobId = some state := by
      rcases R.covered with hatom | hb
      · exact (hs hatom).2 jobId mem_cons_self
      · exact hbased hb
    have hfol : ∀ state ∈ expirable, Follows .expired state := by decide
    refine ⟨.event hmoves hfol (fun _ => hst) ?_ nofun nofun, ?_⟩
    · obtain ⟨state, hmem, hst⟩ := hst
      rw [hst]
      rintro ⟨⟩
      revert hmem
      decide
    · intro hatom
      obtain ⟨hnodup, hall⟩ := hs hatom
      obtain ⟨hnotin, hnodup'⟩ := nodup_cons.mp hnodup
      refine ⟨hnodup', fun other hmem => ?_⟩
      rw [hmoves.others other fun heq => hnotin (heq ▸ hmem)]
      exact hall other (.tail _ hmem)
  refine hloop.consequence ?_ fun _ _ _ _ => trivial
  rintro s hk ⟨-, rfl⟩ -
  refine ⟨nodup_expiredWaiting hk now, fun jobId hmem => ?_⟩
  rcases mem_expiredWaiting hk hmem with h | h
  · exact ⟨_, by decide, h⟩
  · exact ⟨_, by decide, h⟩

theorem reconcileDue_guards : Guards R .engine (fun _ => True) reconcileDue fun _ _ => True := by
  refine .bind (.clock (.const True)) fun now => ?_
  refine .bind (.read (.const True)) fun items => ?_
  have hloop : Guards R .engine (fun s => Listed (items.map (·.job)) s)
      (.each items (reconcileItem now.timestampMillis)) fun _ s => Listed [] s := by
    refine .each (I := fun items => Listed (items.map (·.job))) (fun item items => ?_) items
    intro s hk hs
    obtain ⟨hworks, hrest, hnodup⟩ := Listed.cons hs
    exact (reconcileItem_guards hrest s hk hworks).consequence hk
      (fun _ _ _ h => ⟨h, hnodup⟩) fun _ _ _ h => h
  refine hloop.consequence ?_ fun _ _ _ _ => trivial
  rintro s hk ⟨-, rfl⟩
  refine ⟨?_, ?_⟩
  · intro job hmem
    obtain ⟨item, hitem, rfl⟩ := mem_map.mp hmem
    obtain ⟨hget, hst, -⟩ := mem_dueReconciliations hk hitem
    exact held_of_observed hget hst
  · rw [map_map]
    exact nodup_dueReconciliations hk _ _

theorem runOnce_guards : Guards R .engine (fun _ => True) (runOnce W) fun _ _ => True := by
  refine .bind (.clock (.const True)) fun now => ?_
  refine .bind expireWaiting_guards fun _ => ?_
  refine .bind (.read (.const True)) fun jobs => ?_
  have hloop : Guards R .engine (Listed jobs) (.each jobs (executeJob W)) fun _ => Listed [] := by
    refine .each (I := Listed) (fun job rest => ?_) jobs
    intro s hk hs
    obtain ⟨hworks, hrest, hnodup⟩ := Listed.cons hs
    exact (executeJob_guards hrest s hk hworks).consequence hk
      (fun _ _ _ h => ⟨h, hnodup⟩) fun _ _ _ h => h
  refine .bind (hloop.before ?_) fun _ => reconcileDue_guards.before fun _ _ _ => trivial
  rintro s hk ⟨-, rfl⟩
  refine ⟨?_, nodup_selectJobs hk _⟩
  intro job hmem
  obtain ⟨hget, hwait⟩ := mem_runnableHeads hk hmem
  exact held_of_waiting hget hwait

end Engine

/-! ### Reconciliation -/

/-- A program that needs nothing to make only changes of its party. -/
abbrev Free {α : Type} (R : Regime) (p : Party) (prog : Prog α) : Prop :=
  Guards R p (fun _ => True) prog fun _ _ => True

namespace Free

variable {β : Type} {p : Party} {prog : Prog α} {label : Label}
  {f : AgentStore → Except StorageError AgentStore}

theorem bind {f : α → Prog β} (h : Free R p prog) (hf : ∀ a, Free R p (f a)) :
    Free R p (prog >>= f) :=
  Guards.bind h hf

theorem done {a : α} : Free R p (.done a) := Guards.done fun _ _ => trivial

theorem fail {error : NodeError} : Free R p (.fail error : Prog α) := Guards.fail

theorem each {f : β → Prog Unit} (h : ∀ b, Free R p (f b)) (bs : List β) :
    Free R p (Process.each bs f) :=
  Guards.each (I := fun _ _ => True) (fun b _ => h b) bs

theorem clock : Free R p Prog.clock := Guards.clock (Steadfast.const True)

theorem consult {f : RouteCoordinator → α} {stopped : α} : Free R p (Prog.consult f stopped) :=
  Guards.consult (.const True)

theorem coordinate {f : Input → RouteCoordinator → Fallible α × RouteCoordinator} :
    Free R p (Prog.coordinate label f) :=
  Guards.coordinate (.const True)

theorem ask {f : Input → Shared → α} : Free R p (.atomic .plain fun i s => (f i s, s)) :=
  Guards.ask fun _ => .const True

theorem readFallible {f : AgentStore → Except StorageError α} :
    Free R p (Prog.readFallible label f) :=
  (Guards.readFallible fun _ => Steadfast.const True).after fun _ _ _ _ => trivial

theorem read {f : AgentStore → α} : Free R p (Prog.read f) :=
  (Guards.read (Steadfast.const True)).after fun _ _ _ _ => trivial

theorem orFail {prog : Prog (Fallible α)} (h : Free R p prog) : Free R p (Prog.orFail prog) :=
  Guards.orFail (h.after fun _ _ _ _ _ _ => trivial)

theorem orCode {code : String} (h : Free R p prog) : Free R p (Prog.orCode code prog) :=
  Guards.orCode h

theorem attempt (h : Free R p prog) : Free R p (prog.attempt : Prog _) :=
  Guards.after (.attempt h) fun _ _ _ _ => trivial

theorem update (h : ∀ s s', s.Keyed → f s = .ok s' → Change R p s [] s') :
    Free R p (Prog.update f) :=
  Guards.update (.const True) fun s s' hk _ hf => ⟨h s s' hk hf, trivial⟩

theorem quietly (h : ∀ s s', s.Keyed → f s = .ok s' → Quiet s s') : Free R p (Prog.update f) :=
  Free.update fun s s' hk hf => .quiet (h s s' hk hf) (by simp)

end Free

namespace Reconcile

variable {p : Party} {W : Worker} {jobId connectorId ambiguityId : String}
  {resolution : LocalHandoffResolution} {observedAt : DateTime}
  {authoritative : List (String × RouteReservation)}

/-- A spool intent is settled by the engine or at start-up. -/
theorem settleIntent_free {target : JobState} {cloud : Option Bool}
    {f : AgentStore → Except StorageError AgentStore} (hp : p ≠ .sync)
    (hpair : (.spoolIntent, target) ∈ settlements)
    (hf : ∀ s s', s.Keyed → f s = .ok s' → Settles s s' jobId .spoolIntent target cloud) :
    Free R p (Prog.update f) := by
  refine .update fun s s' hk hok => ?_
  exact .settle (hf s s' hk hok) hpair (by simp) (fun _ => nofun) fun h => absurd h hp

theorem finish_free {reservation : RouteReservation} {outcome : NativeHandoffOutcome} :
    Free R p (finish W connectorId jobId reservation outcome) :=
  Free.coordinate

theorem projectSpoolIntent_free (hp : p ≠ .sync) {handoff : LocalHandoffEvidence} :
    Free R p (projectSpoolIntent jobId handoff) := by
  unfold projectSpoolIntent
  split
  · exact settleIntent_free hp (by decide) fun _ _ => recordNativeAcceptance_settles
  · exact settleIntent_free hp (by decide) fun _ _ => recordLocalRetryableFailure_settles
  · exact settleIntent_free hp (by decide) fun _ _ => recordLocalHandoffUncertainty_settles

theorem journalActiveReservation_free (entry : String × RouteReservation) :
    Free R p (journalActiveReservation W connectorId entry) := by
  refine Free.consult.bind fun alreadyJournaled => Free.read.bind fun job => ?_
  split
  · exact finish_free.orFail
  · exact .done

theorem projectHandoff_free (hp : p ≠ .sync) (entry : String × LocalHandoffEvidence) :
    Free R p (projectHandoff entry) := by
  refine Free.read.bind fun job => ?_
  split
  · exact .done
  split
  · exact (projectSpoolIntent_free hp).bind fun _ => .done
  · exact .done

theorem localHandoffCommit_free (entry : String × String) :
    Free R p (localHandoffCommit entry) := by
  refine Free.read.bind fun job => ?_
  split
  · exact .done
  · exact Free.read.bind fun resolution => .done

theorem reconcileLocalRouteState_free (hp : p ≠ .sync) :
    Free R p (reconcileLocalRouteState W connectorId) := by
  refine Free.consult.bind fun reservations => ?_
  refine (Free.each journalActiveReservation_free _).bind fun _ => ?_
  refine Free.consult.bind fun handoffs => ?_
  refine Free.bind (Guards.gather (projectHandoff_free hp) _ _) fun commitJobs => ?_
  refine Free.bind (Guards.gather localHandoffCommit_free _ _) fun commits => ?_
  exact Free.coordinate.orFail.bind fun _ => .done

/-! ### Authoritative routes -/

/-- The release of an uncertain cloud handoff, which the engine does not make. -/
theorem releaseUncertainCloudHandoffForRetry_free (hp : p ≠ .engine) {ms : List Milestone}
    (hms : ∀ m ∈ ms, m = .released jobId) :
    Free R p (releaseUncertainCloudHandoffForRetry ms jobId) := by
  refine Free.read.bind fun job => ?_
  split
  · exact .done
  · apply Guards.writeUnit fun _ => .const True
    intro s s' hk _ _ hf
    exact ⟨.settle (releaseUncertainCloudHandoffForRetry_settles hk hf) (by decide) hms
      (fun h => absurd h hp) fun _ => ⟨rfl, rfl⟩, trivial⟩

theorem evidenceOf_free {proof : Option CloudRouteProof} :
    Free R p (evidenceOf W connectorId observedAt authoritative jobId proof) := by
  refine Free.consult.bind fun recorded => ?_
  split
  · exact .done
  split
  · exact .done
  · exact finish_free.orFail.bind fun _ => .done

theorem recoverSpoolIntent_free {evidence : Option AuthoritativeHandoffResolution} :
    Free R .startup (recoverSpoolIntent jobId evidence) := by
  unfold recoverSpoolIntent
  split
  · exact settleIntent_free (by decide) (by decide) fun _ _ => recordNativeAcceptance_settles
  all_goals
    exact settleIntent_free (by decide) (by decide) fun _ _ => recordCloudHandoffRecovery_settles

theorem recoverUncertain_free {evidence : Option AuthoritativeHandoffResolution} :
    Free R .startup (recoverUncertain jobId evidence) := by
  unfold recoverUncertain
  split
  · exact releaseUncertainCloudHandoffForRetry_free (by decide) (by simp)
  · exact .quietly fun _ _ => finalizeUncertainCloudHandoffRecovery_quiet
  · exact .done

theorem recoverHandoff_free (job : LocalJob) :
    Free R .startup (recoverHandoff W connectorId observedAt authoritative job) := by
  unfold recoverHandoff
  split
  · exact .done
  · refine Free.read.bind fun proof => evidenceOf_free.bind fun evidence => ?_
    split
    · exact recoverUncertain_free
    · exact recoverSpoolIntent_free

theorem settleReservation_free {intents : List (String × CloudAcceptIntent)}
    (entry : String × RouteReservation) :
    Free R p (settleReservation W connectorId intents entry) := by
  refine Free.read.bind fun job => ?_
  split
  · split
    · split
      · split
        · exact .fail
        · exact .done
      · exact .quietly fun _ _ => backfillCloudRouteOwner_quiet
    · exact finish_free.orFail
  · exact finish_free.orFail

theorem adoptOwner_free (job : LocalJob) : Free R p (adoptOwner connectorId job) := by
  refine Free.consult.bind fun authoritative => ?_
  split
  · exact .quietly fun _ _ => backfillCloudRouteOwner_quiet
  · exact .done

theorem reconcileAuthoritativeRouteState_free :
    Free R .startup (reconcileAuthoritativeRouteState W connectorId) := by
  refine Free.clock.bind fun observedAt => Free.consult.bind fun authoritative => ?_
  refine Free.readFallible.bind fun candidates => ?_
  refine (Free.each recoverHandoff_free _).bind fun _ => Free.read.bind fun intents => ?_
  refine (Free.each settleReservation_free _).bind fun _ => ?_
  exact Free.readFallible.bind fun ownerless => Free.each adoptOwner_free _

theorem startup_free : Free R .startup (startup W) := by
  refine .bind (.openCoordinator (.const True)) fun _ => ?_
  split
  · refine (reconcileLocalRouteState_free (by decide)).bind fun _ => ?_
    exact reconcileAuthoritativeRouteState_free
  · exact reconcileAuthoritativeRouteState_free

/-! ### The operator's decisions -/

theorem resolveLocalQueue_free {now : Int} :
    Free R .engine (resolveLocalQueue jobId ambiguityId resolution now) := by
  refine Free.read.bind fun existing => ?_
  split
  · split
    · exact .done
    · exact .fail
  split
  · apply Guards.writeUnit fun _ => .const True
    intro s s' hk _ _ hf
    have hset := resolveUncertainLocalHandoff_settles hk hf fun _ => ⟨rfl, rfl⟩
    exact ⟨.settle hset (by decide) (by simp) (fun _ _ => rfl) nofun, trivial⟩
  · refine .update fun s s' hk hok => ?_
    have hset := resolveUncertainLocalHandoff_settles hk hok fun _ => ⟨rfl, rfl⟩
    exact .settle hset (by decide) (by simp) (fun _ _ => rfl) nofun

theorem resolveLocalTarget_free : Free R p (resolveLocalTarget W jobId ambiguityId resolution) := by
  refine Free.consult.bind fun target => ?_
  split
  · exact .fail
  split
  · exact .fail
  · exact .orFail (.resolveAmbiguousHandoff (.const True))

theorem resolveLocalAmbiguousHandoffControl_free :
    Free R .engine (resolveLocalAmbiguousHandoffControl W jobId ambiguityId resolution) := by
  have hloc : Free R .engine (reconcileLocalRouteState W localConnector) :=
    reconcileLocalRouteState_free (by decide)
  refine Free.read.bind fun job => ?_
  split
  · exact .fail
  split
  · exact .fail
  refine Free.read.bind fun existing => ?_
  split
  · exact hloc
  split
  · exact .fail
  · refine resolveLocalTarget_free.bind fun _ => Free.clock.bind fun now => ?_
    exact resolveLocalQueue_free.bind fun _ => hloc

end Reconcile

namespace Work

variable {W : Worker}

theorem scheduler_free : Free R .engine (scheduler W) := by
  refine Free.consult.bind fun poisoned => ?_
  split
  · exact .done
  refine (Free.attempt Engine.runOnce_guards).bind fun _ => ?_
  split
  · exact (Free.attempt (Reconcile.reconcileLocalRouteState_free (by decide))).bind fun _ => .done
  · exact .done

theorem acceptLocal_free {job : AcceptedJob} {pinned : PinnedFacts} :
    Free R .engine (acceptLocal W job pinned) := by
  refine Free.ask.bind fun bindingCurrent => ?_
  split
  · exact .fail
  · refine .bind (.update fun s s' hk hok => ?_) fun _ => Engine.runOnce_guards
    rcases acceptJobWithFacts_enters hk hok with rfl | ⟨row, henters⟩
    · exact .quiet (.refl hk) (by simp)
    · exact .enter rfl henters rfl

/-- The engine's thread makes only the engine's changes. -/
theorem program_free (work : Work) : Free R .engine (work.program W) := by
  cases work with
  | tick => exact scheduler_free
  | accept job pinned =>
    show Free R .engine (if W.ownsLocal then acceptLocal W job pinned else pure ())
    split
    · exact acceptLocal_free
    · exact .done
  | resolveLocal jobId ambiguityId resolution =>
    show Free R .engine (if W.ownsLocal then
      Reconcile.resolveLocalAmbiguousHandoffControl W jobId ambiguityId resolution else pure ())
    split
    · exact Reconcile.resolveLocalAmbiguousHandoffControl_free
    · exact .done

end Work

end Piqae
