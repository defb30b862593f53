/-
Piqae/Node/Commands.lean

The synchronization keeps its discipline, and what it knows about the commands
that it has applied.

`request_cancel` is several statements.  It either finds the job in a state in
which it can be cancelled and then the engine cannot take the cancellation back
(`Cancelling`), or, for the states it does not handle, it succeeds without
doing anything.
-/
import Piqae.Node.Threads

namespace Piqae

open AgentStore

variable {R : Regime} {s s' : AgentStore} {job : LocalJob} {jobId : String}

/-- The row of a job that was read before is still there. -/
def Same (job : LocalJob) (s : AgentStore) : Prop :=
  ∃ row, s.getJob job.jobId = some row ∧ row.identity = job.identity

theorem steadfast_same : Steadfast R .sync (Same job) := by
  rintro s ms s' hch ⟨row, hrow, hid⟩
  obtain ⟨row', hrow', hid'⟩ := (hch.jobMove job.jobId).identity hrow
  exact ⟨row', hrow', hid'.trans hid⟩

theorem At.same {state : JobState} (h : At job state s) : Same job s := by
  obtain ⟨row, hrow, hid, -⟩ := h
  exact ⟨row, hrow, hid⟩

theorem At.stateOf_eq {state : JobState} (h : At job state s) :
    s.stateOf job.jobId = some (.known state) := by
  obtain ⟨row, hrow, -, hst⟩ := h
  rw [stateOf_of_getJob hrow, hst]

/-- The job is in the state that the call has read, if calls are not
interrupted. -/
def Expects (R : Regime) (job : LocalJob) (state : LocalState) (s : AgentStore) : Prop :=
  (R.atomic → s.stateOf job.jobId = some state) ∧ Same job s

theorem steadfast_expects {state : LocalState} (h : ¬R.atomic) :
    Steadfast R .sync (Expects R job state) :=
  (Steadfast.imp fun hatom => absurd hatom h).and steadfast_same

namespace Sync

variable {state : LocalState} {f : QueueSettings → QueueSettings} {W : Worker}
  {observed : Int} {command : AgentCommand} {commands : List AgentCommand} {offer : Offer}

/-- An event of a cancellation. -/
theorem cancelEvent_guards {target : JobState} {reason message : Option String}
    (hmem : state ∈ cancellable) (hfol : Follows target state)
    (htgt : target = .cancelRequested ∨ target = .cancelled) : Guards R .sync (Expects R job state)
      (Prog.appendNextEvent .within job.jobId [state] target reason message)
      fun _ => At job target := by
  have hstd : ¬R.atomic → Steadfast R .sync (Expects R job state) := steadfast_expects
  apply Guards.appendNextEvent (fun hj => hstd fun hatom => hj ⟨hatom, rfl⟩) hstd
  intro s s' _ hs hbased hmoves
  have hbasis : ∃ before ∈ [state], s.stateOf job.jobId = some before := by
    rcases R.covered with hatom | hb
    · exact ⟨state, List.mem_singleton_self _, hs.1 hatom⟩
    · exact hbased hb
  have hst : s.stateOf job.jobId = some state := by
    obtain ⟨before, hbef, heq⟩ := hbasis
    rwa [List.mem_singleton.mp hbef] at heq
  have hall : ∀ before ∈ [state], Follows target before := by simpa using hfol
  refine ⟨.event hmoves hall (fun _ => hbasis) ?_ ?_ ?_, ?_⟩
  · rw [hst]
    rintro ⟨⟩
    exact hfol
  · rcases htgt with rfl | rfl <;> nofun
  · exact fun _ => ⟨htgt, by simpa using hmem⟩
  · obtain ⟨row, hrow, hid⟩ := hs.2
    obtain ⟨row', moved, hrow', hmoved, hid', hst'⟩ := hmoves.row
    cases hrow.symm.trans hrow'
    exact ⟨moved, hmoved, hid'.trans hid, hst'⟩

/-- A cancellation that was applied is under way, if it found its job in a state
that it handles. -/
def Cancelled (R : Regime) (jobId : String) (s : AgentStore) : Prop :=
  R.based → R.handled → Cancelling jobId s

theorem steadfast_cancelled : Steadfast R .sync (Cancelled R jobId) :=
  fun _ _ _ hch hs hbased hhdd => (hs hbased hhdd).change hbased hch

theorem At.cancelled {state : JobState} (h : At job state s)
    (hmg : R.handled → job.cloudManaged = true)
    (hst : state = .cancelRequested ∨ state.isTerminal = true) : Cancelled R job.jobId s := by
  intro _ hhdd
  obtain ⟨row, hrow, hid, hrs⟩ := h
  refine ⟨row, hrow, (managed_of_identity hid).trans (hmg hhdd), ?_⟩
  rcases hst with rfl | hterm
  · exact .inl hrs
  · exact .inr ⟨state, hrs, hterm⟩

theorem follows_cancelRequested (h : state ∈ Engine.expirable ++ handedOver) :
    Follows .cancelRequested state := by
  revert h state
  decide

theorem cancelBeforeHandoff_guards (hmg : R.handled → job.cloudManaged = true) :
    Guards R .sync (Same job) (cancelBeforeHandoff (.assumes job.jobId Engine.expirable) job.jobId)
      fun _ => Cancelled R job.jobId := by
  refine .bind (.readAt fun _ => steadfast_same) fun found => ?_
  rcases found with - | found
  · exact .fail
  dsimp only
  split
  · next hst =>
    -- the row that is read now is the one that was read before
    have hwait : found.state ∈ Engine.expirable ++ handedOver := List.mem_append_left _ hst
    refine .bind (.before (cancelEvent_guards (List.mem_append_left _ hwait)
      (follows_cancelRequested hwait) (.inl rfl)) ?_) fun _ => ?_
    · rintro s - ⟨hsame, hget, -⟩
      exact ⟨fun _ => stateOf_of_getJob hget.symm, hsame⟩
    · refine .consequence (cancelEvent_guards (by decide) (by decide) (.inr rfl)) ?_ ?_
      · exact fun s _ hs => ⟨fun _ => hs.stateOf_eq, hs.same⟩
      · exact fun _ s _ hs => At.cancelled hs hmg (.inr rfl)
  · next hst =>
    -- nothing is done only if the job has moved since it was read
    refine .done fun s hs hbased => ?_
    obtain ⟨-, hget, -, hlab⟩ := hs
    obtain ⟨state, hmem, heq⟩ := hlab hbased
    rw [stateOf_of_getJob hget.symm] at heq
    exact absurd (Option.some.inj heq ▸ hmem) hst

theorem scheduleCancel_guards : Guards R .sync (Cancelled R jobId)
      (Prog.write .within [] fun store => .ok ((), store.scheduleCancel jobId observed))
      fun _ => Cancelled R jobId := by
  apply Guards.write fun _ => steadfast_cancelled
  rintro s _ s' hk hs - ⟨⟩
  have hquiet : Quiet s (s.scheduleCancel jobId observed) := scheduleCancel_quiet hk observed
  refine ⟨.quiet hquiet (by simp), fun hbased hhdd => ?_⟩
  have hsame : (s.scheduleCancel jobId observed).getJob jobId = s.getJob jobId := by
    unfold scheduleCancel
    split <;> rfl
  obtain ⟨row, hrow, hst⟩ := hs hbased hhdd
  exact ⟨row, hsame.trans hrow, hst⟩

/-- The states of a job that a cancellation need not touch. -/
theorem settled_of_handled (h : state ∈ handledStates) (hwait : state ∉ Engine.expirable)
    (hhanded : state ∉ handedOver) : state = .known .cancelRequested ∨
      ∃ final : JobState, state = .known final ∧ final.isTerminal = true := by
  simp only [handledStates, cancellable, List.mem_append, hwait, hhanded, false_or] at h
  rcases h with h | h
  · exact .inl (List.mem_singleton.mp h)
  · simp only [List.mem_cons, List.not_mem_nil, or_false] at h
    rcases h with rfl | rfl | rfl | rfl | rfl <;> exact .inr ⟨_, rfl, rfl⟩

theorem requestCancel_guards :
    Guards R .sync (fun _ => True) (requestCancel jobId observed) fun _ => Cancelled R jobId := by
  refine .bind (.readAt fun _ => .const True) fun found => ?_
  rcases found with - | job
  · exact .fail
  -- the row is the one of the job, and the condition on the regime is about it
  refine .assume (φ := job.jobId = jobId ∧ (R.handled →
    job.cloudManaged = true ∧ job.state ∈ handledStates)) ?_ ?_
  · rintro s hk ⟨-, hget, hhdd, -⟩
    exact ⟨hk jobId job hget.symm, fun hr => hhdd hr job hget.symm⟩
  rintro ⟨rfl, hhdd⟩
  have hmg : R.handled → job.cloudManaged = true := fun hr => (hhdd hr).1
  dsimp only
  split
  · refine (cancelBeforeHandoff_guards hmg).before ?_
    exact fun s _ hs => ⟨job, hs.2.1.symm, rfl⟩
  next hwait =>
  split
  · next hhanded =>
    have hmem : job.state ∈ Engine.expirable ++ handedOver := List.mem_append_right _ hhanded
    refine .bind (.before (cancelEvent_guards (List.mem_append_left _ hmem)
      (follows_cancelRequested hmem) (.inl rfl)) ?_) fun _ => ?_
    · exact fun s _ hs => ⟨fun _ => stateOf_of_getJob hs.2.1.symm, job, hs.2.1.symm, rfl⟩
    · exact scheduleCancel_guards.before fun s _ hs => At.cancelled hs hmg (.inl rfl)
  · next hhanded =>
    refine .done fun s hs _ hr => ?_
    exact ⟨job, hs.2.1.symm, hmg hr, settled_of_handled (hhdd hr).2 hwait hhanded⟩

/-! ### Commands -/

theorem setSettings_guards {P : AgentStore → Prop} {ms : List Milestone}
    (hstd : Steadfast R .sync P) (hnoted : ∀ s, P s → ∀ m ∈ ms, Noted R s m) :
    Guards R .sync P (setSettings ms f) fun _ _ => True := by
  apply Guards.write fun _ => hstd
  rintro s _ s' hk hs - ⟨⟩
  exact ⟨.quiet (.of_jobs hk rfl rfl rfl) (hnoted s hs), trivial⟩

theorem setSettings_free : Free R .sync (setSettings [] f) :=
  setSettings_guards (.const True) (by simp)

theorem resolveAmbiguousHandoff_free {jobId localRouteKey : String} {reservationId : Uuid}
    {generation : Nat} {resolution : AmbiguousHandoffResolution} :
    Free R .sync (resolveAmbiguousHandoff W jobId localRouteKey reservationId generation
      resolution) := by
  refine .bind (.orFail (.resolveAmbiguousHandoff (.const True))) fun _ => ?_
  split
  · exact Reconcile.releaseUncertainCloudHandoffForRetry_free (by decide) (by simp)
  · exact .quietly fun _ _ => finalizeUncertainCloudHandoffRecovery_quiet

/-- What is known after a command was applied. -/
def Applied (R : Regime) : AgentCommand → AgentStore → Prop
  | .cancelJob jobId => Cancelled R jobId
  | _ => fun _ => True

theorem steadfast_applied : Steadfast R .sync (Applied R command) := by
  cases command with
  | cancelJob jobId => exact steadfast_cancelled
  | _ => exact .const True

theorem Applied.noted (h : Applied R command s) :
    Noted R s (.applied command) := by
  cases command with
  | cancelJob jobId => exact fun hbased hhdd => (h hbased hhdd).settled
  | _ => trivial

theorem applyCommand_guards :
    Guards R .sync (fun _ => True) (applyCommand W command) fun _ => Applied R command := by
  cases command with
  | cancelJob jobId =>
    exact .bind (.clock (.const True)) fun now => requestCancel_guards
  | pause =>
    show Free R .sync (setSettings [] fun settings => { settings with paused := true })
    exact setSettings_free
  | resume =>
    show Free R .sync (setSettings [] fun settings => { settings with paused := false })
    exact setSettings_free
  | collectDiagnostics => exact setSettings_free
  | resolveAmbiguousHandoff =>
    exact resolveAmbiguousHandoff_free
  | _ => exact Free.done

theorem applyDue_free {now : Int} {ledger : CommandRecoveryLedger} :
    Free R .sync (applyDue W now commands ledger) := by
  induction commands generalizing ledger with
  | nil => exact .done
  | cons command commands ih =>
    unfold applyDue
    dsimp only
    split
    · exact ih
    refine Guards.bind applyCommand_guards.attempt fun result => ?_
    -- what the command achieved stands until the ledger says so
    refine .bind (.orCode (setSettings_guards ?_ ?_)) fun _ => ih
    · intro s ms s' hch hs value hval
      exact steadfast_applied s ms s' hch (hs value hval)
    · intro s hs m hm
      rcases result with error | value
      · cases hm
      · obtain rfl := List.mem_singleton.mp hm
        exact (hs value rfl).noted

theorem applyCommands_free {commandCursor : Option String} :
    Free R .sync (applyCommands W commands commandCursor) := by
  have hclear : Free R .sync (.orCode "command_recovery_clear_failed" (persistLedger [] .empty)) :=
    setSettings_free.orCode
  refine Free.clock.bind fun now => Free.read.orCode.bind fun stored => ?_
  split
  · exact .fail
  refine applyDue_free.bind fun ledger => ?_
  split
  · dsimp only
    split
    · exact setSettings_free.orCode.bind fun _ => hclear
    · exact hclear
  · exact .done

/-! ### Offers -/

theorem prepareDurably_free : Free R .sync (prepareDurably W offer) := by
  refine Free.ask.bind fun bindingCurrent => ?_
  split
  · exact .fail
  refine .bind (.write (fun _ => .const True) ?_) fun inserted => ?_
  · intro s inserted s' hk _ _ hf
    obtain ⟨store, hsto, ⟨⟩⟩ := Except.map_eq_ok hf
    refine ⟨.prepare rfl ?_, trivial⟩
    exact (prepareCloudJobWithFacts_prepares hk hsto).imp_left fun h => ⟨h.1, h.2.1⟩
  · split
    · exact Free.readFallible.bind fun _ => .done
    · exact .done

theorem compensate_free {registration : AuthoritativeRouteRegistration}
    {error : NodeError} : Free R .sync (compensate W offer registration error) := by
  refine Free.read.bind fun intents => ?_
  split
  · refine Reconcile.finish_free.bind fun finished => ?_
    rcases finished with messages | -
    · exact .fail
    · exact .fail
  · exact .fail

theorem prepare_free : Free R .sync (prepare W offer) := by
  refine Free.coordinate.bind fun registered => ?_
  rcases registered with messages | registration
  · exact .fail
  refine prepareDurably_free.attempt.bind fun prepared => ?_
  rcases prepared with error | -
  · exact compensate_free
  · exact .done

end Sync

/-- The synchronization makes only its own changes. -/
theorem Order.program_free (W : Worker) (order : Order) : Free R .sync (order.program W) := by
  cases order with
  | prepare offer => exact Sync.prepare_free
  | confirm jobId =>
    refine .update fun s s' _ hok => ?_
    obtain ⟨intent, h⟩ := confirmCloudAccept_confirms hok
    exact .confirm rfl h
  | activate jobId =>
    refine .update fun s s' hk hok => ?_
    rcases activateCloudJob_activates hk hok with rfl | ⟨job, intent, h⟩
    · exact .quiet (.refl hk) (by simp)
    · exact .activate rfl hok h
  | abandon jobId =>
    exact .update fun s s' hk hok => .release rfl (abandonCloudAccept_releases hk hok)
  | quarantine jobId =>
    refine .update fun s s' hk hok => ?_
    cases hok
    exact .release rfl (quarantinePreparedCloudAccept_releases hk jobId)
  | quarantineInvalid =>
    refine .update fun s s' hk hok => ?_
    cases hok
    exact .release rfl (quarantineInvalidCloudAccepts_releases hk)
  | apply commands commandCursor => exact Sync.applyCommands_free
  | acknowledge => exact Free.coordinate.orFail

end Piqae
