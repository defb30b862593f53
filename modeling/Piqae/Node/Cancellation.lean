/-
Piqae/Node/Cancellation.lean

Cancellation under interleaving.

`append_event` checks the sequence number of an event and nothing else, so an
event can land on a job that has left the state its caller read.  As long as
every statement finds its job where its caller takes it to be (`InBasis`), a
cancelled or expired job is never printed, and a cancellation that was applied
to a job in a state it handles is never taken back.  Without that, neither
holds; the failing runs stand beside the theorems.
-/
import Piqae.Node.Acceptance

namespace Piqae

open AgentStore List

variable {R : Regime} {p : Party} {s s' : AgentStore} {ms : List Milestone} {jobId : String}
  {t t' : Shared}

/-! ### Events -/

/-- The event of a change: its job is in the state of the event afterwards, and
was in no final state before. -/
structure Announces (R : Regime) (s s' : AgentStore) (event : JobEvent) : Prop where
  appended : s'.events = s.events ++ [event]
  after : s'.stateOf event.jobId = some (.known event.state)
  before : R.based → ∀ state ∈ closedStates, s.stateOf event.jobId ≠ some (.known state)

theorem AgentStore.Moves.announces {moved : String} {target : JobState}
    (h : Moves s s' moved target)
    (hbef : R.based → ∀ state ∈ closedStates, s.stateOf moved ≠ some (.known state)) :
    ∃ event, Announces R s s' event := by
  obtain ⟨event, rfl, rfl, happ⟩ := h.events
  exact ⟨event, happ, h.moved, hbef⟩

/-- A change records at most one event. -/
theorem Change.events (h : Change R p s ms s') :
    s'.events = s.events ∨ ∃ event, Announces R s s' event := by
  have hclo : ∀ state ∈ closedStates, state.isTerminal = true ∧
      state ≠ .deliveryUncertain := by decide
  cases h with
  | quiet h => exact .inl h.events
  | event h hfol hbasis =>
    refine .inr (h.announces fun hbased state hmem heq => ?_)
    obtain ⟨before, hbef, hst⟩ := hbasis (.inl hbased)
    rw [heq] at hst
    cases hst
    exact not_follows_of_terminal (hclo state hmem).1 (hfol _ hbef)
  | settle h hpair =>
    refine .inr (h.toMoves.announces fun _ state hmem heq => ?_)
    rw [h.source_eq] at heq
    cases Option.some.inj heq
    revert hpair
    simp only [settlements, mem_cons, Prod.mk.injEq, not_mem_nil, or_false]
    rintro (⟨rfl, -⟩ | ⟨rfl, -⟩ | ⟨rfl, -⟩ | ⟨rfl, -⟩ | ⟨rfl, -⟩) <;> revert hmem <;> decide
  | enter _ h =>
    obtain ⟨event, hid, hst, happ⟩ := h.events
    refine .inr ⟨event, happ, ?_, fun _ state _ => ?_⟩
    · rw [hid, hst, stateOf_of_getJob h.written, h.queued]
    · rw [hid, stateOf_eq_none.mpr h.absent]
      intro hne
      cases hne
  | prepare _ h =>
    rcases h with ⟨rfl, -⟩ | ⟨row, confirmed, h⟩
    · exact .inl rfl
    · exact .inl h.events
  | confirm _ h => exact .inl h.events
  | activate _ _ h =>
    obtain ⟨event, hid, hst, happ⟩ := h.events
    refine .inr ⟨event, happ, ?_, fun _ state _ => ?_⟩
    · rw [hid, hst, stateOf_of_getJob h.written]
    · rw [hid, stateOf_of_getJob h.found, h.pending]
      intro hne
      cases hne
  | release _ h => exact .inl h.events

/-- The milestones of a change: no event, and a native call only for a job that
the queue has as a spool intent, without any event. -/
theorem Change.milestones (h : Change R p s ms s') :
    (∀ id state, .recorded id state ∉ ms) ∧ ∀ id, .submitted id ∈ ms →
      s.stateOf id = some (.known .spoolIntent) ∧ s'.events = s.events := by
  cases h with
  | quiet h hnoted =>
    exact ⟨fun id state hm => hnoted _ hm, fun id hm => ⟨hnoted _ hm, h.events⟩⟩
  | settle _ _ hrel =>
    refine ⟨fun id state hm => ?_, fun id hm => ?_⟩
    · cases hrel _ hm
    · cases hrel _ hm
  | _ => simp

/-- What one step adds to the history. -/
theorem Acts.history (h : Acts R p t t') : ∃ added, t'.history = t.history ++ added ∧
      (∀ id state, .recorded id state ∈ added → t'.store.stateOf id = some (.known state) ∧
        (R.based → ∀ final ∈ closedStates, t.store.stateOf id ≠ some (.known final)) ∧
        ∃ later, added = .recorded id state :: later ∧ (∀ other, .submitted other ∉ later) ∧
          ∀ other next, .recorded other next ∉ later) ∧
      ∀ id, .submitted id ∈ added → t.store.stateOf id = some (.known .spoolIntent) := by
  obtain ⟨ms, hch, hhist⟩ := h
  obtain ⟨hnone, hsubm⟩ := hch.milestones
  rcases hch.events with hsame | ⟨event, happ, haft, hbef⟩
  · refine ⟨ms, ?_, fun id state hm => absurd hm (hnone id state), fun id hm => (hsubm id hm).1⟩
    rw [hhist]
    simp [Shared.putStore, Shared.log, hsame]
  · have hlater : ∀ other, .submitted other ∉ ms := by
      intro other hm
      have := (hsubm other hm).2
      rw [happ] at this
      simp at this
    refine ⟨.recorded event.jobId event.state :: ms, ?_, ?_, ?_⟩
    · rw [hhist]
      simp [Shared.putStore, Shared.log, happ]
    · intro id state hm
      rcases mem_cons.mp hm with heq | hm
      · cases heq
        exact ⟨haft, hbef, ms, rfl, hlater, hnone⟩
      · exact absurd hm (hnone id state)
    · intro id hm
      rcases mem_cons.mp hm with heq | hm
      · cases heq
      · exact absurd hm (hlater id)

/-- Nothing leaves a final state, if every event finds its job where its caller
takes it to be. -/
theorem Acts.closed (h : Acts R p t t') (hbased : R.based) {state : JobState}
    (hmem : state ∈ closedStates) (hst : t.store.stateOf jobId = some (.known state)) :
    t'.store.stateOf jobId = some (.known state) := by
  obtain ⟨ms, hch, -⟩ := h
  obtain ⟨row, hrow, hrs⟩ := stateOf_eq_some.mp hst
  have hmove := hch.jobMove jobId
  rw [hrow] at hmove
  exact hmove.closed hbased hrs hmem

/-! ### Cancelled and expired jobs -/

/-- Once a job is cancelled or expired it stays so, is not handed over, and has
no further event. -/
def Withheld (t : Shared) (jobId : String) : Prop :=
  ∀ state ∈ [JobState.cancelled, .expired], ∀ before after,
    t.history = before ++ .recorded jobId state :: after →
      t.store.stateOf jobId = some (.known state) ∧ .submitted jobId ∉ after ∧
        ∀ next, .recorded jobId next ∉ after

theorem Acts.withheld (h : Acts R p t t') (hbased : R.based) (hw : Withheld t jobId) :
    Withheld t' jobId := by
  intro state hmem before after heq
  have hclo : state ∈ closedStates := by
    have hall : ∀ state ∈ [JobState.cancelled, .expired], state ∈ closedStates := by decide
    exact hall state hmem
  obtain ⟨added, hhist, hrec, hsubm⟩ := h.history
  -- the event is new
  have hnew : ∀ rest, added = rest ++ .recorded jobId state :: after →
      t'.store.stateOf jobId = some (.known state) ∧ .submitted jobId ∉ after ∧
        ∀ next, .recorded jobId next ∉ after := by
    intro rest hadded
    obtain ⟨hst, -, later, hlater, hnot, hnone⟩ := hrec jobId state (by simp [hadded])
    refine ⟨hst, ?_⟩
    rcases rest with - | ⟨first, rest⟩
    · obtain rfl := (List.cons.inj (hlater.symm.trans hadded)).2
      exact ⟨hnot jobId, hnone jobId⟩
    · have hmem' : Milestone.recorded jobId state ∈ later := by
        rw [(List.cons.inj (hlater.symm.trans hadded)).2]
        simp
      exact absurd hmem' (hnone jobId state)
  rw [hhist] at heq
  rcases append_eq_append_iff.mp heq with ⟨rest, -, hadded⟩ | ⟨old, hold, haft⟩
  · exact hnew rest hadded
  rcases old with - | ⟨first, old⟩
  · exact hnew [] haft.symm
  -- the event is old: nothing moves the job any more
  obtain ⟨rfl, rfl⟩ := List.cons.inj haft
  obtain ⟨hst, hnot, hnone⟩ := hw state hmem before old hold
  refine ⟨h.closed hbased hclo hst, ?_, ?_⟩
  · intro hm
    rcases mem_append.mp hm with hm | hm
    · exact hnot hm
    · have hint := hsubm jobId hm
      rw [hst] at hint
      cases Option.some.inj hint
      revert hmem
      decide
  · intro next hm
    rcases mem_append.mp hm with hm | hm
    · exact hnone next hm
    · exact (hrec jobId next hm).2.1 hbased state hclo hst

namespace Node

variable {W : Worker}

instance (s : AgentStore) (label : Label) : Decidable (label.Based s) := by
  cases label <;> unfold Label.Based <;> infer_instance

/-- Every statement finds its job in a state that its caller takes it to be in. -/
def InBasis (n : Node) : NodeOp → Prop
  | .engine _ => ∀ label ∈ n.engine.label?, label.Based n.shared.store
  | .sync _ => ∀ label ∈ n.sync.label?, label.Based n.shared.store
  | _ => True

instance (n : Node) (op : NodeOp) : Decidable (InBasis n op) := by
  apply @NodeOp.casesOn (Decidable <| InBasis n ·) op <;> intros <;> dsimp only [InBasis] <;>
    infer_instance

def inBasis : Regime := ⟨False, True, False, .inr trivial⟩

theorem InBasis.admits {n : Node} {op : NodeOp} (h : n.InBasis op) : n.Admits inBasis op := by
  cases op with
  | engine input => exact ⟨fun label hlab => ⟨fun _ => h label hlab, nofun⟩, nofun⟩
  | sync input => exact ⟨fun label hlab => ⟨fun _ => h label hlab, nofun⟩, nofun⟩
  | elsewhere request => exact nofun
  | _ => trivial

/-- **Cancelled or expired means not printed**: if every event finds its job in a
state that its caller takes it to be in, then after a `cancelled` or `expired`
event no native call for the job begins and no event moves it. -/
theorem cancelled_job_not_printed (ops : List NodeOp)
    (h : Run.Meets (Node.step W) InBasis (blank W) ops) (jobId : String) :
    Withheld (run W (blank W) ops).shared jobId := by
  have hinv : (run W (blank W) ops).Sound inBasis ∧
      Withheld (run W (blank W) ops).shared jobId := by
    refine Run.Meets.invariant (P := fun n : Node => n.Sound inBasis ∧ Withheld n.shared jobId)
      ?_ ?_ h
    · rintro n op ⟨hsound, hw⟩ hop
      obtain ⟨⟨p, hacts, -⟩, hsound'⟩ := hsound.step (W := W) hop.admits
      exact ⟨hsound', hacts.withheld trivial hw⟩
    · refine ⟨sound_blank, ?_⟩
      intro state _ before after heq
      exact absurd heq (by simp [blank])
  exact hinv.2

/-- What a step adds to the history: an event is the state of its job afterwards and
leaves no final state, and a native call begins while the queue has a spool intent. -/
def Recounts (t t' : Shared) : Prop :=
  ∃ added, t'.history = t.history ++ added ∧
    (∀ id state, .recorded id state ∈ added → t'.store.stateOf id = some (.known state) ∧
      ∀ final ∈ closedStates, t.store.stateOf id ≠ some (.known final)) ∧
    ∀ id, .submitted id ∈ added → t.store.stateOf id = some (.known .spoolIntent)

/-- **The history follows the queue**: under the same condition, every step of every
interleaving, with crashes anywhere, adds to the history what the queue says. -/
theorem history_follows_queue (ops : List NodeOp) (op : NodeOp)
    (h : Run.Meets (Node.step W) InBasis (blank W) (ops ++ [op])) :
    Recounts (run W (blank W) ops).shared (run W (blank W) (ops ++ [op])).shared := by
  obtain ⟨hops, hop, -⟩ := Run.meets_append.mp h
  have hsound := sound_run (R := inBasis) (hops.mono fun _ _ => InBasis.admits)
  obtain ⟨⟨p, hacts, -⟩, -⟩ := hsound.step (W := W) hop.admits
  obtain ⟨added, hhist, hrec, hsubm⟩ := hacts.history
  rw [show run W (blank W) (ops ++ [op]) = Node.step W _ op from Run.exec_append ..]
  refine ⟨added, hhist, fun id state hm => ?_, hsubm⟩
  obtain ⟨hst, hbef, -⟩ := hrec id state hm
  exact ⟨hst, hbef trivial⟩

end Node

namespace Sample

/-- The job is accepted and queued. -/
def queueing : List NodeOp := confirming ++ synchronizing (.activate "job-1") 1

/-- The engine is about to call the spooler. -/
def submitting : List NodeOp := queueing ++ .work .tick :: List.replicate 14 (.engine input)

def cancelling : Order := .apply [.cancelJob "job-1"] none

/-- The job is cancelled before the engine looks at its queue. -/
def cancelledInTime : List NodeOp :=
  queueing ++ synchronizing cancelling 11 ++ [.work .tick] ++ List.replicate 10 (.engine input)

/-- The engine has read its queue when the job is cancelled. -/
def cancelledTooLate : List NodeOp :=
  queueing ++ [.work .tick] ++ List.replicate 4 (.engine input) ++ synchronizing cancelling 11 ++
    List.replicate 11 (.engine input)

end Sample

open Sample

theorem cancelled_job_not_printed_in_time :
    Run.Meets (Node.step worker) Node.InBasis (Node.blank worker) cancelledInTime ∧
      Milestone.recorded "job-1" .cancelled ∈
        (Node.run worker (Node.blank worker) cancelledInTime).shared.history ∧
      Withheld (Node.run worker (Node.blank worker) cancelledInTime).shared "job-1" :=
  have h : Run.Meets (Node.step worker) Node.InBasis (Node.blank worker) cancelledInTime ∧
      Milestone.recorded "job-1" .cancelled ∈
        (Node.run worker (Node.blank worker) cancelledInTime).shared.history := by decide +kernel
  ⟨h.1, h.2, Node.cancelled_job_not_printed _ h.1 "job-1"⟩

theorem history_follows_queue_submitting :
    let after := fun ops => (Node.run worker (Node.blank worker) ops).shared
    (after (submitting ++ [.engine input])).history =
      (after submitting).history ++ [.submitted "job-1"] ∧
    Node.Recounts (after submitting) (after (submitting ++ [.engine input])) :=
  ⟨by decide +kernel, Node.history_follows_queue _ _ (by decide +kernel)⟩

/-- The engine goes on with the job that it has read, and prints it after the
cancellation was recorded. -/
theorem cancelled_job_printed :
    ¬Withheld (Node.run worker (Node.blank worker) cancelledTooLate).shared "job-1" := by
  have hhist : (Node.run worker (Node.blank worker) cancelledTooLate).shared.history =
      [.prepared (pdfOffer 1), .recorded "job-1" .queuedLocal,
        .recorded "job-1" .cancelRequested] ++ .recorded "job-1" .cancelled ::
      [.applied (.cancelJob "job-1"), .recorded "job-1" .preparing, .recorded "job-1" .rendering,
        .recorded "job-1" .spoolIntent, .submitted "job-1"] := by decide +kernel
  intro hw
  exact (hw .cancelled (by decide) _ _ hhist).2.1 (by decide)

/-! ### Cancellations that were applied -/

/-- A job that has not come to an end. -/
def Live (s : AgentStore) (jobId : String) : Prop :=
  ∃ state, s.stateOf jobId = some state ∧
    ∀ final : JobState, state = .known final → final.isTerminal = false

/-- The queue knows that a job is to be cancelled. -/
def CancelIntent (s : AgentStore) (jobId : String) : Prop :=
  s.stateOf jobId = some (.known .cancelRequested) ∨
    (s.reconciliation.get? jobId).any (·.cancelRequested) = true

instance (s : AgentStore) (jobId : String) : Decidable (CancelIntent s jobId) :=
  inferInstanceAs (Decidable (_ ∨ _))

/-- The states of a native job that goes on. -/
def activeStates : List JobState := [.spooling, .printing, .blocked, .acceptedBySpooler]

/-- What is being cancelled stays so until it comes to an end. -/
theorem Acts.cancelRequested (h : Acts R p t t') (hbased : R.based)
    (hst : t.store.stateOf jobId = some (.known .cancelRequested)) :
    t'.store.stateOf jobId = some (.known .cancelRequested) ∨
      ∃ final : JobState, t'.store.stateOf jobId = some (.known final) ∧
        final.isTerminal = true := by
  obtain ⟨ms, hch, -⟩ := h
  obtain ⟨row, hrow, hrs⟩ := stateOf_eq_some.mp hst
  have hmove := hch.jobMove jobId
  rw [hrow] at hmove
  obtain ⟨row', hrow', -⟩ := hmove.identity rfl
  rw [hrow'] at hmove
  rw [stateOf_of_getJob hrow']
  cases hmove with
  | stay _ hsame => exact .inl (hsame.trans (congrArg some hrs))
  | event _ hst' hfol =>
    have hfol := hfol (.inl hbased)
    rw [hrs] at hfol
    exact .inr ⟨_, congrArg some hst', final_of_follows_cancelRequested hfol⟩
  | settle _ hsrc _ hpair =>
    cases hrs.symm.trans hsrc
    simp [settlements] at hpair
  | retry _ _ hsrc | activate _ _ hsrc | withdraw _ _ hsrc => cases hrs.symm.trans hsrc

theorem Live.cancelRequested (h : Acts R p t t') (hbased : R.based)
    (hst : t.store.stateOf jobId = some (.known .cancelRequested))
    (hlive : Live t'.store jobId) : t'.store.stateOf jobId = some (.known .cancelRequested) := by
  rcases h.cancelRequested hbased hst with h' | ⟨final, hfin, hterm⟩
  · exact h'
  · obtain ⟨state, hst', hnot⟩ := hlive
    rw [hfin] at hst'
    rw [hnot final (Option.some.inj hst').symm] at hterm
    cases hterm

namespace Node

variable {W : Worker} {n : Node}

instance (s : AgentStore) : ∀ label, Decidable (Label.Handled s label)
  | .cancel jobId => match h : s.getJob jobId with
    | none => isTrue fun row hrow => by
        rw [h] at hrow
        cases hrow
    | some row => decidable_of_iff (row.cloudManaged = true ∧ row.state ∈ handledStates) (by
        show _ ↔ ∀ row, s.getJob jobId = some row → _
        simp [h])
  | .plain | .within | .assumes .. | .reserve | .prepare _ => isTrue trivial

/-- Every statement finds its job where its caller takes it to be, and every
cancellation finds a cloud job in a state that it handles. -/
def Cancellable (n : Node) : NodeOp → Prop
  | .engine _ => ∀ label ∈ n.engine.label?,
      label.Based n.shared.store ∧ label.Handled n.shared.store
  | .sync _ => ∀ label ∈ n.sync.label?, label.Based n.shared.store ∧ label.Handled n.shared.store
  | _ => True

instance (n : Node) (op : NodeOp) : Decidable (Cancellable n op) := by
  apply @NodeOp.casesOn (Decidable <| Cancellable n ·) op <;> intros <;>
    dsimp only [Cancellable] <;> infer_instance

def cancellation : Regime := ⟨False, True, True, .inr trivial⟩

theorem Cancellable.admits {op : NodeOp} (h : n.Cancellable op) : n.Admits cancellation op := by
  cases op with
  | engine input =>
    exact ⟨fun label hlab => ⟨fun _ => (h label hlab).1, fun _ => (h label hlab).2⟩, nofun⟩
  | sync input =>
    exact ⟨fun label hlab => ⟨fun _ => (h label hlab).1, fun _ => (h label hlab).2⟩, nofun⟩
  | elsewhere request => exact nofun
  | _ => trivial

/-- The ledger records a command as applied with one step. -/
def RecordsApplied (n n' : Node) (command : AgentCommand) : Prop :=
  ∃ added, n'.shared.history = n.shared.history ++ added ∧ .applied command ∈ added

/-- What is applied to a job that lives on is a cancellation under way. -/
theorem RecordsApplied.cancelRequested {n' : Node} (h : n.RecordsApplied n' (.cancelJob jobId))
    (hacts : Acts cancellation p n.shared n'.shared) (hlive : Live n'.shared.store jobId) :
    n'.shared.store.stateOf jobId = some (.known .cancelRequested) := by
  obtain ⟨added, hadded, hmem⟩ := h
  obtain ⟨ms, hch, hhist⟩ := hacts
  -- the milestone is one of the change's own
  have hms : Milestone.applied (.cancelJob jobId) ∈ ms := by
    rw [hhist, Shared.putStore, Shared.log, append_assoc] at hadded
    rw [← append_cancel_left hadded] at hmem
    rcases mem_append.mp hmem with hmem | hmem
    · obtain ⟨event, -, heq⟩ := mem_map.mp hmem
      cases heq
    · exact hmem
  have hset : CancelSettled n'.shared.store jobId := by
    cases hch with
    | quiet hquiet hnoted =>
      have hnoted := hnoted _ hms trivial trivial
      intro state hst
      rw [hquiet.states] at hst
      exact hnoted state hst
    | settle _ _ hrel => cases hrel _ hms
    | prepare => simp at hms
    | _ => cases hms
  obtain ⟨state, hst, hnot⟩ := hlive
  rcases hset state hst with rfl | ⟨final, rfl, hterm⟩
  · exact hst
  · rw [hnot final rfl] at hterm
    cases hterm

/-- The job stays to be cancelled along a run, for as long as it lives. -/
theorem cancelRequested_exec {later : List NodeOp} (hsound : n.Sound cancellation)
    (hlater : Run.Meets (Node.step W) Cancellable n later)
    (hlive : ∀ done, done <+: later → Live (Run.exec (Node.step W) n done).shared.store jobId)
    (hst : n.shared.store.stateOf jobId = some (.known .cancelRequested)) :
    (Run.exec (Node.step W) n later).shared.store.stateOf jobId =
      some (.known .cancelRequested) := by
  induction later generalizing n with
  | nil => exact hst
  | cons next later ih =>
    obtain ⟨⟨q, hacts, -⟩, hsound'⟩ := hsound.step (W := W) hlater.1.admits
    refine ih hsound' hlater.2 ?_ ?_
    · exact fun done hdone => hlive (next :: done) (cons_prefix_cons.mpr ⟨rfl, hdone⟩)
    · exact Live.cancelRequested hacts trivial hst
        (hlive [next] (cons_prefix_cons.mpr ⟨rfl, nil_prefix⟩))

/-- **Cancellation is not lost**: if every statement finds its job where its
caller takes it to be and every cancellation finds a cloud job in a state that
it handles, then from the moment the ledger has recorded the cancellation of a
live job the queue knows that the job is to be cancelled until the job comes to
an end, and the engine does not move it back to an active state. -/
theorem cancellation_not_lost (ops later : List NodeOp) (op : NodeOp) (jobId : String)
    (h : Run.Meets (Node.step W) Cancellable (blank W) (ops ++ op :: later)) :
    (RecordsApplied (run W (blank W) ops) (run W (blank W) (ops ++ [op])) (.cancelJob jobId) →
      (∀ done, done <+: later → Live (run W (blank W) (ops ++ op :: done)).shared.store jobId) →
        CancelIntent (run W (blank W) (ops ++ op :: later)).shared.store jobId) ∧
    ∀ input, op = .engine input →
      (run W (blank W) ops).shared.store.stateOf jobId = some (.known .cancelRequested) →
        ∀ state ∈ activeStates,
          (run W (blank W) (ops ++ [op])).shared.store.stateOf jobId ≠ some (.known state) := by
  obtain ⟨hops, hop, hlater⟩ := Run.meets_append.mp h
  have hsound := sound_run (R := cancellation) (hops.mono fun _ _ => Cancellable.admits)
  obtain ⟨⟨p, hacts, -⟩, hsound'⟩ := hsound.step (W := W) hop.admits
  have hstep : run W (blank W) (ops ++ [op]) = Node.step W (run W (blank W) ops) op :=
    Run.exec_append ..
  have hrun : ∀ done, run W (blank W) (ops ++ op :: done) =
      Run.exec (.step W) (.step W (run W (blank W) ops) op) done :=
    fun done => Run.exec_append ..
  refine ⟨fun hrecs hlive => .inl ?_, ?_⟩
  · rw [hrun]
    simp only [hrun] at hlive
    rw [hstep] at hrecs
    exact cancelRequested_exec hsound' hlater hlive
      (hrecs.cancelRequested hacts (hlive [] List.nil_prefix))
  · rintro input rfl hst state hmem heq
    rw [hstep] at heq
    have hall : ∀ state ∈ activeStates, state ≠ .cancelRequested ∧ state.isTerminal = false := by
      decide
    rcases hacts.cancelRequested trivial hst with hsame | ⟨final, hfin, hterm⟩
    · rw [heq] at hsame
      exact (hall state hmem).1 (LocalState.known.inj (Option.some.inj hsame))
    · rw [heq] at hfin
      cases Option.some.inj hfin
      rw [(hall state hmem).2] at hterm
      cases hterm

end Node

namespace Sample

/-- The cancellation reaches the ledger next, with the engine preparing the job. -/
def cancelledPreparing : List NodeOp :=
  queueing ++ [.work .tick] ++ List.replicate 6 (.engine input) ++ synchronizing cancelling 4

/-- The same for a job that the native spooler has. -/
def cancelledPrinting : List NodeOp :=
  queueing ++ [.work .tick] ++ List.replicate 24 (.engine input) ++ synchronizing cancelling 7

end Sample

theorem cancellation_not_lost_printing :
    Run.Meets (Node.step worker) Node.Cancellable (Node.blank worker)
        (cancelledPrinting ++ [.sync input]) ∧ CancelIntent (Node.run worker (Node.blank worker)
        (cancelledPrinting ++ [.sync input])).shared.store "job-1" := by
  obtain ⟨h, hhist, hst⟩ : Run.Meets (.step worker) Node.Cancellable (.blank worker)
      (cancelledPrinting ++ [.sync input]) ∧
    (Node.run worker (Node.blank worker) (cancelledPrinting ++ [.sync input])).shared.history =
      (Node.run worker (Node.blank worker) cancelledPrinting).shared.history ++
        [.applied (.cancelJob "job-1")] ∧
    (Node.run worker (Node.blank worker) (cancelledPrinting ++ [.sync input])).shared.store.stateOf
      "job-1" = some (.known .cancelRequested) := by decide +kernel
  refine ⟨h, (Node.cancellation_not_lost cancelledPrinting [] (.sync input) "job-1" h).1 ?_ ?_⟩
  · exact ⟨[.applied (.cancelJob "job-1")], hhist, by simp⟩
  · intro done hdone
    rw [List.prefix_nil.mp hdone]
    refine ⟨.known .cancelRequested, hst, ?_⟩
    rintro final ⟨⟩
    rfl

/-- A job that is being prepared is not cancelled, and the ledger says that the
command was applied. -/
theorem cancellation_lost :
    Node.RecordsApplied (Node.run worker (Node.blank worker) cancelledPreparing)
        (Node.run worker (Node.blank worker) (cancelledPreparing ++ [.sync input]))
        (.cancelJob "job-1") ∧ Live (Node.run worker (Node.blank worker)
        (cancelledPreparing ++ [.sync input])).shared.store "job-1" ∧
      ¬CancelIntent (Node.run worker (Node.blank worker)
        (cancelledPreparing ++ [.sync input])).shared.store "job-1" := by
  obtain ⟨hhist, hst, hint⟩ :
    (Node.run worker (Node.blank worker) (cancelledPreparing ++ [.sync input])).shared.history =
      (Node.run worker (Node.blank worker) cancelledPreparing).shared.history ++
        [.applied (.cancelJob "job-1")] ∧
    (Node.run worker (Node.blank worker) (cancelledPreparing ++ [.sync input])).shared.store.stateOf
      "job-1" = some (.known .preparing) ∧ ¬CancelIntent (Node.run worker (Node.blank worker)
      (cancelledPreparing ++ [.sync input])).shared.store "job-1" := by decide +kernel
  refine ⟨⟨[.applied (.cancelJob "job-1")], hhist, by simp⟩, ⟨_, hst, ?_⟩, hint⟩
  rintro final ⟨⟩
  rfl

end Piqae
