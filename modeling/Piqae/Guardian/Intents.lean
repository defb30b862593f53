/-
Piqae/Guardian/Intents.lean

Intents of the guardian come before their effects, and every activation is
settled.

The last durable phase is that of the last whole record of the journal, which
`load` returns, whether or not its append was acknowledged.  `Proper` says what
an event needs in every run; `Intended` says what must be durable before it.  An
append that fails when its record is whole leaves the guardian behind its own
journal, so that the second holds only if no append does.
-/
import Piqae.Guardian.Moves

namespace Piqae.Guardian

variable {V : Type} {event : Event V} {trace : List (Event V)} {plan : RuntimePlan V}
  {phase : GuardianPhase V} {b : Option AdmissionBlock}

/-! ### Reading a trace -/

/-- The records of the journal, latest first. -/
def recorded (trace : List (Event V)) : List (GuardianState V) :=
  trace.filterMap fun
    | .recorded state _ => some state
    | _ => none

/-- The phase of the last record; a guardian without one is idle. -/
def durablePhase (trace : List (Event V)) : GuardianPhase V :=
  (recorded trace).head?.elim .idle (·.phase)

/-- Does the event begin an update, or wait for it to begin? -/
def Event.isWaiting : Event V → Bool
  | .recorded state _ =>
    match state.phase with
    | .awaitingIdle _ => true
    | _ => false
  | _ => false

/-- The events of the current update since it last waited. -/
def sinceWaiting (trace : List (Event V)) : List (Event V) := trace.takeWhile (!·.isWaiting)

/-- Was the plan activated in the current update? -/
def Activated (trace : List (Event V)) (plan : RuntimePlan V) : Prop :=
  ∃ activity, .activated plan activity ∈ sinceWaiting trace

/-- How the update to an activated plan may end. -/
def Settled (trace : List (Event V)) (plan : RuntimePlan V) : GuardianPhase V → Prop
  | .completed installed rollback =>
    plan = ⟨installed, rollback⟩ ∧ .healthy plan.staged ∈ sinceWaiting trace
  | .rolledBack restored failedRelease _ =>
    restored = plan.previous ∧ failedRelease = plan.staged.version ∧
      .restored plan true ∈ sinceWaiting trace
  | .failed code _ => code = "rollback_failed"
  | _ => False

/-- A runtime is activated only while the node is paused and idle, and every activation is
settled. -/
def Proper (trace : List (Event V)) : Event V → Prop
  | .activated _ activity => activity.paused = true ∧ activity.activeJobs = 0 ∧
      activity.queuedJobs = 0 ∧ activity.handoffInProgress = false ∧
        activity.profileEditActive = false
  | .recorded state _ => state.phase.isResting = true → ∀ plan, Activated trace plan →
      Settled trace plan state.phase
  | _ => True

/-- The phase that is durable before an event. -/
def Intended (trace : List (Event V)) : Event V → Prop
  | .staged _ => durablePhase trace = .staging
  | .activated plan _ => durablePhase trace = .activating plan
  | .restored plan _ => ∃ cause, durablePhase trace = .rollingBack plan cause
  | .accepted _ => ∃ state before, trace = .recorded state true :: before ∧
      (durablePhase before).isResting = true
  | _ => True

/-- Every event comes after what it needs. -/
def Every (P : List (Event V) → Event V → Prop) : List (Event V) → Prop
  | [] => True
  | event :: trace => P trace event ∧ Every P trace

theorem admission_ready {activity : RuntimeActivity} (h : activity.admission = .ready) :
    activity.paused = true ∧ activity.activeJobs = 0 ∧ activity.queuedJobs = 0 ∧
      activity.handoffInProgress = false ∧ activity.profileEditActive = false := by
  simp only [RuntimeActivity.admission] at h
  split_ifs at h
  simp_all

/-! ### Activations and phases -/

/-- The plan that an active runtime belongs to. -/
def GuardianPhase.underway : GuardianPhase V → Option (RuntimePlan V)
  | activating plan | healthChecking plan _ _ _ | rollingBack plan _ => some plan
  | _ => none

/-- Only the plan of the phase was activated in the update. -/
def Covers (trace : List (Event V)) (phase : GuardianPhase V) : Prop :=
  phase.isResting = false → ∀ plan, Activated trace plan → phase.underway = some plan

theorem sinceWaiting_cons (event : Event V) (trace : List (Event V)) :
    sinceWaiting (event :: trace) =
      if event.isWaiting then [] else event :: sinceWaiting trace := by
  cases h : event.isWaiting <;> simp [sinceWaiting, h]

theorem activated_cons (h : Activated (event :: trace) plan) :
    (∃ activity, event = .activated plan activity) ∨ Activated trace plan := by
  obtain ⟨activity, hmem⟩ := h
  rw [sinceWaiting_cons] at hmem
  split_ifs at hmem
  · cases hmem
  rcases List.mem_cons.mp hmem with heq | hmem
  · exact .inl ⟨activity, heq.symm⟩
  · exact .inr ⟨activity, hmem⟩

theorem Covers.cons (h : Covers trace phase)
    (hev : ∀ plan activity, event = .activated plan activity → phase.underway = some plan) :
    Covers (event :: trace) phase := by
  intro hph plan hactd
  rcases activated_cons hactd with ⟨activity, heq⟩ | hactd
  · exact hev plan activity heq
  · exact h hph plan hactd

theorem covers_of_waiting {state : GuardianState V} {acknowledged : Bool}
    (h : state.phase = .awaitingIdle b) (phase : GuardianPhase V) :
    Covers (.recorded state acknowledged :: trace) phase := by
  rintro - plan ⟨activity, hmem⟩
  rw [sinceWaiting_cons, if_pos (by simp [Event.isWaiting, h])] at hmem
  cases hmem

/-- A head of the trace that begins no update is of the current one. -/
theorem mem_sinceWaiting (h : trace.head? = some event) (hev : event.isWaiting = false) :
    event ∈ sinceWaiting trace := by
  obtain ⟨rest, rfl⟩ := List.head?_eq_some_iff.mp h
  rw [sinceWaiting_cons, hev]
  exact List.mem_cons_self

variable {w : World V} {state : GuardianState V} {acknowledged : Bool} {file : JournalFile V}

theorem Leads.covers {next : GuardianPhase V} (h : Leads trace phase next)
    (hcov : Covers trace phase) (hnext : next.isResting = false)
    (hwait : ∀ b, next ≠ .awaitingIdle b) (hplan : Activated trace plan) :
    next.underway = some plan := by
  have hph := hcov (by cases h <;> rfl) plan hplan
  cases h with
  | wait => exact absurd rfl (hwait _)
  | stageFailed | rolledBack | rollbackFailed => cases hnext
  | stage | staged | activate => cases hph
  | beginHealth | giveUp | pending | unhealthy => exact hph

/-- The state that is recorded covers the activations, if the one before it does. -/
theorem Follows.covers (h : Follows w state) (hcov : Covers w.trace w.state.phase) :
    Covers (.recorded state acknowledged :: w.trace) state.phase := by
  cases h with
  | completed => nofun
  | @moved phase now hleads =>
    by_cases hwait : ∃ b, phase = .awaitingIdle b
    · obtain ⟨b, rfl⟩ := hwait
      exact covers_of_waiting rfl _
    · intro hph plan hplan
      refine hleads.covers hcov hph (not_exists.mp hwait) ?_
      exact (activated_cons hplan).resolve_left nofun

/-- A resting phase is recorded only for an update that is settled. -/
theorem Follows.proper (h : Follows w state) (hcov : Covers w.trace w.state.phase) :
    Proper w.trace (.recorded state acknowledged) := by
  intro hrest plan hplan
  cases h with
  | completed hph _ hhl =>
    have hunderway := hcov (by rw [hph]; rfl) plan hplan
    rw [hph] at hunderway
    cases hunderway
    exact ⟨rfl, mem_sinceWaiting hhl rfl⟩
  | @moved phase now hleads =>
    replace hrest : phase.isResting = true := hrest
    show Settled w.trace plan phase
    generalize w.state.phase = before at hleads hcov
    cases hleads with
    | wait | stage | staged | activate | beginHealth | giveUp | pending | unhealthy => cases hrest
    | stageFailed => cases hcov rfl plan hplan
    | rollbackFailed => rfl
    | rolledBack hrestored =>
      cases hcov rfl plan hplan
      exact ⟨rfl, rfl, mem_sinceWaiting hrestored rfl⟩

/-! ### The invariant -/

-- whether no append fails when its record is whole
variable {synced : Prop}

/-- What holds of the file and the trace, with a guardian or without. -/
structure Journalled (synced : Prop) (file : JournalFile V) (trace : List (Event V)) : Prop where
  proper : Every Proper trace
  intended : synced → Every Intended trace
  records : file.records = (recorded trace).reverse
  latest : ∀ state ∈ file.records.getLast?, Covers trace state.phase

/-- What holds of a guardian that runs. -/
structure Guards (synced : Prop) (w : World V) : Prop extends
    Journalled synced w.file w.trace where
  durable : synced → durablePhase w.trace = w.state.phase
  covers : Covers w.trace w.state.phase
  /-- A record that the guardian does not know of goes on with the plan it activates. -/
  ahead : ∀ plan, w.state.phase = .activating plan →
    ∀ state ∈ w.file.records.getLast?, state.phase.underway = some plan

theorem Journalled.record (h : Journalled synced file trace)
    (hprop : Proper trace (.recorded state acknowledged))
    (hcov : Covers (.recorded state acknowledged :: trace) state.phase) :
    Journalled synced ⟨file.records ++ [state], 0⟩ (.recorded state acknowledged :: trace) where
  proper := ⟨hprop, h.proper⟩
  intended hs := ⟨trivial, h.intended hs⟩
  records := by
    show file.records ++ [state] = (state :: recorded trace).reverse
    rw [h.records, List.reverse_cons]
  latest latest hlatest := by
    rw [List.getLast?_concat] at hlatest
    cases hlatest
    exact hcov

/-- An event that records nothing. -/
theorem Journalled.note (h : Journalled synced file trace) (hprop : Proper trace event)
    (hint : synced → Intended trace event) (hrec : recorded (event :: trace) = recorded trace)
    (hev : ∀ plan activity, event = .activated plan activity →
      ∀ state ∈ file.records.getLast?, state.phase.underway = some plan) :
    Journalled synced file (event :: trace) where
  proper := ⟨hprop, h.proper⟩
  intended hs := ⟨hint hs, h.intended hs⟩
  records := h.records.trans (congrArg List.reverse hrec.symm)
  latest state hst := (h.latest state hst).cons fun plan activity heq =>
    hev plan activity heq state hst

/-- A call of the platform that the phase allows. -/
theorem Guards.note (h : Guards synced w) (hprop : Proper w.trace event)
    (hint : durablePhase w.trace = w.state.phase → Intended w.trace event)
    (hrec : recorded (event :: w.trace) = recorded w.trace)
    (hev : ∀ plan activity, event = .activated plan activity →
      w.state.phase = .activating plan) : Guards synced (w.note event) where
  toJournalled := h.toJournalled.note hprop (fun hs => hint (h.durable hs)) hrec
    fun plan activity heq => h.ahead plan (hev plan activity heq)
  durable hs := by
    rw [durablePhase, show recorded (w.note event).trace = _ from hrec]
    exact h.durable hs
  covers := h.covers.cons fun plan activity heq => by rw [hev plan activity heq]; rfl
  ahead := h.ahead

/-- The record of a request begins an update. -/
theorem requested_proper {command : UpdateCommand V} {now : Int} (acknowledged : Bool) :
    Proper trace (.recorded (state.requested command b now) acknowledged) := nofun

/-- A guardian that is opened goes on with the last record. -/
theorem Journalled.open {config : GuardianConfig} {release : V} {now : Int}
    (h : Journalled synced file trace)
    (hstate : state = file.records.getLast?.getD (.initial release now)) :
    Guards synced ⟨file, ⟨config, state⟩, .opened release state :: trace⟩ := by
  have hopened : ∀ plan activity, Event.opened release state ≠ .activated plan activity := by
    rintro plan activity ⟨⟩
  refine ⟨h.note trivial (fun _ => trivial) rfl fun plan activity heq =>
    absurd heq (hopened plan activity), fun _ => ?_, ?_, fun plan hph latest hlatest => ?_⟩
  · show durablePhase trace = state.phase
    rw [hstate, h.records, List.getLast?_reverse, durablePhase]
    cases (recorded trace).head? <;> rfl
  · show Covers _ state.phase
    -- what was read back, if anything was
    cases hlatest : file.records.getLast? with
    | none =>
      rw [hstate, hlatest]
      intro hph
      cases hph
    | some latest =>
      rw [hlatest] at hstate
      subst hstate
      exact (h.latest _ hlatest).cons fun plan activity heq => absurd heq (hopened plan activity)
  · rw [Option.mem_def.mp hlatest] at hstate
    rw [← show state = latest from hstate, show state.phase = .activating plan from hph]
    rfl

variable [LinearOrder V] {size : GuardianState V → Nat} {A : Answer V → Prop}
  {R : GuardianState V → UpdateCommand V → Prop}

theorem Guards.move {w' : World V} (h : Guards synced w)
    (hA : synced → ∀ answer, A answer → answer.fault ≠ some .unsynced)
    (hmove : Move size A R w w') : Guards synced w' := by
  cases hmove with
  | stay => exact h
  | staged hph => exact h.note trivial (·.trans hph) rfl nofun
  | healthy slot => exact h.note trivial (fun _ => trivial) rfl nofun
  | @restored plan cause succeeded hph =>
    exact h.note trivial (fun hdurable => ⟨cause, hdurable.trans hph⟩) rfl nofun
  | @activated plan activity hph hready =>
    refine h.note (admission_ready hready) (·.trans hph) rfl ?_
    rintro plan' activity' heq
    cases heq
    exact hph
  | @recorded state hfol =>
    have hcov : Covers (.recorded state true :: w.trace) state.phase :=
      hfol.covers h.covers
    refine ⟨h.record (hfol.proper h.covers) hcov, fun _ => rfl, hcov, fun plan hph => ?_⟩
    intro latest hlatest
    rw [List.getLast?_concat] at hlatest
    cases hlatest
    rw [show state.phase = .activating plan from hph]
    rfl
  | @unacknowledged state _ hfol ha hfault =>
    have hcov : Covers (.recorded state false :: w.trace) state.phase :=
      hfol.covers h.covers
    refine ⟨h.record (hfol.proper h.covers) hcov, fun hs => absurd hfault (hA hs _ ha), ?_,
      fun plan hph => ?_⟩
    · exact h.covers.cons nofun
    · -- the phases after an activation are of its plan
      intro latest hlatest
      rw [List.getLast?_concat] at hlatest
      cases hlatest
      cases hfol with
      | completed hhealth => exact absurd (hph.symm.trans hhealth) nofun
      | moved hleads =>
        rw [show w.state.phase = .activating plan from hph] at hleads
        cases hleads <;> rfl
  | @accepted command b now hadm =>
    have hrec := h.record (requested_proper true)
      (covers_of_waiting rfl (w.state.requested command b now).phase)
    refine ⟨hrec.note trivial (fun hs => ⟨_, _, rfl, ?_⟩) rfl nofun, fun _ => rfl, ?_, nofun⟩
    · rw [h.durable hs]
      exact hadm.resting
    · exact (covers_of_waiting rfl _).cons nofun
  | @unanswered command b now _ hadm _ ha hfault =>
    refine ⟨h.record (requested_proper false) (covers_of_waiting rfl _),
      fun hs => absurd hfault (hA hs _ ha), covers_of_waiting rfl _, fun plan hph => ?_⟩
    have hrest := hadm.resting
    rw [show w.state.phase = .activating plan from hph] at hrest
    cases hrest
  | _ => exact { h with }

/-- **Intents precede effects, and every activation is settled**, in every run with restarts
anywhere and appends that fail at any call; the phase of each effect is durable before it if no
append fails when its record is whole. -/
theorem intents_precede_effects (size : GuardianState V → Nat) (ops : List (Op V)) :
    Every Proper (Machine.run size ops).trace ∧
      (Machine.run size ops).file.records = (recorded (Machine.run size ops).trace).reverse ∧
      ((∀ op ∈ ops, ∀ answer ∈ op.answers, answer.fault ≠ some .unsynced) →
        Every Intended (Machine.run size ops).trace ∧ ∀ guardian ∈ (Machine.run size ops).running,
          durablePhase (Machine.run size ops).trace = guardian.state.phase) := by
  generalize hsynced :
    (∀ op ∈ ops, ∀ answer ∈ op.answers, answer.fault ≠ some .unsynced) = synced
  have hholds : (Machine.run size ops).Holds (Guards synced) (Journalled synced) := by
    refine Machine.invariant (A := fun answer => synced → answer.fault ≠ some .unsynced)
      (R := fun _ _ => True) (C := fun _ op => op ∈ ops)
      ⟨trivial, fun _ => trivial, rfl, fun _ hlatest => by cases hlatest⟩
      (fun w hw => hw.toJournalled) (fun m config release now _ _ hm state hstate => hm.open hstate)
      (fun m op hop answer hans hs => ?_) (fun _ _ _ _ _ _ _ _ _ _ _ _ => trivial)
      (fun A' hA' w w' hw hmove => hw.move (fun hs answer ha => hA' answer ha hs) hmove)
      (Run.meets_of_forall (fun op hop _ => hop) _)
    rw [← hsynced] at hs
    exact hs op hop answer hans
  exact ⟨hholds.1.proper, hholds.1.records, fun hs => ⟨hholds.1.intended hs, fun guardian hgd =>
    (hholds.2 guardian hgd).durable hs⟩⟩

namespace Sample

def config : GuardianConfig := ⟨"linux", "x86_64", 1000000, 60000, 3⟩

def command (release metadataVersion : Nat) : UpdateCommand Nat :=
  ⟨"update", 0, ⟨release, metadataVersion, "/var/lib/piqae/update", "", 1000⟩⟩

def idle : RuntimeActivity := ⟨true, 0, 0, false, false⟩

/-- Everything goes well, with an update from release 1 to release 2. -/
def answer : Answer Nat where
  fault := none
  stage := .ok ⟨⟨2, "b"⟩, ⟨1, "a"⟩⟩
  activate := .ok ()
  observeActivation := .ok .activated
  restorePrevious := .ok ()
  observe := .ok .healthy

/-- The length of a line with short texts. -/
def lineBytes (_ : GuardianState Nat) : Nat := 400

/-- A request, with the answer to its append. -/
def requested (answer : Answer Nat) : List (Op Nat) :=
  [.open config 1 0, .request (command 2 7) idle 1 (some answer)]

/-- An update whose runtime was activated at time 3. -/
def activated : List (Op Nat) :=
  requested answer ++ [.advance idle 2 (.replicate 3 answer), .advance idle 3 (.replicate 3 answer)]

def unhealthy : List (Op Nat) := activated ++
  [.advance idle 4 (.replicate 2 { answer with observe := .ok (.unhealthy "down") })]

/-- An append tears its record, and the update is rolled back after a restart. -/
def rolledBack : List (Op Nat) := unhealthy ++
  [.advance idle 5 [answer, { answer with fault := some (.torn 7) }], .open config 1 6,
    .advance idle 7 [answer, answer]]

/-- The last append leaves its record whole, and fails. -/
def unsynced : List (Op Nat) := unhealthy ++
  [.advance idle 5 [answer, { answer with fault := some .unsynced }], .advance idle 6 [answer]]

end Sample

open Sample

theorem intents_precede_effects_rolledBack :
    Every Intended (Machine.run lineBytes rolledBack).trace ∧
      (Machine.run lineBytes rolledBack).trace.count (.restored ⟨⟨2, "b"⟩, ⟨1, "a"⟩⟩ true) = 2 := by
  refine ⟨((intents_precede_effects lineBytes rolledBack).2.2 ?_).1, by decide +kernel⟩
  decide +kernel

/-- The previous runtime is restored while the last record is that of an update rolled back. -/
theorem restored_after_rolledBack :
    (Machine.run lineBytes unsynced).trace.head? = some (.restored ⟨⟨2, "b"⟩, ⟨1, "a"⟩⟩ true) ∧
      durablePhase (Machine.run lineBytes unsynced).trace.tail =
        .rolledBack ⟨1, "a"⟩ 2 "unhealthy:down" := by
  decide +kernel

end Piqae.Guardian
