/-
Piqae/Server/Projection.lean

When a job event that the server has applied is also projected on the job's
latest delivery attempt.  The projection knows only attempts the spooler has
accepted: an event that ends a job its node still holds finds the attempt
`accepted_by_node` or `queued_local`, and is refused.
-/
import Piqae.Server.ControlPlane

namespace Piqae.Server

namespace PostgresStore

variable {s s' : PostgresStore} {now : DateTime} {agentId : String} {event : JobEvent}

theorem latestWhere_eq (p : DeliveryAttempt → Bool) :
    s.latestWhere p = s.attempts.findEntry? fun _ attempt => decide (p attempt = true ∧
      ∀ other ∈ s.attempts.values, p other = true → other.generation ≤ attempt.generation) := by
  unfold latestWhere
  congr 1
  funext _ attempt
  rw [Bool.eq_iff_iff]
  simp only [Bool.and_eq_true, List.all_eq_true, Bool.or_eq_true, Bool.not_eq_true',
    decide_eq_true_eq, ← imp_iff_not_or, Bool.eq_false_iff, ne_eq]

/-- The latest attempt among some is the latest among fewer that it belongs to. -/
theorem latestWhere_and {p q : DeliveryAttempt → Bool} {e : String × DeliveryAttempt}
    (h : s.latestWhere p = some e) (hq : q e.2 = true) :
    s.latestWhere (fun attempt => p attempt && q attempt) = some e := by
  rw [latestWhere_eq] at h ⊢
  obtain ⟨hmem, hlatest⟩ := SortedMap.findEntry?_some h
  obtain ⟨hp, hmax⟩ := of_decide_eq_true hlatest
  have hval : e.2 ∈ s.attempts.values := SortedMap.mem_values.mpr ⟨e.1, hmem⟩
  refine SortedMap.findEntry?_of_imp h (decide_eq_true ?_) ?_
  · refine ⟨by rw [hp, hq]; rfl, ?_⟩
    intro other hother hpq
    exact hmax other hother (Bool.and_eq_true_iff.mp hpq).1
  · intro e' _ hlatest'
    obtain ⟨hpq', hmax'⟩ := of_decide_eq_true hlatest'
    refine decide_eq_true ⟨(Bool.and_eq_true_iff.mp hpq').1, ?_⟩
    intro other hother hpo
    exact (hmax other hother hpo).trans (hmax' e.2 hval (by rw [hp, hq]; rfl))

/-- The attempts that a node's event of a job can be projected on: final ones,
which stay as they are, and those the spooler has, unless the job expired. -/
def Projectable (s : PostgresStore) (agentId : String) (event : JobEvent) : Prop :=
  projectedState event.state = none ∨
    ∃ attemptId attempt route, s.latestAttempt event.jobId = some (attemptId, attempt) ∧
      s.routes.get? attempt.routeId = some route ∧ route.agentId = agentId ∧
      (attempt.state.isFinal = true ∨
        MemoryState.postSpooler attempt.state = true ∧ event.state ≠ .expired)

theorem applyAgentEvent_frame {job : Option JobRow}
    (h : s.applyAgentEvent agentId event = .ok (job, s')) :
    s'.attempts = s.attempts ∧ s'.routes = s.routes := by
  unfold applyAgentEvent at h
  split_ifs at h
  · cases h
    exact ⟨rfl, rfl⟩
  split at h
  · cases h
  split_ifs at h
  split at h
  · cases h
  · cases h
    exact ⟨rfl, rfl⟩

/-- Receiving an event changes no attempt and no route. -/
theorem receiveEvent_frame {project : Bool} (h : s.receiveEvent agentId event = .ok (project, s')) :
    s'.attempts = s.attempts ∧ s'.routes = s.routes := by
  unfold receiveEvent at h
  split at h
  · next happ =>
    cases h
    exact applyAgentEvent_frame happ
  · next happ =>
    cases h
    exact applyAgentEvent_frame happ
  · cases h
    exact ⟨rfl, rfl⟩
  · cases h

theorem projectable_congr (hatt : s'.attempts = s.attempts) (hrts : s'.routes = s.routes) :
    s'.Projectable agentId event ↔ s.Projectable agentId event := by
  simp only [Projectable, latestAttempt, latestWhere, hatt, hrts]

section Project

variable {next : DeliveryAttemptState} {attemptId : String} {current : DeliveryAttempt}
  {route : PrinterRouteRow} {jobId : String} {state : JobState}

theorem markPostSpoolerAttemptUncertain_isOk
    (hlatest : s.latestAttempt jobId = some (attemptId, current)) :
    (s.markPostSpoolerAttemptUncertain now jobId).isOk = MemoryState.postSpooler current.state := by
  unfold markPostSpoolerAttemptUncertain
  rw [hlatest]
  cases hpost : MemoryState.postSpooler current.state <;> simp [hpost, Except.isOk, Except.toBool]

/-- The states a node's report may set. -/
def reportable (next : DeliveryAttemptState) : Bool :=
  next == .printingReported || next == .completedReported || next == .failed ||
    next == .deliveryUncertain

theorem transitionPostSpoolerAttempt_isOk
    (hlatest : s.latestAttempt jobId = some (attemptId, current))
    (hrt : s.routes.get? current.routeId = some route) (hagent : route.agentId = agentId) :
    (s.transitionPostSpoolerAttempt now jobId agentId current.routeId next).isOk =
      (reportable next && (validAttemptTransition current.state next &&
        MemoryState.postSpooler current.state)) := by
  have hsame : s.latestWhere (fun attempt => attempt.jobId == jobId &&
      attempt.routeId == current.routeId) = some (attemptId, current) :=
    latestWhere_and hlatest (beq_self_eq_true _)
  unfold transitionPostSpoolerAttempt
  rw [hrt, hsame, ← reportable]
  cases reportable next <;> cases hval : validAttemptTransition current.state next <;>
    cases hpost : MemoryState.postSpooler current.state <;>
    simp [hagent, hval, hpost, Except.isOk, Except.toBool]

/-- What an event reports can follow the states the spooler sets, except a clean
end of the job. -/
theorem reportable_and_valid (hnext : projectedState state = some next)
    (hpost : MemoryState.postSpooler current.state = true)
    (hproj : alreadyProjected next current.state = false) :
    (reportable next && validAttemptTransition current.state next) = decide (state ≠ .expired) := by
  have hcur : current.state = .acceptedBySpooler ∨ current.state = .printingReported := by
    simpa [MemoryState.postSpooler] using hpost
  obtain hcur | hcur := hcur <;> rw [hcur] at hproj ⊢ <;> cases state <;>
    cases hnext <;> first | rfl | cases hproj

theorem projectAttempt_isOk_iff (hnext : projectedState event.state = some next)
    (hlatest : s.latestAttempt event.jobId = some (attemptId, current))
    (hrt : s.routes.get? current.routeId = some route) (hagent : route.agentId = agentId)
    (hproj : alreadyProjected next current.state = false) :
    (s.projectAttempt now agentId event.jobId current.routeId next).isOk = true ↔
      MemoryState.postSpooler current.state = true ∧ event.state ≠ .expired := by
  have hreport := fun hpost => reportable_and_valid hnext hpost hproj
  unfold projectAttempt
  split_ifs with hunc
  · rw [markPostSpoolerAttemptUncertain_isOk hlatest]
    refine ⟨fun hpost => ⟨hpost, ?_⟩, And.left⟩
    intro hexp
    rw [hexp, hunc] at hnext
    cases hnext
  · rw [transitionPostSpoolerAttempt_isOk hlatest hrt hagent, ← Bool.and_assoc,
      Bool.and_eq_true, and_comm]
    refine and_congr_right fun hpost => ?_
    rw [hreport hpost, decide_eq_true_eq]

/-- An attempt that shows what an event reports is final, or the spooler has it. -/
theorem isFinal_or_postSpooler {current : DeliveryAttemptState}
    (hnext : projectedState state = some next) (h : alreadyProjected next current = true) :
    current.isFinal = true ∨ MemoryState.postSpooler current = true ∧ state ≠ .expired := by
  cases state <;> cases hnext <;> revert h <;> cases current <;> decide

end Project

/-- An event is projected on the attempts that allow it, and on no others. -/
theorem reconcilePostSpoolerEvent_isOk_iff :
    (s.reconcilePostSpoolerEvent now agentId event).isOk = true ↔ s.Projectable agentId event := by
  unfold reconcilePostSpoolerEvent Projectable
  split
  · next hnone => simp [Except.isOk, Except.toBool, hnone]
  next next hnext =>
  rw [hnext]
  simp only [reduceCtorEq, false_or]
  split
  · next hlatest => simp [Except.isOk, Except.toBool, hlatest]
  next attemptId current hlatest =>
  rw [hlatest]
  split
  · next hrt => simp [Except.isOk, Except.toBool, hrt]
  next route hrt =>
  simp only [Option.some.injEq, Prod.mk.injEq, and_assoc, exists_and_left, exists_eq_left', hrt]
  split_ifs with hagent hdone
  · simp [Except.isOk, Except.toBool, hagent]
  · -- an attempt that shows the report is final or the spooler has it
    refine iff_of_true rfl ⟨not_not.mp hagent, ?_⟩
    rcases Bool.or_eq_true_iff.mp hdone with hproj | hfin
    · exact isFinal_or_postSpooler hnext hproj
    · exact .inl hfin
  · rw [Bool.not_eq_true, Bool.or_eq_false_iff] at hdone
    simp only [hdone.2, not_not.mp hagent, true_and, Bool.false_eq_true, false_or]
    rw [← projectAttempt_isOk_iff hnext hlatest hrt (not_not.mp hagent) hdone.1]
    cases s.projectAttempt now agentId event.jobId current.routeId next <;> rfl

/-- **What the server does with an event it has applied**: the projection succeeds
exactly on the attempts that `Projectable` names. -/
theorem applied_event_projects_iff (s s' : PostgresStore) (now : DateTime) (agentId : String)
    (event : JobEvent) (h : s.receiveEvent agentId event = .ok (true, s')) :
    (s'.reconcilePostSpoolerEvent now agentId event).isOk = true ↔ s.Projectable agentId event := by
  obtain ⟨hatt, hrts⟩ := receiveEvent_frame h
  exact reconcilePostSpoolerEvent_isOk_iff.trans (projectable_congr hatt hrts)

/-! ### Samples -/

namespace Sample

/-- A job for the printer `labels`, begun on its node's route and accepted. -/
def accepted : List ControlPlaneOp :=
  [.enrolAgent "front-node",
    .upsertRoute "front" ⟨"labels", "front-node", some "queue", true, false⟩,
    .createCloudJob "job" "front-node" (some ("labels", "front")) .uri .waitingForAgent 0 1000,
    .claimJobs 1 "front-node" [("job", "lease", "lease-token")],
    .beginDeliveryAttempt 2 "fence-token" ⟨"attempt", "fence", "job", "labels", "front", 100⟩,
    .acceptAgentJob 3 ⟨"front-node", "job", "lease", "lease-token", none, 1,
      some ⟨"fence", 1, "fence-token"⟩⟩]

def report (id : String) (state : JobState) : JobEvent := ⟨id, "job", state, 5⟩

def reports : List (String × JobState) → List ControlPlaneOp :=
  List.map fun e => .syncEvent 5 "front-node" (report e.1 e.2)

def handoff (outcome : NativeHandoffOutcome) : ControlPlaneOp :=
  .ingestNativeHandoffs 4 "front-node"
    [⟨1, "job", some "front", "queue", "fence", 1, "fence-token", outcome⟩]

/-- The spooler has taken the document. -/
def spooled : List ControlPlaneOp :=
  accepted ++ handoff .accepted :: reports [("1", .queuedLocal), ("2", .preparing),
    ("3", .spoolIntent), ("4", .acceptedBySpooler)]

/-- The job waits on its node. -/
def queued : List ControlPlaneOp := accepted ++ reports [("1", .queuedLocal)]

/-- The tables of a run, with digests that are their text. -/
def tables (l : List ControlPlaneOp) : PostgresStore := run id some l

end Sample

open Sample

theorem applied_event_projects_iff_spooled :
    ∃ s', (tables spooled).receiveEvent "front-node" (report "5" .spooling) = .ok (true, s') ∧
      ((s'.reconcilePostSpoolerEvent 6 "front-node" (report "5" .spooling)).isOk = true ↔
        (tables spooled).Projectable "front-node" (report "5" .spooling)) := by
  obtain ⟨⟨project, s'⟩, h, hproj⟩ := Except.map_eq_ok (f := Prod.fst) (b := true)
    (x := (tables spooled).receiveEvent "front-node" (report "5" .spooling)) (by decide +kernel)
  obtain rfl : project = true := hproj
  exact ⟨s', h, applied_event_projects_iff _ s' 6 _ _ h⟩

/-- A job expires on its node: the server stores the event and then refuses to
project it, and the attempt and its reservation stay as they were. -/
theorem expired_event_not_projected :
    (tables queued).receiveEvent "front-node" (report "2" .expired) =
        .ok (true, tables (queued ++ reports [("2", .expired)])) ∧
      (tables (queued ++ reports [("2", .expired)])).reconcilePostSpoolerEvent
        6 "front-node" (report "2" .expired) = .error (.storage .invalidTransition) ∧
      (tables (queued ++ reports [("2", .expired)])).reservations.values.all
        (fun row => row.state == .active) = true := by
  decide +kernel

end PostgresStore

end Piqae.Server
