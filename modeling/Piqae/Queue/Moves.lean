/-
Piqae/Queue/Moves.lean

What the operations of the queue do to the states of jobs.

The row of a job is stored under its identifier (`Keyed`), and under that
invariant an operation that appends an event moves one job to the state of
the event (`Appends`).
-/
import Piqae.Queue.Store

namespace Piqae

namespace AgentStore

variable {s s' s'' : AgentStore} {jobId : String} {state : JobState} {job : LocalJob}
  {guard : LocalJob → Bool} {reason message : Option String} {change : LocalJob → LocalJob}
  {refusal : StorageError}

def stateOf (s : AgentStore) (jobId : String) : Option LocalState :=
  (s.getJob jobId).map (·.state)

/-- Every row is stored under the identifier of its job. -/
def Keyed (s : AgentStore) : Prop := ∀ jobId job, s.getJob jobId = some job → job.jobId = jobId

theorem keyed_empty : AgentStore.empty.Keyed := by
  intro jobId job h
  simp [getJob, empty] at h

theorem stateOf_eq_some {state : LocalState} :
    s.stateOf jobId = some state ↔ ∃ job, s.getJob jobId = some job ∧ job.state = state :=
  Option.map_eq_some_iff

theorem stateOf_of_getJob (h : s.getJob jobId = some job) : s.stateOf jobId = some job.state :=
  stateOf_eq_some.mpr ⟨job, h, rfl⟩

theorem stateOf_eq_none : s.stateOf jobId = none ↔ s.getJob jobId = none := Option.map_eq_none_iff

theorem stateOf_congr (h : s'.jobs = s.jobs) : s'.stateOf = s.stateOf := by
  funext jobId
  simp only [stateOf, getJob, h]

theorem Keyed.congr (h : s.Keyed) (hjobs : s'.jobs = s.jobs) : s'.Keyed := by
  intro jobId job hjob
  exact h jobId job (by rwa [getJob, ← hjobs])

/-! ### Rows -/

theorem getJob_putJob (job : LocalJob) :
    (s.putJob job).getJob jobId = if jobId = job.jobId then some job else s.getJob jobId := by
  split
  · next h =>
    rw [h]
    exact SortedMap.get?_insert_self
  · next h => exact SortedMap.get?_insert_ne h

theorem Keyed.putJob (h : s.Keyed) (job : LocalJob) : (s.putJob job).Keyed := by
  intro jobId row hrow
  rw [getJob_putJob] at hrow
  split at hrow
  · next heq =>
    cases hrow
    exact heq.symm
  · exact h jobId row hrow

theorem stateOf_putJob (job : LocalJob) : (s.putJob job).stateOf jobId =
      if jobId = job.jobId then some job.state else s.stateOf jobId := by
  rw [stateOf, getJob_putJob]
  split <;> rfl

/-! ### Events -/

/-- One job has moved to a state and an event says so. -/
structure Appends (s s' : AgentStore) (jobId : String) (state : JobState) : Prop where
  existed : (s.stateOf jobId).isSome
  moved : s'.stateOf jobId = some (.known state)
  others : ∀ other, other ≠ jobId → s'.stateOf other = s.stateOf other
  events : ∃ event : JobEvent, event.jobId = jobId ∧ event.state = state ∧
    s'.events = s.events ++ [event]
  settings : s'.settings = s.settings
  keyed : s'.Keyed

theorem moveJob_ok (h : s.moveJob jobId guard state reason message change refusal = .ok s') :
    ∃ job, s.getJob jobId = some job ∧ guard job = true ∧
      s' = (s.appendEventTx jobId state reason message).putJob
        (change { job with state := .known state }) := by
  unfold moveJob at h
  rcases hjob : s.getJob jobId with - | job
  · rw [hjob] at h
    cases h
  · rw [hjob] at h
    rcases hguard : guard job with - | -
    · simp only [hguard, Bool.false_eq_true, if_false] at h
      cases h
    · simp only [hguard, if_true] at h
      exact ⟨job, rfl, hguard, (Except.ok.inj h).symm⟩

/-- A move that keeps the identifier and the state it is given. -/
theorem moveJob_appends (hk : s.Keyed)
    (h : s.moveJob jobId guard state reason message change refusal = .ok s')
    (hid : ∀ job : LocalJob, (change job).jobId = job.jobId)
    (hst : ∀ job : LocalJob, (change job).state = job.state) : Appends s s' jobId state := by
  obtain ⟨job, hjob, -, rfl⟩ := moveJob_ok h
  have hkey : (change { job with state := .known state }).jobId = jobId :=
    (hid _).trans (hk jobId job hjob)
  refine ⟨by rw [stateOf_of_getJob hjob]; rfl, ?_, ?_, ⟨_, rfl, rfl, rfl⟩, rfl, ?_⟩
  · rw [stateOf_putJob, if_pos hkey.symm, hst]
  · intro other hother
    rw [stateOf_putJob, if_neg (by rwa [hkey])]
    rfl
  · have hk' : (s.appendEventTx jobId state reason message).Keyed := hk.congr rfl
    exact hk'.putJob _

theorem Appends.congr (h : Appends s s' jobId state) (hjobs : s''.jobs = s'.jobs)
    (hevs : s''.events = s'.events) (hset : s''.settings = s'.settings) :
    Appends s s'' jobId state := by
  have hstates := stateOf_congr hjobs
  refine ⟨h.existed, ?_, ?_, ?_, hset.trans h.settings, h.keyed.congr hjobs⟩
  · rw [hstates, h.moved]
  · intro other hother
    rw [hstates, h.others other hother]
  · rw [hevs]
    exact h.events

theorem upsertCloudAcceptIntent_ok {lease : CloudLease}
    (h : s.upsertCloudAcceptIntent job lease = .ok s') :
    s'.jobs = s.jobs ∧ s'.events = s.events ∧ s'.settings = s.settings := by
  simp only [upsertCloudAcceptIntent] at h
  split_ifs at h
  · cases h
    exact ⟨rfl, rfl, rfl⟩

end AgentStore

end Piqae
