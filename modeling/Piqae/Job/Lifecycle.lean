/-
Piqae/Job/Lifecycle.lean

The lifecycle of a print job (`domain/src/job.rs`), shared by the node and the
control plane: the states, the table of transitions and its check, and the
states of the node's queue, which has one more of its own.
-/
import Mathlib

namespace Piqae

inductive JobState
  | registered
  | contentPending
  | waitingForAgent
  | agentDownloading
  | agentAccepted
  | queuedLocal
  | preparing
  | rendering
  | spoolIntent
  | acceptedBySpooler
  | spooling
  | printing
  | blocked
  | completedReported
  | deliveryUncertain
  | cancelRequested
  | cancelled
  | expired
  | failedRetryable
  | failedTerminal
deriving DecidableEq, Repr

namespace JobState

def isTerminal : JobState → Bool
  | completedReported | deliveryUncertain | cancelled | expired | failedTerminal => true
  | _ => false

/-- The states that may follow a state. -/
def successors : JobState → List JobState
  | registered => [contentPending, waitingForAgent, cancelRequested, expired]
  | contentPending => [waitingForAgent, cancelRequested, expired, failedTerminal]
  | waitingForAgent => [agentDownloading, cancelRequested, expired, failedRetryable]
  | agentDownloading =>
    [agentAccepted, waitingForAgent, cancelRequested, expired, failedRetryable]
  | agentAccepted => [queuedLocal, cancelRequested, failedRetryable]
  | queuedLocal => [preparing, cancelRequested, blocked, expired, failedRetryable]
  | preparing => [rendering, spoolIntent, cancelRequested, failedRetryable, failedTerminal]
  | rendering => [spoolIntent, cancelRequested, failedRetryable, failedTerminal]
  | spoolIntent => [acceptedBySpooler, deliveryUncertain, failedRetryable, failedTerminal]
  | acceptedBySpooler =>
    [spooling, printing, completedReported, blocked, deliveryUncertain, cancelled, failedTerminal]
  | spooling =>
    [printing, completedReported, blocked, deliveryUncertain, cancelled, failedTerminal]
  | printing => [completedReported, blocked, deliveryUncertain, cancelled, failedTerminal]
  | blocked =>
    [spooling, printing, completedReported, cancelRequested, cancelled, failedRetryable,
      failedTerminal]
  | cancelRequested => [cancelled, deliveryUncertain, completedReported]
  | failedRetryable => [waitingForAgent, queuedLocal, cancelRequested, expired]
  | completedReported | deliveryUncertain | cancelled | expired | failedTerminal => []

def canTransitionTo (self next : JobState) : Bool := self.successors.contains next

/-- The text of a state, as the journal, the queue and the wire spell it. -/
def stateName : JobState → String
  | registered => "registered"
  | contentPending => "content_pending"
  | waitingForAgent => "waiting_for_agent"
  | agentDownloading => "agent_downloading"
  | agentAccepted => "agent_accepted"
  | queuedLocal => "queued_local"
  | preparing => "preparing"
  | rendering => "rendering"
  | spoolIntent => "spool_intent"
  | acceptedBySpooler => "accepted_by_spooler"
  | spooling => "spooling"
  | printing => "printing"
  | blocked => "blocked"
  | completedReported => "completed_reported"
  | deliveryUncertain => "delivery_uncertain"
  | cancelRequested => "cancel_requested"
  | cancelled => "cancelled"
  | expired => "expired"
  | failedRetryable => "failed_retryable"
  | failedTerminal => "failed_terminal"

/-- Nothing follows a terminal state, and something follows every other. -/
theorem successors_eq_nil_iff (s : JobState) : s.successors = [] ↔ s.isTerminal = true := by
  cases s <;> simp [successors, isTerminal]

theorem not_canTransitionTo_of_isTerminal {s : JobState} (h : s.isTerminal = true)
    (next : JobState) : s.canTransitionTo next = false := by
  simp [canTransitionTo, (successors_eq_nil_iff s).mpr h]

end JobState

structure StateTransitionError where
  source : JobState
  target : JobState
deriving DecidableEq, Repr

def validateTransition (source target : JobState) : Except StateTransitionError Unit :=
  if source.canTransitionTo target then .ok () else .error ⟨source, target⟩

/-- The text in the state column of the node's queue: a lifecycle state, or the
queue's own state of a cloud job whose acceptance is not confirmed. -/
inductive LocalState
  | cloudAcceptPending
  | known (state : JobState)
deriving DecidableEq, Repr

def LocalState.text : LocalState → String
  | cloudAcceptPending => "cloud_accept_pending"
  | known state => state.stateName

end Piqae
