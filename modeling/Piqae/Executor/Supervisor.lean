/-
Piqae/Executor/Supervisor.lean

Native submission (`executor-supervisor/src/lib.rs`): a process for each request, which
answers in a frame and exits before a deadline, or is killed.

The process may have handed the job off once it has the request, so a failure says
that it may have, unless the process itself says otherwise.  The exception is an
answer to the request that is of another kind.
-/
import Piqae.Executor.Frames
import Piqae.Node.Program

namespace Piqae.Executor

structure LocalRouteFence where
  routeId : String
  reservationId : Uuid
  generation : Nat
deriving DecidableEq

/-- The kinds of results, with what `submit` reads of them. -/
inductive ExecutorResult
  | printers
  | state
  | capabilities
  | jobs
  | submitted (nativeJobId : Option String) (routeFence : Option LocalRouteFence)
  | observation
  | cancelled

/-- An `ExecutorError` has the fields of the failure it becomes. -/
structure ExecutorResponse where
  requestId : Uuid
  result : Except ExecutorFailure ExecutorResult

/-- A process that has the request. -/
structure Child where
  /-- What it has written by the deadline, and whether that is all. -/
  output : List UInt8
  closed : Bool
  /-- Its success, if it has exited by then and can be waited for. -/
  status : Option (Except Unit Bool)

inductive SupervisorError
  | spawn
  | frame (source : FrameError)
  | timedOut
  | exit
  | requestMismatch
deriving DecidableEq

section

variable (fromSlice : List UInt8 → Option ExecutorResponse) (display : SupervisorError → String)
  (routeFence : Option LocalRouteFence) (requestId : Uuid) (child : Child)

def execute : Except SupervisorError ExecutorResponse :=
  match readFrame fromSlice child.output child.closed, child.status with
  | none, _ | some _, none => .error .timedOut
  | some _, some (.error _) => .error .spawn
  | some _, some (.ok false) => .error .exit
  | some (.error source), some (.ok true) => .error (.frame source)
  | some (.ok response), some (.ok true) =>
    if response.requestId ≠ requestId then .error .requestMismatch else .ok response

def classifySupervisorError : SupervisorError → String
  | .timedOut => "executor_timed_out"
  | .exit => "executor_crashed"
  | _ => "executor_failed"

/-- `submit` from the request on. -/
def submit : Except ExecutorFailure NativeAcceptance :=
  match execute fromSlice requestId child with
  | .ok ⟨_, .ok (.submitted nativeJobId fence)⟩ =>
    if fence = routeFence then
      match nativeJobId with
      | some nativeJobId => .ok ⟨nativeJobId⟩
      | none => .error ⟨"native_job_id_missing",
          "spooler accepted the job without an observable ID", false, true⟩
    else .error ⟨"stale_route_fence", "native executor did not echo the active route fence",
      false, true⟩
  | .ok ⟨_, .error error⟩ => .error error
  | .ok _ => .error ⟨"unexpected_executor_response",
      "executor returned the wrong operation result", false, false⟩
  | .error error => .error ⟨classifySupervisorError error, display error, error ≠ .timedOut, true⟩

/-- The process answers the request. -/
def Answers (result : Except ExecutorFailure ExecutorResult) : Prop :=
  ∃ rest, nextFrame fromSlice child.output = .message ⟨requestId, result⟩ rest

/-- An accepted job was accepted, and one that was certainly not handed off was not. -/
def FailsClosed : Except ExecutorFailure NativeAcceptance → Prop
  | .ok acceptance => Answers fromSlice requestId child
      (.ok (.submitted (some acceptance.nativeJobId) routeFence))
  | .error failure => failure.handoffMayHaveSucceeded = true ∨
      ∃ error, Answers fromSlice requestId child (.error error) ∧
        error.handoffMayHaveSucceeded = false

end

/-- A response is one to the request, by a process that succeeds. -/
theorem execute_eq_ok_iff {fromSlice : List UInt8 → Option ExecutorResponse} {requestId : Uuid}
    {child : Child} {r : ExecutorResponse} :
    execute fromSlice requestId child = .ok r ↔ r.requestId = requestId ∧
      Answers fromSlice requestId child r.result ∧ child.status = some (.ok true) := by
  obtain ⟨id, result⟩ := r
  unfold execute readFrame Answers
  constructor
  · intro h
    split at h <;> try cases h
    next read hread hstatus =>
    split_ifs at h with hid
    cases h
    obtain rfl := not_not.mp hid
    split at hread
    · split_ifs at hread
      cases hread
    · cases hread
    next rest hfound =>
    cases hread
    exact ⟨rfl, ⟨rest, hfound⟩, hstatus⟩
  · rintro ⟨rfl, ⟨rest, hfound⟩, hstatus⟩
    simp [hfound, hstatus]

/-- **Native submission fails closed** if and only if the process does not answer the
request with a result of another kind and exit with success. -/
theorem submission_fails_closed_iff (fromSlice : List UInt8 → Option ExecutorResponse)
    (display : SupervisorError → String) (routeFence : Option LocalRouteFence) (requestId : Uuid)
    (child : Child) :
    FailsClosed fromSlice routeFence requestId child
        (submit fromSlice display routeFence requestId child) ↔
      ¬∃ result, Answers fromSlice requestId child (.ok result) ∧
        (∀ nativeJobId fence, result ≠ .submitted nativeJobId fence) ∧
          child.status = some (.ok true) := by
  unfold submit
  cases h : execute fromSlice requestId child with
  | error error =>
    refine ⟨fun _ ⟨result, hanswers, _, hstatus⟩ => ?_, fun _ => .inl rfl⟩
    cases h.symm.trans ((execute_eq_ok_iff (r := ⟨requestId, .ok result⟩)).mpr
      ⟨rfl, hanswers, hstatus⟩)
  | ok response =>
    obtain ⟨id, result⟩ := response
    obtain ⟨rfl, ⟨rest, hfound⟩, hstatus⟩ := execute_eq_ok_iff.mp h
    -- the process has given no other answer
    have honly : ∀ other, Answers fromSlice id child other ↔ other = result := by
      intro other
      unfold Answers
      rw [hfound]
      simp [eq_comm]
    simp only [FailsClosed, honly, hstatus]
    rcases result with error | result
    · cases hflag : error.handoffMayHaveSucceeded <;> simp [hflag]
    cases result with
    | submitted nativeJobId fence =>
      dsimp only
      split_ifs with hfence
      · cases nativeJobId <;> simp [hfence]
      · simp
    | _ => simp

/-- The answer to a cancellation. -/
def cancelledText : List UInt8 := asBytes ("\x7b\"request_id\":\"00000000-0000-0000-0000-" ++
  "000000000000\",\"result\":\x7b\"Ok\":\x7b\"type\":\"cancelled\"\x7d\x7d\x7d")

def readCancelled (body : List UInt8) : Option ExecutorResponse :=
  if body = cancelledText then some ⟨0, .ok .cancelled⟩ else none

/-- A process that answers as if it had cancelled a job. -/
def cancelling : Child :=
  ⟨toBeBytes32 cancelledText.length ++ cancelledText, true, some (.ok true)⟩

theorem wrong_kind_certainly_not_submitted :
    let answer := submit readCancelled (fun _ => "") none 0 cancelling
    answer = .error ⟨"unexpected_executor_response",
        "executor returned the wrong operation result", false, false⟩ ∧
      ¬FailsClosed readCancelled none 0 cancelling answer := by
  have hframe : encodeFrame (fun _ : ExecutorResponse => some cancelledText) ⟨0, .ok .cancelled⟩ =
      .ok cancelling.output := by
    unfold encodeFrame
    exact if_neg (by decide +kernel)
  have hcarries : Carries readCancelled ⟨0, .ok .cancelled⟩ cancelling.output :=
    carries_encodeFrame (fun _ hbody => if_pos (Option.some.inj hbody).symm) hframe
  have hfound : nextFrame readCancelled cancelling.output = .message ⟨0, .ok .cancelled⟩ [] := by
    simpa using hcarries.nextFrame []
  have hexecute : execute readCancelled 0 cancelling = .ok ⟨0, .ok .cancelled⟩ :=
    execute_eq_ok_iff.mpr ⟨rfl, ⟨[], hfound⟩, rfl⟩
  have hsubmit : submit readCancelled (fun _ => "") none 0 cancelling =
      .error ⟨"unexpected_executor_response", "executor returned the wrong operation result",
        false, false⟩ := by
    rw [submit, hexecute]
  refine ⟨hsubmit, ?_⟩
  rw [hsubmit]
  rintro (hflag | ⟨error, ⟨rest, hother⟩, -⟩)
  · cases hflag
  · cases hfound.symm.trans hother

end Piqae.Executor
