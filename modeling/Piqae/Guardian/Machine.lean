/-
Piqae/Guardian/Machine.lean

The update guardian as programs over its journal, and its runs.

A call is a program whose actions are the appends to the journal and the calls
of the platform (`RuntimeManager`, `RuntimeHealth`).  What they answer is the
input of the action.  A call is given a list of answers, and when they are used
up the process dies there, so that a run with restarts is a list of operations.

`trace` notes what has happened, latest first: it is read by no definition of
the model, only by the statements about it.
-/
import Piqae.Guardian.Journal
import Piqae.Lib.Process
import Piqae.Lib.Run

namespace Piqae.Guardian

/-! ### State -/

inductive ActivationObservation
  | notActivated | activated | unknown
deriving DecidableEq, Repr

inductive HealthObservation
  | pending
  | healthy
  | unhealthy (reason : String)
deriving DecidableEq, Repr

/-- What the file system and the platform answer to an action. -/
structure Answer (V : Type) where
  fault : Option IoFault
  stage : Except String (RuntimePlan V)
  activate : Except String Unit
  observeActivation : Except String ActivationObservation
  restorePrevious : Except String Unit
  observe : Except String HealthObservation

inductive Event (V : Type)
  /-- `open` was given the release and holds the state. -/
  | opened (installedRelease : V) (state : GuardianState V)
  /-- The record is whole in the file; did the append report it? -/
  | recorded (state : GuardianState V) (acknowledged : Bool)
  /-- A request was accepted. -/
  | accepted (command : UpdateCommand V)
  | staged (candidate : VerifiedCandidate V)
  | activated (plan : RuntimePlan V) (activity : RuntimeActivity)
  | restored (plan : RuntimePlan V) (succeeded : Bool)
  | healthy (slot : RuntimeSlot V)
deriving DecidableEq

structure UpdateGuardian (V : Type) where
  config : GuardianConfig
  state : GuardianState V

/-- The guardian with the file it keeps. -/
structure World (V : Type) where
  file : JournalFile V
  guardian : UpdateGuardian V
  trace : List (Event V)

namespace World

variable {V : Type} (w : World V)

def state : GuardianState V := w.guardian.state

def putState (state : GuardianState V) : World V :=
  { w with guardian := { w.guardian with state := state } }

def note (event : Event V) : World V := { w with trace := event :: w.trace }

end World

abbrev Prog (V : Type) := Process Unit (Answer V) (World V) (GuardianError V)

section

variable {V : Type} (size : GuardianState V → Nat)

/-! ### Transitions -/

/-- The state that a transition records. -/
def GuardianState.next (state : GuardianState V) (phase : GuardianPhase V) (now : Int) :
    GuardianState V :=
  { state with sequence := state.sequence + 1, updatedAtUnixMs := now, phase := phase }

def transition (phase : GuardianPhase V) (now : Int) (fault : Option IoFault) (w : World V) :
    Except (GuardianError V) Unit × World V :=
  let prior := w.state
  if prior.sequence + 1 > u64Max then (.error .stateSequenceOverflow, w)
  else
    let state := prior.next phase now
    match append size fault state w.file with
    | (.ok (), file) =>
      (.ok (), { w.putState state with file := file, trace := .recorded state true :: w.trace })
    | (.error error, file) =>
      -- the record may be there although the append has failed
      (.error error,
        { w.putState prior with
          file := file
          trace := if file.records.length = w.file.records.length then w.trace
            else .recorded state false :: w.trace })

def boundedDetail (detail : String) : String := prefixText 512 detail

def beginRollback (plan : RuntimePlan V) (cause : String) (now : Int) :=
  transition size (.rollingBack plan (boundedDetail cause)) now

def fail (code detail : String) (now : Int) :=
  transition size (.failed code (boundedDetail detail) : GuardianPhase V) now

def beginHealth (plan : RuntimePlan V) (now : Int) (fault : Option IoFault) (w : World V) :
    Except (GuardianError V) Unit × World V :=
  let deadline := now + w.guardian.config.healthTimeoutMs
  if deadline > i64Max then (.error .timeOverflow, w)
  else transition size (.healthChecking plan now deadline 0) now fault w

def complete (plan : RuntimePlan V) (metadataVersion : Nat) (now : Int) (fault : Option IoFault)
    (w : World V) : Except (GuardianError V) Unit × World V :=
  let prior := w.state
  let w := w.putState { prior with
    installedRelease := plan.staged.version, trustedMetadataVersion := metadataVersion }
  match transition size (.completed plan.staged plan.previous) now fault w with
  | (.ok (), w) => (.ok (), w)
  | (.error error, w) => (.error error, w.putState prior)

/-! ### Calls -/

/-- An action that writes to the journal. -/
def record (f : Option IoFault → World V → Except (GuardianError V) Unit × World V) :
    Prog V Unit :=
  .fallible () fun answer w => f answer.fault w

/-- A call of the platform. -/
def platform {α : Type} (f : Answer V → α) (event : Answer V → Option (Event V)) : Prog V α :=
  .atomic () fun answer w => (f answer, (event answer).elim w w.note)

def stage (candidate : VerifiedCandidate V) : Prog V (Except String (RuntimePlan V)) :=
  platform (·.stage) fun _ => some (.staged candidate)

def activate (plan : RuntimePlan V) (activity : RuntimeActivity) : Prog V (Except String Unit) :=
  platform (·.activate) fun _ => some (.activated plan activity)

def observeActivation : Prog V (Except String ActivationObservation) :=
  platform (·.observeActivation) fun _ => none

def restorePrevious (plan : RuntimePlan V) : Prog V (Except String Unit) :=
  platform (·.restorePrevious) fun answer => some (.restored plan answer.restorePrevious.toBool)

def observe (expected : RuntimeSlot V) : Prog V (Except String HealthObservation) :=
  platform (·.observe) fun answer =>
    if answer.observe.toOption = some .healthy then some (.healthy expected) else none

/-- The end of a `request` that passed its checks. -/
def accept (command : UpdateCommand V) (activity : RuntimeActivity) (now : Int)
    (fault : Option IoFault) (w : World V) : Except (GuardianError V) Unit × World V :=
  let w := w.putState { w.state with command := some command }
  match transition size (.awaitingIdle activity.admission.blockedBy) now fault w with
  | (.ok (), w) => (.ok (), w.note (.accepted command))
  | (.error error, w) => (.error error, w)

variable [LinearOrder V]

def request (state : GuardianState V) (command : UpdateCommand V) (activity : RuntimeActivity)
    (now : Int) : Prog V Unit :=
  match command.validate with
  | .error error => .fail error
  | .ok () =>
    if command.candidate.release ≤ state.installedRelease then
      .fail (.releaseNotNewer state.installedRelease command.candidate.release)
    else if command.candidate.metadataVersion ≤ state.trustedMetadataVersion then
      .fail (.metadataNotNewer state.trustedMetadataVersion command.candidate.metadataVersion)
    else if !state.phase.isResting then .fail .updateAlreadyInProgress
    else record (accept size command activity now)

/-- The outcome of an activation that was called for. -/
def afterActivate (plan : RuntimePlan V) (message : String) (now : Int) :
    Except String Unit → Prog V Unit
  | .ok () => record (beginHealth size plan now)
  | .error detail => record (beginRollback size plan (message ++ detail) now)

def advance (config : GuardianConfig) (state : GuardianState V) (activity : RuntimeActivity)
    (now : Int) : Prog V Unit :=
  match state.phase with
  | .awaitingIdle _ =>
    match activity.admission with
    | .blocked reason => record (transition size (.awaitingIdle (some reason)) now)
    | .ready =>
      (record (transition size .staging now)).bind fun _ =>
        match state.command with
        | none => .fail .missingCommand
        | some command =>
          (stage command.candidate).bind fun
            | .ok plan =>
              if plan.staged.version = command.candidate.release then
                record (transition size (.staged plan) now)
              else
                record (fail size "staged_version_mismatch"
                  "platform staged a runtime with the wrong version" now)
            | .error detail => record (fail size "stage_failed" detail now)
  | .staging =>
    record (fail size "stage_interrupted"
      "process restarted while staging; artifact was not activated" now)
  | .staged plan =>
    if activity.admission ≠ .ready then .done ()
    else
      (record (transition size (.activating plan) now)).bind fun _ =>
        (activate plan activity).bind (afterActivate size plan "activate_failed:" now)
  | .activating plan =>
    observeActivation.bind fun
      | .error detail => .fail (.runtime detail)
      | .ok .activated => record (beginHealth size plan now)
      | .ok .notActivated =>
        if activity.admission ≠ .ready then .done ()
        else
          (activate plan activity).bind
            (afterActivate size plan "activation_recovery_failed:" now)
      | .ok .unknown => record (beginRollback size plan "activation_state_unknown" now)
  | .healthChecking plan startedAt deadline attempts =>
    let nextAttempts := min (attempts + 1) (2 ^ 32 - 1)
    (observe plan.staged).bind fun
      | .error detail => .fail (.health detail)
      | .ok .healthy =>
        match state.command with
        | none => .fail .missingCommand
        | some command => record (complete size plan command.candidate.metadataVersion now)
      | .ok (.unhealthy reason) => record (beginRollback size plan ("unhealthy:" ++ reason) now)
      | .ok .pending =>
        if now ≥ deadline ∨ nextAttempts ≥ config.maxHealthAttempts.toNat then
          record (beginRollback size plan "health_check_timeout" now)
        else record (transition size (.healthChecking plan startedAt deadline nextAttempts) now)
  | .rollingBack plan cause =>
    (restorePrevious plan).bind fun
      | .ok () => record (transition size
          (.rolledBack plan.previous plan.staged.version cause) now)
      | .error detail =>
        record (fail size "rollback_failed" (cause ++ "; restore error: " ++ detail) now)
  | .idle | .completed _ _ | .rolledBack _ _ _ | .failed _ _ => .done ()

/-! ### Runs -/

/-- The file of a node with the guardian that runs on it, if one does, and what the
last call has returned. -/
structure Machine (V : Type) where
  file : JournalFile V
  running : Option (UpdateGuardian V)
  trace : List (Event V)
  result : Option (Except (GuardianError V) Unit)

inductive Op (V : Type)
  | «open» (config : GuardianConfig) (installedRelease : V) (now : Int)
  /-- With the answer to its append, unless the process dies before. -/
  | request (command : UpdateCommand V) (activity : RuntimeActivity) (now : Int)
      (answer : Option (Answer V))
  | advance (activity : RuntimeActivity) (now : Int) (answers : List (Answer V))

def Op.answers {V : Type} : Op V → List (Answer V)
  | .open _ _ _ => []
  | .request _ _ _ answer => answer.toList
  | .advance _ _ answers => answers

namespace Machine

/-- A node on which no guardian has run. -/
def initial : Machine V := ⟨⟨[], 0⟩, none, [], none⟩

/-- Make a call; without a result the process has died in it. -/
def call (m : Machine V) (program : UpdateGuardian V → Prog V Unit) (answers : List (Answer V)) :
    Machine V :=
  match m.running with
  | none => m
  | some guardian =>
    let (result, w) := (program guardian).run answers ⟨m.file, guardian, m.trace⟩
    ⟨w.file, result.map fun _ => w.guardian, w.trace, result⟩

/-- One operation.  An `open` that fails leaves no guardian. -/
def step (m : Machine V) : Op V → Machine V
  | .open config installedRelease now =>
    match config.validate, readJournal size m.file with
    | .ok (), .ok loaded =>
      let state := loaded.getD (GuardianState.initial installedRelease now)
      { m with
        running := some ⟨config, state⟩
        trace := .opened installedRelease state :: m.trace
        result := some (.ok ()) }
    | .error error, _ => { m with running := none, result := some (.error error) }
    | .ok (), .error error => { m with running := none, result := some (.error error) }
  | .request command activity now answer =>
    m.call (fun guardian => Guardian.request size guardian.state command activity now)
      answer.toList
  | .advance activity now answers =>
    m.call (fun guardian => Guardian.advance size guardian.config guardian.state activity now)
      answers

def run (ops : List (Op V)) : Machine V := Run.exec (step size) initial ops

end Machine

end

end Piqae.Guardian
