/-
Piqae/Guardian/Journal.lean

The state of the update guardian and the journal it is kept in
(`update-guardian/src/lib.rs`).

The journal file is the list of its complete records and the number of bytes
after the last line end, which a torn write leaves.  What the JSON encoder
makes of a state matters only for its length, so the length of the encoding is
a parameter (`size`, without the line end).  An append can fail before it
touches the file, after it has cut off the torn bytes and written a part of the
record, or when the record is whole.  Releases are any linearly ordered type.
-/
import Piqae.Base

namespace Piqae.Guardian

inductive GuardianError (V : Type)
  | invalidConfig (message : String)
  | metadataNotNewer (trusted received : Nat)
  | releaseNotNewer (installed received : V)
  | invalidCommandId
  | updateAlreadyInProgress
  | missingCommand
  | runtime (detail : String)
  | health (detail : String)
  | unsupportedStateSchema (version : Nat)
  | stateSequence (prior received : Nat)
  | stateSequenceOverflow
  | persistedMetadataRollback
  | journalTooLarge
  | journalRecordTooLarge
  | timeOverflow
  | io
deriving DecidableEq, Repr

/-! ### Policy and admission -/

structure GuardianConfig where
  platform : String
  architecture : String
  maxArtifactBytes : Nat
  healthTimeoutMs : Int
  maxHealthAttempts : UInt32
deriving DecidableEq, Repr

def GuardianConfig.validate {V : Type} (config : GuardianConfig) : Except (GuardianError V) Unit :=
  if trimText config.platform = "" ∨ trimText config.architecture = "" then
    .error (.invalidConfig "platform and architecture are required")
  else if config.maxArtifactBytes = 0 then
    .error (.invalidConfig "artifact limit must be greater than zero")
  else if config.healthTimeoutMs ≤ 0 ∨ config.maxHealthAttempts = 0 then
    .error (.invalidConfig "health timeout and attempts must be greater than zero")
  else .ok ()

structure RuntimeActivity where
  paused : Bool
  queuedJobs : Nat
  activeJobs : Nat
  handoffInProgress : Bool
  profileEditActive : Bool
deriving DecidableEq, Repr

inductive AdmissionBlock
  | notPaused | queuedJobs | activeJobs | spoolerHandoff | profileEdit
deriving DecidableEq, Repr

inductive Admission
  | ready
  | blocked (reason : AdmissionBlock)
deriving DecidableEq, Repr

def RuntimeActivity.admission (activity : RuntimeActivity) : Admission :=
  if !activity.paused then .blocked .notPaused
  else if activity.activeJobs > 0 then .blocked .activeJobs
  else if activity.queuedJobs > 0 then .blocked .queuedJobs
  else if activity.handoffInProgress then .blocked .spoolerHandoff
  else if activity.profileEditActive then .blocked .profileEdit
  else .ready

def Admission.blockedBy : Admission → Option AdmissionBlock
  | ready => none
  | blocked reason => some reason

/-! ### State -/

structure VerifiedCandidate (V : Type) where
  release : V
  metadataVersion : Nat
  artifactPath : String
  artifactSha256 : String
  artifactLength : Nat
deriving DecidableEq, Repr

structure UpdateCommand (V : Type) where
  commandId : String
  requestedAtUnixMs : Int
  candidate : VerifiedCandidate V
deriving DecidableEq, Repr

def UpdateCommand.validate {V : Type} (command : UpdateCommand V) :
    Except (GuardianError V) Unit :=
  if trimText command.commandId = "" ∨ (asBytes command.commandId).length > 128 then
    .error .invalidCommandId
  else .ok ()

structure RuntimeSlot (V : Type) where
  version : V
  locator : String
deriving DecidableEq, Repr

structure RuntimePlan (V : Type) where
  staged : RuntimeSlot V
  previous : RuntimeSlot V
deriving DecidableEq, Repr

inductive GuardianPhase (V : Type)
  | idle
  | awaitingIdle (blockedBy : Option AdmissionBlock)
  | staging
  | staged (plan : RuntimePlan V)
  | activating (plan : RuntimePlan V)
  | healthChecking (plan : RuntimePlan V) (startedAtUnixMs deadlineUnixMs : Int) (attempts : Nat)
  | rollingBack (plan : RuntimePlan V) (cause : String)
  | completed (installed rollback : RuntimeSlot V)
  | rolledBack (restored : RuntimeSlot V) (failedRelease : V) (cause : String)
  | failed (code detail : String)
deriving DecidableEq, Repr

/-- The phases in which no update is in progress. -/
def GuardianPhase.isResting {V : Type} : GuardianPhase V → Bool
  | idle | completed _ _ | rolledBack _ _ _ | failed _ _ => true
  | _ => false

structure GuardianState (V : Type) where
  schemaVersion : Nat
  sequence : Nat
  installedRelease : V
  trustedMetadataVersion : Nat
  command : Option (UpdateCommand V)
  phase : GuardianPhase V
  updatedAtUnixMs : Int
deriving DecidableEq, Repr

def stateSchemaVersion : Nat := 1

def GuardianState.initial {V : Type} (installedRelease : V) (now : Int) : GuardianState V where
  schemaVersion := stateSchemaVersion
  sequence := 0
  installedRelease := installedRelease
  trustedMetadataVersion := 0
  command := none
  phase := .idle
  updatedAtUnixMs := now

/-! ### The journal -/

def maxJournalBytes : Nat := 8 * 1024 * 1024

def maxJournalRecordBytes : Nat := 64 * 1024

structure JournalFile (V : Type) where
  records : List (GuardianState V)
  /-- The bytes of a last line that has no end. -/
  torn : Nat
deriving DecidableEq, Repr

/-- How an append fails for the sake of the file system. -/
inductive IoFault
  /-- Before the file is touched. -/
  | early
  /-- When the torn bytes are cut off and so many bytes of the record are written. -/
  | torn (written : Nat)
  /-- When the record is whole, and cannot be synchronized. -/
  | unsynced
deriving DecidableEq, Repr

section

variable {V : Type} (size : GuardianState V → Nat)

def validateLoadedState (state : GuardianState V) (prior : Option (GuardianState V)) :
    Except (GuardianError V) Unit :=
  if state.schemaVersion ≠ stateSchemaVersion then
    .error (.unsupportedStateSchema state.schemaVersion)
  else
    match prior with
    | none => .ok ()
    | some prior =>
      if state.sequence ≤ prior.sequence then .error (.stateSequence prior.sequence state.sequence)
      else if state.trustedMetadataVersion < prior.trustedMetadataVersion then
        .error .persistedMetadataRollback
      else .ok ()

/-- The bytes of the complete records. -/
def JournalFile.completeBytes (file : JournalFile V) : Nat :=
  (file.records.map fun state => size state + 1).sum

/-- The record is within the limits, in itself and in the journal. -/
def JournalFile.Fits (file : JournalFile V) (state : GuardianState V) : Prop :=
  size state + 1 ≤ maxJournalRecordBytes ∧
    file.completeBytes size + (size state + 1) ≤ maxJournalBytes

/-- The lines of the journal, each checked against the one before it. -/
def readRecords : Option (GuardianState V) → List (GuardianState V) →
    Except (GuardianError V) (Option (GuardianState V))
  | latest, [] => .ok latest
  | latest, state :: states =>
    if size state > maxJournalRecordBytes then .error .journalRecordTooLarge
    else
      match validateLoadedState state latest with
      | .error error => .error error
      | .ok () => readRecords (some state) states

def readJournal (file : JournalFile V) : Except (GuardianError V) (Option (GuardianState V)) :=
  if file.completeBytes size + file.torn > maxJournalBytes then .error .journalTooLarge
  else readRecords size none file.records

/-- `JournalStore::append`, with the failure of the file system if there is one. -/
def append (fault : Option IoFault) (state : GuardianState V) (file : JournalFile V) :
    Except (GuardianError V) Unit × JournalFile V :=
  match readJournal size file with
  | .error error => (.error error, file)
  | .ok latest =>
    match validateLoadedState state latest with
    | .error error => (.error error, file)
    | .ok () =>
      if size state + 1 > maxJournalRecordBytes then (.error .journalRecordTooLarge, file)
      else if fault = some .early then (.error .io, file)
      else if file.completeBytes size + (size state + 1) > maxJournalBytes then
        (.error .journalTooLarge, { file with torn := 0 })
      else
        match fault with
        | some (.torn written) => (.error .io, { file with torn := min written (size state) })
        | some .unsynced => (.error .io, ⟨file.records ++ [state], 0⟩)
        | _ => (.ok (), ⟨file.records ++ [state], 0⟩)

end

end Piqae.Guardian
