/-
Piqae/Queue/Ledger.lean

The commands of the control plane, the ledger that keeps what has become of
each of them (`node-runtime/src/command_recovery.rs`), and the other settings
that a queue file holds beside its tables.

A ledger is keyed by a digest of the command, so two equal commands of one
batch share an entry.
-/
import Piqae.Route.Handoff

namespace Piqae

inductive AgentCommand
  | refreshPrinters
  | cancelJob (jobId : String)
  | resolveAmbiguousHandoff (jobId localRouteKey : String) (reservationId : Uuid)
      (generation : Nat) (resolution : AmbiguousHandoffResolution)
  | pause
  | resume
  | updateAvailable (version channel metadataUrl : String)
  | collectDiagnostics (requestId : String)
deriving DecidableEq, Repr

structure CommandRecoveryEntry where
  applied : Bool
  attempts : Nat
  nextRetryUnixMs : Option Int
  lastErrorCode : Option String
deriving DecidableEq, Repr

structure CommandRecoveryLedger where
  entries : SortedMap String CommandRecoveryEntry
deriving DecidableEq

namespace CommandRecoveryLedger

def initialRetryMs : Int := 30000

def maxRetryMs : Int := 5 * 60000

def maxRecoveryEntries : Nat := 100

def maxErrorCodeLen : Nat := 64

/-- A ledger as the settings hold it before the first command. -/
def empty : CommandRecoveryLedger := ⟨.empty⟩

def isHexDigit (c : Char) : Bool :=
  c.isDigit || ('a' ≤ c && c ≤ 'f') || ('A' ≤ c && c ≤ 'F')

/-- Reading a stored ledger back. -/
def load (stored : CommandRecoveryLedger) : Fallible CommandRecoveryLedger :=
  if stored.entries.size > maxRecoveryEntries then
    bail "cloud command recovery entry count exceeds its limit"
  else if stored.entries.keys.any fun key =>
      key.utf8ByteSize ≠ 64 || !key.toList.all isHexDigit then
    bail "cloud command recovery key is invalid"
  else if stored.entries.values.any fun entry =>
      entry.lastErrorCode.any fun code => decide (code.length > maxErrorCodeLen) then
    bail "cloud command recovery error code exceeds its limit"
  else .ok stored

variable (ledger : CommandRecoveryLedger)

/-- Drop the entries of commands that are no longer in the batch. -/
def retainBatch (keys : List String) : CommandRecoveryLedger :=
  ⟨ledger.entries.retain fun key _ => keys.contains key⟩

def isApplied (key : String) : Bool := (ledger.entries.get? key).any (·.applied)

def isDue (key : String) (now : Int) : Bool :=
  ((ledger.entries.get? key).bind (·.nextRetryUnixMs)).all (· ≤ now)

def recordApplied (key : String) : CommandRecoveryLedger :=
  ⟨ledger.entries.insert key ⟨true, 0, none, none⟩⟩

def recordRetry (key : String) (now : Int) (code : String) : CommandRecoveryLedger :=
  let attempts := match ledger.entries.get? key with
    | none => 1
    | some entry => min (entry.attempts + 1) (2 ^ 32 - 1)
  let delay := min (initialRetryMs * 2 ^ min (attempts - 1) 4) maxRetryMs
  ⟨ledger.entries.insert key
    ⟨false, attempts, some (saturatingAddI64 now delay), some (prefixText maxErrorCodeLen code)⟩⟩

def complete : Bool := ledger.entries.values.all (·.applied)

end CommandRecoveryLedger

/-- The settings of a queue file. -/
structure QueueSettings where
  commandRecovery : CommandRecoveryLedger
  commandCursor : Option String
  paused : Bool
  /-- The operation that a job was last handed to, on a node whose host owns the
  printing API (`embedded_adapter_operation:` and the job). -/
  adapterOperation : SortedMap String String
deriving DecidableEq

/-- The settings of a new file. -/
def QueueSettings.empty : QueueSettings := ⟨.empty, none, false, .empty⟩

end Piqae
