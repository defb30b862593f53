/-
Piqae/Resources/Cache.lean

The node's cache of document resources (`agent-core/src/document_resources.rs`
over the table of `agent-storage`).

Every call is a program whose actions are the locked sections, the file
operations and the store calls; which of them fail, and what is acquired, is
their input.  `evict_for` holds the store for its whole loop and is one action.
A file is named by its digest.  `leaders`, `acquired` and `missed` note what the
calls have done: they are read by no definition of the model.
-/
import Piqae.Base
import Piqae.Lib.Pool

namespace Piqae.Resources

abbrev Bytes := List UInt8

inductive ResourceCacheError
  | invalidDescriptor
  | limit
  | digestMismatch
  | acquisition (message : String)
  | io (message : String)
  | storage (message : String)
  | synchronization
deriving DecidableEq, Repr

def ResourceCacheError.toText : ResourceCacheError → String
  | invalidDescriptor => "invalid document resource descriptor"
  | limit => "document resource exceeds the configured cache bound"
  | digestMismatch => "document resource bytes do not match their descriptor"
  | acquisition message => "document resource acquisition failed: " ++ message
  | io message => "document resource I/O failed: " ++ message
  | storage message => "document resource metadata failed: " ++ message
  | synchronization => "document resource cache synchronization failed"

structure NodeResourceDescriptor where
  digest : String
  mediaType : String
  byteLength : Nat
deriving DecidableEq, Repr

structure StoredDocumentResource where
  digest : String
  mediaType : String
  byteLength : Nat
  lastAccessedUnixMs : Int
  referenceCount : Nat
  evicting : Bool
deriving DecidableEq, Repr

structure Cache where
  rows : List StoredDocumentResource
  files : String → Option Bytes
  /-- The flight of a digest, by its number. -/
  flights : String → Option Nat
  results : List (Option (Except String String))
  /-- The flights that the calls have entered, each with its call. -/
  joined : List (Nat × Nat)
  /-- The call that leads each flight. -/
  leaders : List Nat
  /-- The calls that have called for the bytes. -/
  acquired : List Nat
  /-- The calls that did not find a resource, if no flight of it has ended since. -/
  missed : List (Nat × String)

/-- How the eviction of a resource ends. -/
inductive Eviction
  | finished
  /-- The claim fails. -/
  | unclaimed
  /-- The file cannot be removed, and the claim is cancelled. -/
  | unremovable
  /-- The file cannot be removed, and the claim cannot be cancelled. -/
  | uncancelled
  /-- The file is removed, and the row cannot be deleted. -/
  | unfinished
deriving DecidableEq

/-- What an action meets. -/
structure Input where
  /-- The file operation or store call succeeds. -/
  ok : Bool
  /-- What the callback returns, and the bytes that can be read. -/
  acquire : Except String Bytes
  eviction : String → Eviction

inductive Label
  | plain
  /-- An action of an acquisition, or one whose failure is ignored. -/
  | storing
  /-- A call waits for the result of its flight. -/
  | wait (k : Nat)
  | join (k : Nat) (digest : String)
deriving DecidableEq

abbrev Prog := Process Label Input Cache ResourceCacheError

structure Config where
  maximumBytes : Nat
  maximumResourceBytes : Nat

/-! ### The table -/

namespace Cache

variable (c : Cache)

def documentResource (digest : String) : Option StoredDocumentResource :=
  c.rows.find? (·.digest == digest)

/-- Look a resource up. -/
def look (k : Nat) (digest : String) : Option StoredDocumentResource × Cache :=
  match c.documentResource digest with
  | none => (none, { c with missed := (k, digest) :: c.missed })
  | some row => (some row, c)

/-- Change the row of a digest. -/
def modify (digest : String) (f : StoredDocumentResource → StoredDocumentResource) : Cache :=
  { c with rows := c.rows.map fun row => if row.digest = digest then f row else row }

def upsertDocumentResource (row : StoredDocumentResource) : Cache :=
  match c.documentResource row.digest with
  | none => { c with rows := c.rows ++ [row] }
  | some _ => c.modify row.digest fun old => { row with referenceCount := old.referenceCount }

/-- The bytes of all resources. -/
def totalBytes : Nat := (c.rows.map (·.byteLength)).sum

/-- The sum of an integer column fails on overflow. -/
def documentResourceUsage : Except ResourceCacheError Nat :=
  if (c.totalBytes : Int) ≤ i64Max then .ok c.totalBytes
  else .error (.storage "integer overflow")

/-- `UPDATE … WHERE digest=? AND …`, which fails if no row is changed. -/
def update (digest : String) (where_ : StoredDocumentResource → Bool)
    (f : StoredDocumentResource → StoredDocumentResource) :
    Except ResourceCacheError Unit × Cache :=
  if c.rows.any fun row => row.digest = digest && where_ row then
    (.ok (), c.modify digest fun row => if where_ row then f row else row)
  else (.error (.storage ("document resource " ++ digest ++ " was not found")), c)

def deleteUnreferencedDocumentResource (digest : String) : Cache :=
  { c with rows := c.rows.filter fun row => !(row.digest = digest && row.referenceCount = 0) }

def setFile (digest : String) (bytes : Option Bytes) : Cache :=
  { c with files := Function.update c.files digest bytes }

/-- Remove the flight of a digest. -/
def endFlight (digest : String) : Cache :=
  { c with
    flights := Function.update c.flights digest none
    missed := c.missed.filter (·.2 ≠ digest) }

/-- The candidates of an eviction, oldest first. -/
def unreferencedDocumentResourcesLru : List StoredDocumentResource :=
  (c.rows.filter (·.referenceCount = 0)).mergeSort fun a b =>
    a.lastAccessedUnixMs < b.lastAccessedUnixMs ∨
      a.lastAccessedUnixMs = b.lastAccessedUnixMs ∧ a.digest ≤ b.digest

def claimDocumentResourceEviction (digest : String) : Bool × Cache :=
  (c.rows.any fun row => row.digest = digest && row.referenceCount = 0 && !row.evicting,
    c.modify digest fun row =>
      if row.referenceCount = 0 && !row.evicting then { row with evicting := true } else row)

def cancelDocumentResourceEviction (digest : String) : Cache :=
  c.modify digest fun row => { row with evicting := false }

def finishDocumentResourceEviction (digest : String) : Cache :=
  { c with rows := c.rows.filter fun row =>
      !(row.digest = digest && row.referenceCount = 0 && row.evicting) }

/-- Claim a resource, remove its file and delete its row.  Whether it could be claimed. -/
def evict (digest : String) (eviction : Eviction) : Except ResourceCacheError Bool × Cache :=
  if eviction = .unclaimed then (.error (.storage "claim"), c)
  else
    match c.claimDocumentResourceEviction digest with
    | (false, c) => (.ok false, c)
    | (true, c) =>
      match eviction with
      | .finished => (.ok true, (c.setFile digest none).finishDocumentResourceEviction digest)
      | .unremovable => (.error (.io digest), c.cancelDocumentResourceEviction digest)
      | .unfinished => (.error (.storage "finish"), c.setFile digest none)
      | _ => (.error (.storage "cancel"), c)

end Cache

/-- The loop of `evict_for`. -/
def evictLoop (maximumBytes incoming : Nat) (eviction : String → Eviction) :
    List StoredDocumentResource → Nat → Cache → Except ResourceCacheError Unit × Cache
  | [], usage, c =>
    (if saturatingAdd usage incoming > maximumBytes then .error .limit else .ok (), c)
  | row :: rows, usage, c =>
    if saturatingAdd usage incoming ≤ maximumBytes then (.ok (), c)
    else
      match c.evict row.digest (eviction row.digest) with
      | (.ok true, c) => evictLoop maximumBytes incoming eviction rows (usage - row.byteLength) c
      | (.ok false, c) => evictLoop maximumBytes incoming eviction rows usage c
      | (.error error, c) => (.error error, c)

def evictFor (config : Config) (incoming : Nat) (eviction : String → Eviction) (c : Cache) :
    Except ResourceCacheError Unit × Cache :=
  match c.documentResourceUsage with
  | .error error => (.error error, c)
  | .ok usage =>
    evictLoop config.maximumBytes incoming eviction c.unreferencedDocumentResourcesLru usage c

/-! ### Calls -/

def validateDescriptor (descriptor : NodeResourceDescriptor) (maximumResourceBytes : Nat) :
    Except ResourceCacheError Unit :=
  if (asBytes descriptor.digest).length ≠ 64
      ∨ !descriptor.digest.toList.all (fun c => c.isDigit || ('a' ≤ c && c ≤ 'f'))
      ∨ descriptor.mediaType = "" ∨ descriptor.byteLength > maximumResourceBytes then
    .error .invalidDescriptor
  else .ok ()

def relativePath (digest : String) : String := "sha256/" ++ prefixText 2 digest ++ "/" ++ digest

section

variable (sha256 : Bytes → String)

/-- The bytes are those of the digest. -/
def Matches (digest : String) (byteLength : Nat) (bytes : Bytes) : Bool :=
  bytes.length = byteLength && sha256 bytes = digest

/-- A store call. -/
def store {α : Type} (label : Label) (f : Cache → Except ResourceCacheError α × Cache) : Prog α :=
  .fallible label fun i c => if i.ok then f c else (.error (.storage "SQLite"), c)

/-- A file operation. -/
def file {α : Type} (label : Label) (f : Cache → α × Cache) : Prog α :=
  .fallible label fun i c =>
    if i.ok then (.ok (f c).1, (f c).2) else (.error (.io "file system"), c)

def verifyFile (digest : String) (byteLength : Nat) : Prog Bool :=
  file .plain fun c => ((c.files digest).any (Matches sha256 digest byteLength), c)

/-- The file of a row that does not match is removed, and then the row. -/
def repair (digest : String) : Prog (Option String) :=
  (Process.atomic .storing fun i c =>
    ((), if i.ok then c.setFile digest none else c)).bind fun _ =>
  (store .plain fun c => (.ok (), c.deleteUnreferencedDocumentResource digest)).bind fun _ =>
  .done none

def cachedVerified (k : Nat) (descriptor : NodeResourceDescriptor) (now : Int) :
    Prog (Option String) :=
  (store .plain fun c => (c.look k descriptor.digest).map .ok id).bind fun
    | none => .done none
    | some row =>
      (if row.byteLength = descriptor.byteLength ∧ row.mediaType = descriptor.mediaType then
        verifyFile sha256 descriptor.digest descriptor.byteLength
      else .done false).bind fun
        | true =>
          (store .plain fun c => c.update descriptor.digest (fun _ => true) fun row =>
            { row with lastAccessedUnixMs := now }).bind fun _ =>
          .done (some (relativePath descriptor.digest))
        | false =>
          if row.referenceCount > 0 then .fail .digestMismatch else repair descriptor.digest

/-- The row of a published file. -/
def newRow (descriptor : NodeResourceDescriptor) (now : Int) : StoredDocumentResource :=
  ⟨descriptor.digest, descriptor.mediaType, descriptor.byteLength, now, 0, false⟩

/-- Publish the bytes and write their row. -/
def publish (descriptor : NodeResourceDescriptor) (bytes : Bytes) (now : Int) : Prog String :=
  -- the rename, and the synchronization of the directory
  (file .storing fun c =>
    ((), c.setFile descriptor.digest (some bytes))).bind fun _ =>
  (file .storing fun c => ((), c)).bind fun _ =>
  (store .storing fun c =>
    (.ok (), c.upsertDocumentResource (newRow descriptor now))).attempt.bind fun
    | .ok () => .done (relativePath descriptor.digest)
    | .error error =>
      (Process.atomic .storing fun i c =>
        ((), if i.ok then c.setFile descriptor.digest none else c)).bind fun _ =>
      .fail error

def storeAcquired (config : Config) (k : Nat) (descriptor : NodeResourceDescriptor) (now : Int) :
    Prog String :=
  (Process.fallible .storing fun i c =>
    (match i.acquire with
      | .error message => .error (.acquisition message)
      | .ok stream => if i.ok then .ok stream else .error (.io "read"),
      { c with acquired := k :: c.acquired })).bind fun stream =>
  let bytes := stream.take (min descriptor.byteLength config.maximumResourceBytes + 1)
  if Matches sha256 descriptor.digest descriptor.byteLength bytes then
    (Process.fallible .storing fun i c =>
      if i.ok then evictFor config descriptor.byteLength i.eviction c
      else (.error (.storage "SQLite"), c)).bind fun _ =>
    publish descriptor bytes now
  else .fail .digestMismatch

/-- Enter the flight of the digest, or begin one. -/
def joinFlight (k : Nat) (digest : String) : Prog (Nat × Bool) :=
  .atomic (.join k digest) fun _ c =>
    match c.flights digest with
    | some flight => ((flight, false), { c with joined := (k, flight) :: c.joined })
    | none => ((c.results.length, true), { c with
        flights := Function.update c.flights digest (some c.results.length)
        results := c.results ++ [none]
        leaders := c.leaders ++ [k] })

/-- Lead the flight. -/
def lead (config : Config) (k flight : Nat) (descriptor : NodeResourceDescriptor) (now : Int) :
    Prog String :=
  (storeAcquired sha256 config k descriptor now).attempt.bind fun result =>
  let result := result.mapError ResourceCacheError.toText
  (Process.atomic .storing fun _ c =>
    ((), { c with results := c.results.set flight (some result) })).bind fun _ =>
  (Process.atomic .storing fun _ c => ((), c.endFlight descriptor.digest)).bind fun _ =>
  .ofExcept (result.mapError .acquisition)

/-- Wait for the result of the flight. -/
def follow (k flight : Nat) : Prog String :=
  (Process.atomic (.wait k) fun _ c => (c.results[flight]?.join, c)).bind fun
    | some result => .ofExcept (result.mapError .acquisition)
    | none => .fail .synchronization

def resolve (config : Config) (k : Nat) (descriptor : NodeResourceDescriptor) (now : Int) :
    Prog String :=
  match validateDescriptor descriptor config.maximumResourceBytes with
  | .error error => .fail error
  | .ok () =>
    (cachedVerified sha256 k descriptor now).bind fun
      | some path => .done path
      | none =>
        (joinFlight k descriptor.digest).bind fun
          | (flight, true) => lead sha256 config k flight descriptor now
          | (flight, false) => follow k flight

def resolveExisting (config : Config) (k : Nat) (descriptor : NodeResourceDescriptor) (now : Int) :
    Prog (Option String) :=
  match validateDescriptor descriptor config.maximumResourceBytes with
  | .error error => .fail error
  | .ok () => cachedVerified sha256 k descriptor now

def pin (digest : String) : Prog Unit :=
  store .storing fun c => c.update digest (!·.evicting) fun row =>
    { row with referenceCount := row.referenceCount + 1 }

def unpin (digest : String) : Prog Unit :=
  store .plain fun c => c.update digest (0 < ·.referenceCount) fun row =>
    { row with referenceCount := row.referenceCount - 1 }

def verifiedDigests (limit : Nat) : Prog (List String) :=
  (store .plain fun c => (.ok ((c.rows.filter (!·.evicting)).mergeSort fun a b =>
    b.lastAccessedUnixMs < a.lastAccessedUnixMs ∨
      a.lastAccessedUnixMs = b.lastAccessedUnixMs ∧ a.digest ≤ b.digest), c)).bind fun rows =>
  .gather (fun row => (verifyFile sha256 row.digest row.byteLength).bind fun verified =>
    .done (if verified then some row.digest else none)) (rows.take (min limit 256)) []

inductive Call
  | resolve (descriptor : NodeResourceDescriptor) (now : Int)
  | resolveExisting (descriptor : NodeResourceDescriptor) (now : Int)
  | pin (digest : String)
  | unpin (digest : String)
  | verifiedDigests (limit : Nat)

/-- The digests or paths that a call returns. -/
def program (config : Config) (k : Nat) : Call → Prog (List String)
  | .resolve descriptor now =>
    (Resources.resolve sha256 config k descriptor now).bind fun path => .done [path]
  | .resolveExisting descriptor now =>
    (Resources.resolveExisting sha256 config k descriptor now).bind fun path => .done path.toList
  | .pin digest => (Resources.pin digest).bind fun _ => .done []
  | .unpin digest => (Resources.unpin digest).bind fun _ => .done []
  | .verifiedDigests limit => Resources.verifiedDigests sha256 limit

/-- A call waits for the result of the flight it has entered. -/
def ready : Label → Cache → Bool
  | .wait k, c => c.joined.all fun entry =>
    entry.1 != k || c.results[entry.2]?.join.isSome
  | _, _ => true

end

end Piqae.Resources
