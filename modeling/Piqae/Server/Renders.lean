/-
Piqae/Server/Renders.lean

Document renders on the server: their rows, the previews and print jobs that
refer to them, and the objects of uploads and artifacts (`storage-postgres`, with
the triggers of migrations 0035 and 0046).

One workspace and environment.  Each statement is a function of the store, whose
clock is the `now()` of the database.  The lease tokens and the numbers of
uploads and jobs are fresh.  An object key is that of an inline upload or of the
artifact of a render under a lease token; the key of an artifact stands for its
ciphertext, digest and length.
-/
import Piqae.Base

namespace Piqae.Server.Renders

inductive Purpose
  | printable
  | preview
deriving DecidableEq, Repr

inductive RenderState
  | registered
  | rendering
  | completed
  | failedTerminal
  | expiring
  | expired
deriving DecidableEq, Repr

inductive ObjectKey
  | inline (upload : Nat)
  | artifact (render : String) (token : Nat)
deriving DecidableEq, Repr

structure Lease where
  token : Nat
  expiresAt : Int
deriving DecidableEq, Repr

structure Render where
  id : String
  purpose : Purpose
  state : RenderState
  attempt : Nat
  maxAttempts : Nat
  availableAt : Int
  createdAt : Int
  lease : Option Lease
  expiresAt : Int
  artifact : Option ObjectKey
deriving DecidableEq, Repr

inductive PreviewState
  | awaitingApproval
  | approving
  | approved
  | cancelled
  | expired
deriving DecidableEq, Repr

structure Preview where
  id : String
  renderId : String
  state : PreviewState
  expiresAt : Int
deriving DecidableEq, Repr

structure Upload where
  id : Nat
  objectKey : ObjectKey
  complete : Bool
  sourceDocumentRenderId : Option String
  acquisitionSha256 : Option String
deriving DecidableEq, Repr

structure Job where
  id : Nat
  idempotencyKey : Option String
  uploadId : Nat
  expiresAt : Int
  final : Bool
deriving DecidableEq, Repr

/-- A job that needs the artifact of a render. -/
structure JobReference where
  renderId : String
  uploadId : Nat
  jobId : Nat
  retainedUntil : Int
  released : Bool
deriving DecidableEq, Repr

structure Store where
  renders : List Render
  previews : List Preview
  references : List JobReference
  uploads : List Upload
  jobs : List Job
  now : Int
  /-- The tokens and numbers that were given out. -/
  tokens : Nat
  uploadIds : Nat
  jobIds : Nat

def Store.empty (now : Int) : Store := ⟨[], [], [], [], [], now, 0, 0, 0⟩

inductive StorageError
  | notFound
  | concurrentStateChange
  | invalidData (message : String)
  | database
deriving DecidableEq, Repr

/-- Render work as it was claimed. -/
structure DocumentRenderWork where
  renderId : String
  token : Nat
  purpose : Purpose
  attempt : Nat
  maxAttempts : Nat
deriving DecidableEq, Repr

structure ExpiredDocumentArtifactWork where
  renderId : String
  token : Nat
  objectKey : Option ObjectKey
deriving DecidableEq, Repr

def clamp (value low high : Int) : Int := max low (min value high)

namespace Store

variable (s : Store)

/-! ### Rendering -/

/-- `UPDATE document_renders … WHERE …`. -/
def updateRenders (where_ : Render → Bool) (f : Render → Render) : Store :=
  { s with renders := s.renders.map fun row => if where_ row then f row else row }

/-- The update of a row by its worker, which fails if there is no such row. -/
def updateRender (where_ : Render → Bool) (f : Render → Render) :
    Except StorageError Unit × Store :=
  if s.renders.any where_ then (.ok (), s.updateRenders where_ f)
  else (.error .concurrentStateChange, s)

/-- A printable render is kept for thirty days; the time of a preview is checked. -/
def registerDocumentRender (id : String) (purpose : Purpose) (expiresInSeconds : Int) :
    Except StorageError Unit × Store :=
  if s.renders.any (·.id = id)
      ∨ purpose = .preview ∧ ¬(60 ≤ expiresInSeconds ∧ expiresInSeconds ≤ 1800) then
    (.error .database, s)
  else (.ok (), { s with renders := s.renders ++ [{
    id := id
    purpose := purpose
    state := .registered
    attempt := 0
    maxAttempts := 5
    availableAt := s.now
    createdAt := s.now
    lease := none
    expiresAt := s.now + (if purpose = .preview then expiresInSeconds else 30 * 24 * 60 * 60)
    artifact := none }] })

/-- A lease that is over. -/
def leaseOver (now : Int) (row : Render) : Bool := row.lease.all (·.expiresAt ≤ now)

def claimable (now : Int) (row : Render) : Bool :=
  (row.state = .registered || row.state = .rendering) && row.availableAt ≤ now &&
    (row.purpose ≠ .preview || now < row.expiresAt) && leaseOver now row &&
    row.attempt < row.maxAttempts

def claimOrder (a b : Render) : Bool :=
  a.availableAt < b.availableAt ∨ a.availableAt = b.availableAt ∧
    (a.createdAt < b.createdAt ∨ a.createdAt = b.createdAt ∧ a.id ≤ b.id)

def claimedRenders (limit : Int) : List Render :=
  ((s.renders.filter (claimable s.now)).mergeSort claimOrder).take (clamp limit 1 100).toNat

/-- The rows that are claimed, each with a new lease. -/
def lease (claimed : List Render) (leaseSeconds : Int) (f : Render → Render) : Store :=
  { s.updateRenders (fun row => claimed.any (·.id = row.id)) fun row =>
      { f row with lease := some ⟨s.tokens + (claimed.map (·.id)).idxOf row.id,
          s.now + clamp leaseSeconds 5 3600⟩ } with
    tokens := s.tokens + claimed.length }

def claimDocumentRenders (limit leaseSeconds : Int) : List DocumentRenderWork × Store :=
  let claimed := s.claimedRenders limit
  (claimed.zipIdx.map fun (row, i) =>
      ⟨row.id, s.tokens + i, row.purpose, row.attempt + 1, row.maxAttempts⟩,
    s.lease claimed leaseSeconds fun row =>
      { row with state := .rendering, attempt := row.attempt + 1 })

def completeClaimedDocumentRender (id : String) (token : Nat) (key : ObjectKey) :
    Except StorageError Unit × Store :=
  s.updateRender (fun row => row.id = id && row.state = .rendering &&
      row.lease.any (·.token = token) && (row.purpose ≠ .preview || s.now < row.expiresAt))
    fun row => { row with state := .completed, artifact := some key, lease := none }

def failClaimedDocumentRender (work : DocumentRenderWork) (retryable : Bool) :
    Except StorageError Unit × Store :=
  let terminal : Bool := !retryable || work.attempt ≥ work.maxAttempts
  s.updateRender (fun row => row.id = work.renderId && row.lease.any (·.token = work.token))
    fun row => { row with
      state := if terminal then .failedTerminal else .registered
      availableAt := if terminal then row.availableAt
        else s.now + min 300 (2 ^ min row.attempt 8)
      lease := none }

/-! ### Expiry -/

/-- A job or an approval needs the artifact. -/
def retained (now : Int) (id : String) : Bool :=
  s.references.any (fun reference =>
      reference.renderId = id && !reference.released && now < reference.retainedUntil) ||
    s.previews.any fun preview => preview.renderId = id &&
      (preview.state = .approving || preview.state = .awaitingApproval && now < preview.expiresAt)

def expirable (now : Int) (row : Render) : Bool :=
  (match row.purpose with
    | .preview => row.state ≠ .expired
    | .printable =>
      row.state = .completed || row.state = .failedTerminal || row.state = .expiring) &&
    row.expiresAt ≤ now && leaseOver now row && !s.retained now row.id

def expiredRenders (limit : Int) : List Render :=
  ((s.renders.filter (s.expirable s.now)).mergeSort fun a b =>
    a.expiresAt < b.expiresAt ∨ a.expiresAt = b.expiresAt ∧ a.id ≤ b.id).take
      (clamp limit 1 100).toNat

def claimExpiredDocumentArtifacts (limit leaseSeconds : Int) :
    List ExpiredDocumentArtifactWork × Store :=
  let claimed := s.expiredRenders limit
  (claimed.zipIdx.map fun (row, i) => ⟨row.id, s.tokens + i, row.artifact⟩,
    s.lease claimed leaseSeconds fun row => { row with state := .expiring })

def completeDocumentArtifactExpiry (work : ExpiredDocumentArtifactWork) :
    Except StorageError Unit × Store :=
  s.updateRender (fun row => row.id = work.renderId && row.state = .expiring &&
      row.lease.any (·.token = work.token)) fun row =>
    { row with state := .expired, artifact := none, lease := none }

/-! ### Previews -/

/-- Only a printable render that is completed can enter approval or be printed. -/
def printed (id : String) : Bool :=
  s.renders.any fun row => row.id = id && row.purpose = .printable && row.state = .completed

def createDocumentPreview (id renderId : String) (expiresAt : Int) :
    Except StorageError Unit × Store :=
  if s.printed renderId ∧ !s.previews.any (·.id = id) then
    (.ok (), { s with previews := s.previews ++ [⟨id, renderId, .awaitingApproval, expiresAt⟩] })
  else (.error .notFound, s)

/-- The state of a preview changes: its approval begins, ends or is cancelled, or it expires. -/
def movePreview (id : String) (before after : PreviewState) : Store :=
  { s with previews := s.previews.map fun preview =>
      if preview.id = id ∧ preview.state = before then { preview with state := after }
      else preview }

/-! ### Uploads and jobs -/

def createUpload : Nat × Store :=
  (s.uploadIds, { s with
    uploads := s.uploads ++ [⟨s.uploadIds, .inline s.uploadIds, false, none, none⟩]
    uploadIds := s.uploadIds + 1 })

def completeUpload (id : Nat) : Store :=
  { s with uploads := s.uploads.map fun upload =>
      if upload.id = id then { upload with complete := true } else upload }

/-- An upload that is not the content of a job is deleted. -/
def deleteUpload (id : Nat) : Except StorageError Unit × Store :=
  if s.uploads.any (·.id = id) ∧ !s.jobs.any (·.uploadId = id) then
    (.ok (), { s with uploads := s.uploads.filter (·.id ≠ id) })
  else (.error .notFound, s)

def acquireDocumentArtifactUpload (renderId : String) (key : ObjectKey) (acquisition : String) :
    Except StorageError Nat × Store :=
  if !s.printed renderId then (.error .notFound, s)
  else
    match s.uploads.find? fun upload => upload.sourceDocumentRenderId = some renderId &&
        upload.acquisitionSha256 = some acquisition with
    | some upload => (.ok upload.id, s)
    | none => (.ok s.uploadIds, { s with
        uploads := s.uploads ++ [⟨s.uploadIds, key, true, some renderId, some acquisition⟩]
        uploadIds := s.uploadIds + 1 })

inductive CreateResult
  | created (id : Nat)
  | existing (id : Nat)
deriving DecidableEq, Repr

/-- The render whose artifact the job needs. -/
def artifactRender (uploadId : Nat) : Option String :=
  (s.uploads.find? fun upload => upload.id = uploadId && upload.complete).bind
    (·.sourceDocumentRenderId)

/-- The job, and by the trigger its reference.  The row of the render is kept as long as the
job. -/
def createCloudJob (idempotencyKey : Option String) (uploadId : Nat) (expiresAt : Int) :
    Except StorageError CreateResult × Store :=
  match s.jobs.find? fun job =>
      job.idempotencyKey.isSome && job.idempotencyKey = idempotencyKey with
  | some job => (.ok (.existing job.id), s)
  | none =>
    let job : Job := ⟨s.jobIds, idempotencyKey, uploadId, expiresAt, false⟩
    match s.artifactRender uploadId with
    | none => (.ok (.created job.id), { s with jobs := s.jobs ++ [job], jobIds := s.jobIds + 1 })
    | some renderId =>
      if s.printed renderId ∧ s.now < expiresAt then
        (.ok (.created job.id), { s.updateRenders (·.id = renderId) (fun row =>
            { row with expiresAt := max row.expiresAt expiresAt }) with
          jobs := s.jobs ++ [job]
          jobIds := s.jobIds + 1
          references := s.references ++ [⟨renderId, uploadId, job.id, expiresAt, false⟩] })
      else (.error (.invalidData "document artifact is not printable"), s)

/-- A job becomes final, and its reference is released. -/
def finalizeJob (id : Nat) : Store :=
  { s with
    jobs := s.jobs.map fun job => if job.id = id then { job with final := true } else job
    references := s.references.map fun reference =>
      if reference.jobId = id then { reference with released := true } else reference }

end Store

end Piqae.Server.Renders
