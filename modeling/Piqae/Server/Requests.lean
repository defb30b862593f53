/-
Piqae/Server/Requests.lean

Requests for a job that may be repeated: `create_cloud_job` with its idempotency
key and its encrypted envelope (`storage-postgres/src/lib.rs`).

A key that was used in the last 24 hours stands for the job it created, and so
does the envelope of an encrypted document, for ever.  The lookup of a key passes
over a row that has expired; the insertion does not, since the primary key of the
table does not know about expiry and nothing deletes from it.

What the billing tables and the node's encryption keys say about a request is an
input.
-/
import Piqae.Server.Jobs

namespace Piqae.Server

open SortedMap

def ContentSource.isEncrypted : ContentSource → Bool
  | encryptedUpload _ => true
  | _ => false

/-- The manifest of an encrypted document: its envelope, and its own digest. -/
structure Manifest where
  envelopeId : String
  sha256 : String
deriving DecidableEq, Repr

/-- A call of `create_cloud_job`.  A document has a manifest just if it is
encrypted. -/
structure CreateJob where
  jobId : String
  agentId : String
  destinationRoute : Option (String × String)
  content : ContentSource
  manifest : Option Manifest
  state : JobState
  createdAt : DateTime
  expiresAt : DateTime
  idempotencyKey : Option String
  requestHash : String
  /-- When the transaction begins. -/
  now : DateTime
  /-- What the billing tables refuse the job with. -/
  refusal : Option StorageError
  /-- Can one of the keys of the node open the envelope? -/
  admissibleRecipient : Bool
  encrypted : manifest.isSome = content.isEncrypted

def CreateJob.row (request : CreateJob) : JobRow where
  agentId := request.agentId
  destinationId := request.destinationRoute.map Prod.fst
  content := request.content
  state := request.state
  createdAt := request.createdAt
  expiresAt := request.expiresAt
  finalAt := none
  leaseId := none
  leaseTokenHash := none
  leaseUntil := none

inductive CreateJobResult
  | created (jobId : String) (job : JobRow)
  | existing (jobId : String) (job : JobRow)
deriving DecidableEq, Repr

def CreateJobResult.jobId : CreateJobResult → String
  | created jobId _ => jobId
  | existing jobId _ => jobId

def CreateJobResult.isCreated : CreateJobResult → Bool
  | created _ _ => true
  | existing _ _ => false

structure IdempotencyRequestRow where
  requestHash : String
  resourceId : String
  expiresAt : DateTime
deriving DecidableEq, Repr

structure ConsumedEnvelopeRow where
  manifestSha256 : String
  jobId : String
deriving DecidableEq, Repr

structure RequestStore extends PostgresStore where
  idempotencyRequests : SortedMap String IdempotencyRequestRow
  consumedEnvelopes : SortedMap String ConsumedEnvelopeRow
deriving DecidableEq

/-- A day. -/
def idempotencyWindow : Int := 24 * 60 * 60 * 10 ^ 9

/-! ### Creating a job -/

/-- Insert the job, unless billing, its route or its keys refuse it. -/
def PostgresStore.registerJob (s : PostgresStore) (request : CreateJob) :
    Except StorageError PostgresStore :=
  match request.refusal with
  | some error => .error error
  | none =>
    match s.createCloudJob request.jobId request.agentId request.destinationRoute request.content
        request.state request.createdAt request.expiresAt with
    | .error error => .error error
    | .ok s =>
      if request.manifest.isSome && !request.admissibleRecipient then
        .error (.invalidData "encrypted job has no admissible recipient key for its node")
      else .ok s

namespace RequestStore

variable (s : RequestStore) (request : CreateJob)

def findIdempotentJob (now : DateTime) (key requestHash : String) :
    Except StorageError (Option (String × JobRow)) :=
  match s.idempotencyRequests.get? key with
  | none => .ok none
  | some row =>
    if ¬now < row.expiresAt then .ok none
    else if row.requestHash ≠ requestHash then .error .idempotencyConflict
    else
      match s.jobs.get? row.resourceId with
      | none => .error .notFound
      | some job => .ok (some (row.resourceId, job))

/-- The job that has consumed an envelope. -/
def findConsumingJob (manifest : Manifest) : Except StorageError (Option (String × JobRow)) :=
  match s.consumedEnvelopes.get? manifest.envelopeId with
  | none => .ok none
  | some row =>
    match s.jobs.get? row.jobId with
    | none => .error .idempotencyConflict
    | some job =>
      if row.manifestSha256 ≠ manifest.sha256 then .error .idempotencyConflict
      else .ok (some (row.jobId, job))

def keyedJob : Except StorageError (Option (String × JobRow)) :=
  match request.idempotencyKey with
  | none => .ok none
  | some key => s.findIdempotentJob request.now key request.requestHash

def sealedJob : Except StorageError (Option (String × JobRow)) :=
  match request.manifest with
  | none => .ok none
  | some manifest => s.findConsumingJob manifest

/-- The job a request stands for already: that of its key, else of its envelope. -/
def earlierJob : Except StorageError (Option (String × JobRow)) :=
  match s.keyedJob request with
  | .error error => .error error
  | .ok (some job) => .ok (some job)
  | .ok none => s.sealedJob request

def consumeEnvelope : SortedMap String ConsumedEnvelopeRow :=
  match request.manifest with
  | none => s.consumedEnvelopes
  | some manifest => s.consumedEnvelopes.insert manifest.envelopeId ⟨manifest.sha256, request.jobId⟩

/-- Record the key; a row that has expired is in the way as well. -/
def recordRequest : Except StorageError (SortedMap String IdempotencyRequestRow) :=
  match request.idempotencyKey with
  | none => .ok s.idempotencyRequests
  | some key =>
    if s.idempotencyRequests.contains key then .error .database
    else .ok (s.idempotencyRequests.insert key
      ⟨request.requestHash, request.jobId, request.now + idempotencyWindow⟩)

def createCloudJob : Except StorageError (CreateJobResult × RequestStore) :=
  match s.earlierJob request with
  | .error error => .error error
  | .ok (some (jobId, job)) => .ok (.existing jobId job, s)
  | .ok none =>
    match s.toPostgresStore.registerJob request with
    | .error error => .error error
    | .ok store =>
      match s.recordRequest request with
      | .error error => .error error
      | .ok idempotencyRequests =>
        .ok (.created request.jobId request.row,
          ⟨store, idempotencyRequests, s.consumeEnvelope request⟩)

end RequestStore

/-! ### What a call does -/

namespace RequestStore

variable {s s' : RequestStore} {request : CreateJob} {result : CreateJobResult} {key : String}

theorem registerJob_ok {store : PostgresStore}
    (h : s.toPostgresStore.registerJob request = .ok store) :
    store.jobs.get? request.jobId = some request.row ∧
      PostgresStore.KeepsJobs [] s.toPostgresStore store := by
  unfold PostgresStore.registerJob at h
  split at h
  · cases h
  split at h
  · cases h
  next hcr =>
  split_ifs at h
  cases h
  refine ⟨?_, PostgresStore.keepsJobs_createCloudJob hcr⟩
  unfold PostgresStore.createCloudJob at hcr
  split_ifs at hcr
  cases hcr
  exact SortedMap.get?_insert_self

theorem recordRequest_ok {rows : SortedMap String IdempotencyRequestRow}
    (h : s.recordRequest request = .ok rows) :
    (∀ key, request.idempotencyKey = some key → s.idempotencyRequests.get? key = none ∧
      rows.get? key = some ⟨request.requestHash, request.jobId, request.now + idempotencyWindow⟩) ∧
    ∀ key, request.idempotencyKey ≠ some key → rows.get? key = s.idempotencyRequests.get? key := by
  unfold recordRequest at h
  split at h
  · next hkey =>
    cases h
    exact ⟨fun key hkey' => absurd (hkey.symm.trans hkey') nofun, fun _ _ => rfl⟩
  next used hkey =>
  split_ifs at h with hcont
  cases h
  refine ⟨fun key hkey' => ?_, fun key hne => ?_⟩
  · cases hkey.symm.trans hkey'
    exact ⟨contains_eq_false_iff.mp (by simpa using hcont), SortedMap.get?_insert_self⟩
  · refine get?_insert_ne ?_
    rintro rfl
    exact hne hkey

/-- What a call that creates a job leaves. -/
structure Creates (request : CreateJob) (s s' : RequestStore) : Prop where
  job : s'.jobs.get? request.jobId = some request.row
  kept : PostgresStore.KeepsJobs [] s.toPostgresStore s'.toPostgresStore
  recorded : ∀ key, request.idempotencyKey = some key → s.idempotencyRequests.get? key = none ∧
    s'.idempotencyRequests.get? key =
      some ⟨request.requestHash, request.jobId, request.now + idempotencyWindow⟩
  others : ∀ key, request.idempotencyKey ≠ some key →
    s'.idempotencyRequests.get? key = s.idempotencyRequests.get? key
  envelopes : s'.consumedEnvelopes = s.consumeEnvelope request

/-- A call that succeeds finds a job or creates one. -/
theorem createCloudJob_ok (h : s.createCloudJob request = .ok (result, s')) :
    (∃ jobId job, result = .existing jobId job ∧ s' = s ∧
      s.earlierJob request = .ok (some (jobId, job))) ∨
    (result = .created request.jobId request.row ∧ s.earlierJob request = .ok none ∧
      Creates request s s') := by
  unfold createCloudJob at h
  split at h
  · cases h
  · next jobId job hearl =>
    cases h
    exact .inl ⟨jobId, job, rfl, rfl, hearl⟩
  · next hearl =>
    split at h
    · cases h
    next store hreg =>
    split at h
    · cases h
    next rows hrec =>
    cases h
    obtain ⟨hjob, hkept⟩ := registerJob_ok hreg
    obtain ⟨hrcd, hothers⟩ := recordRequest_ok hrec
    exact .inr ⟨rfl, hearl, hjob, hkept, hrcd, hothers, rfl⟩

/-- The jobs and the rows of the keys stay. -/
theorem createCloudJob_keeps (h : s.createCloudJob request = .ok (result, s')) :
    (∀ jobId, s.jobs.contains jobId = true → s'.jobs.contains jobId = true) ∧
      ∀ key row, s.idempotencyRequests.get? key = some row →
        s'.idempotencyRequests.get? key = some row := by
  rcases createCloudJob_ok h with ⟨_, _, -, rfl, -⟩ | ⟨-, -, hcr⟩
  · exact ⟨fun _ h => h, fun _ _ h => h⟩
  refine ⟨fun jobId hcont => ?_, fun key row hrow => ?_⟩
  · obtain ⟨job, hjob⟩ := Option.isSome_iff_exists.mp hcont
    obtain ⟨job', hjob', -⟩ := hcr.kept jobId job hjob
    exact Option.isSome_iff_exists.mpr ⟨job', hjob'⟩
  · rw [hcr.others key, hrow]
    intro hkey
    rw [(hcr.recorded key hkey).1] at hrow
    cases hrow

section

variable (hkey : request.idempotencyKey = some key)

include hkey

/-- A key without a row, with an envelope that is not consumed, gets its job. -/
theorem createCloudJob_new_key (hnone : s.idempotencyRequests.get? key = none)
    (hun : ∀ manifest ∈ request.manifest, s.consumedEnvelopes.get? manifest.envelopeId = none)
    (h : s.createCloudJob request = .ok (result, s')) :
    result.isCreated = true ∧ s'.jobs.contains result.jobId = true ∧
      s'.idempotencyRequests.get? key =
        some ⟨request.requestHash, result.jobId, request.now + idempotencyWindow⟩ := by
  rcases createCloudJob_ok h with ⟨jobId, job, -, -, hearl⟩ | ⟨rfl, -, hcr⟩
  · have hk : s.keyedJob request = .ok none := by
      simp [keyedJob, hkey, findIdempotentJob, hnone]
    have hsealed : s.sealedJob request = .ok none := by
      unfold sealedJob
      split
      · rfl
      · next manifest hman => simp [findConsumingJob, hun manifest hman]
    simp [earlierJob, hk, hsealed] at hearl
  · exact ⟨rfl, Option.isSome_iff_exists.mpr ⟨_, hcr.job⟩, (hcr.recorded key hkey).2⟩

/-- A key whose row is live decides the call. -/
theorem createCloudJob_of_live {row : IdempotencyRequestRow} {job : JobRow}
    (hrow : s.idempotencyRequests.get? key = some row) (hlive : request.now < row.expiresAt)
    (hjob : s.jobs.get? row.resourceId = some job) : s.createCloudJob request =
      if request.requestHash = row.requestHash then .ok (.existing row.resourceId job, s)
      else .error .idempotencyConflict := by
  have hk : s.keyedJob request = if request.requestHash = row.requestHash then
      .ok (some (row.resourceId, job)) else .error .idempotencyConflict := by
    simp only [keyedJob, hkey, findIdempotentJob, hrow, hlive, hjob, not_true_eq_false, if_false,
      ne_eq, ite_not, eq_comm]
  unfold createCloudJob earlierJob
  rw [hk]
  split_ifs <;> rfl

/-- The tables without a key. -/
def forget (s : RequestStore) (key : String) : RequestStore :=
  { s with idempotencyRequests := s.idempotencyRequests.erase key }

/-- The row of the key, if there is one, has expired. -/
def Lapsed (s : RequestStore) (now : DateTime) (key : String) : Prop :=
  ∀ row, s.idempotencyRequests.get? key = some row → row.expiresAt ≤ now

theorem earlierJob_forget (hlapsed : s.Lapsed request.now key) :
    (s.forget key).earlierJob request = s.earlierJob request := by
  have hforgot : (s.forget key).keyedJob request = .ok none := by
    rw [keyedJob, hkey]
    show findIdempotentJob _ _ _ _ = _
    rw [findIdempotentJob, forget, get?_erase_self]
  have hk : s.keyedJob request = .ok none := by
    rw [keyedJob, hkey]
    show s.findIdempotentJob _ _ _ = _
    unfold findIdempotentJob
    split
    · rfl
    · next row hrow => rw [if_pos (not_lt.mpr (hlapsed row hrow))]
  unfold earlierJob
  rw [hforgot, hk]
  rfl

/-- After the window, a request that would create a job under an unused key
creates one just if its own key has never been recorded. -/
theorem creates_after_window_iff {fresh : RequestStore} (hlapsed : s.Lapsed request.now key)
    (hfresh : (s.forget key).createCloudJob request =
      .ok (.created request.jobId request.row, fresh)) :
    (∃ s', s.createCloudJob request = .ok (.created request.jobId request.row, s')) ↔
      s.idempotencyRequests.get? key = none := by
  have hearl := earlierJob_forget hkey hlapsed
  constructor
  · rintro ⟨s', h⟩
    rcases createCloudJob_ok h with ⟨_, _, heq, -⟩ | ⟨-, -, hcr⟩
    · cases heq
    · exact (hcr.recorded key hkey).1
  · intro hnone
    have hcont : s.idempotencyRequests.contains key = false :=
      contains_eq_false_iff.mpr hnone
    unfold createCloudJob at hfresh ⊢
    rw [hearl] at hfresh
    cases hfound : s.earlierJob request with
    | error error => simp [hfound] at hfresh
    | ok found =>
      rw [hfound] at hfresh
      cases found with
      | some job => simp at hfresh
      | none =>
        have hreg : ((s.forget key).toPostgresStore.registerJob request) =
          s.toPostgresStore.registerJob request := rfl
        simp only [hreg] at hfresh ⊢
        cases hsto : s.toPostgresStore.registerJob request with
        | error error => simp [hsto] at hfresh
        | ok store => simp [recordRequest, hkey, hcont]

end

end RequestStore

/-! ### The machine -/

inductive RequestOp
  | createCloudJob (request : CreateJob)
  | server (op : ServerOp)

/-- The tables, and the calls that were made with what they returned. -/
structure Requests where
  tables : RequestStore
  log : List (CreateJob × Except StorageError CreateJobResult)

namespace Requests

def initial : Requests := ⟨⟨.empty, .empty, .empty⟩, []⟩

section Machine

variable (digest : String → String) (decodeBase64 : String → Option String)

def step (r : Requests) : RequestOp → Requests
  | .createCloudJob request =>
    match r.tables.createCloudJob request with
    | .ok (result, tables) => ⟨tables, r.log ++ [(request, .ok result)]⟩
    | .error error => ⟨r.tables, r.log ++ [(request, .error error)]⟩
  | .server op => { r with
    tables.toPostgresStore := r.tables.toPostgresStore.serve digest decodeBase64 op }

abbrev run (ops : List RequestOp) : Requests := Run.exec (step digest decodeBase64) initial ops

end Machine

/-- The first call with a key that succeeds. -/
structure FirstSuccess (log earlier : List (CreateJob × Except StorageError CreateJobResult))
    (key : String) (request : CreateJob) (result : CreateJobResult)
    (later : List (CreateJob × Except StorageError CreateJobResult)) : Prop where
  eq : log = earlier ++ (request, .ok result) :: later
  keyed : request.idempotencyKey = some key
  first : ∀ call ∈ earlier, call.1.idempotencyKey = some key → ∀ other, call.2 ≠ .ok other

/-- What the window promises about a later call with the key: the same job, or a
conflict. -/
def Repeats (key : String) (request : CreateJob) (result : CreateJobResult)
    (call : CreateJob × Except StorageError CreateJobResult) : Prop :=
  call.1.idempotencyKey = some key → call.1.now < request.now + idempotencyWindow →
    if call.1.requestHash = request.requestHash then
      ∃ job, call.2 = .ok (.existing result.jobId job)
    else call.2 = .error .idempotencyConflict

/-- The calls with one key create one job, and the later ones in the window return
it or a conflict. -/
def Idempotent (r : Requests) : Prop :=
  ∀ earlier key request result later, FirstSuccess r.log earlier key request result later →
    result.isCreated = true ∧ r.tables.jobs.contains result.jobId = true ∧
      ∀ call ∈ later, Repeats key request result call

/-- A call with a key that is not recorded does not bring an envelope that is
consumed. -/
def EnvelopeUnused (r : Requests) : RequestOp → Prop
  | .createCloudJob request => ∀ key, request.idempotencyKey = some key →
      r.tables.idempotencyRequests.get? key = none → ∀ manifest ∈ request.manifest,
        r.tables.consumedEnvelopes.get? manifest.envelopeId = none
  | .server _ => True

/-- The rows say what the log does. -/
structure Recorded (r : Requests) : Prop where
  unused : ∀ key, (∀ call ∈ r.log, call.1.idempotencyKey = some key → ∀ other, call.2 ≠ .ok other) →
    r.tables.idempotencyRequests.get? key = none
  first : ∀ earlier key request result later,
    FirstSuccess r.log earlier key request result later →
      r.tables.idempotencyRequests.get? key =
        some ⟨request.requestHash, result.jobId, request.now + idempotencyWindow⟩
  idempotent : r.Idempotent

theorem recorded_initial : Recorded initial where
  unused _ _ := rfl
  first earlier key request result later h := absurd h.eq (by simp [initial])
  idempotent earlier key request result later h := absurd h.eq (by simp [initial])

variable {request : CreateJob} {result : CreateJobResult}
  {earlier later : List (CreateJob × Except StorageError CreateJobResult)} {key : String}

/-- One more call after the first success, or the first success itself. -/
theorem FirstSuccess.snoc {log : List (CreateJob × Except StorageError CreateJobResult)}
    {call : CreateJob × Except StorageError CreateJobResult}
    (h : FirstSuccess (log ++ [call]) earlier key request result later) :
    (∃ later', later = later' ++ [call] ∧ FirstSuccess log earlier key request result later') ∨
      (later = [] ∧ earlier = log ∧ call = (request, .ok result)) := by
  rcases List.eq_nil_or_concat later with rfl | ⟨later', last, rfl⟩
  · obtain ⟨hlog, hcall⟩ := List.append_inj' h.eq rfl
    exact .inr ⟨rfl, hlog.symm, (List.cons.inj hcall).1⟩
  · have heq : log ++ [call] = (earlier ++ (request, .ok result) :: later') ++ [last] := by
      simpa using h.eq
    obtain ⟨hlog, hcall⟩ := List.append_inj' heq rfl
    obtain rfl := (List.cons.inj hcall).1
    exact .inl ⟨later', by simp, hlog, h.keyed, h.first⟩

variable {r : Requests}

/-- A call in the window finds the live row of its key, which decides it. -/
theorem Recorded.repeats (h : Recorded r) {first : CreateJob}
    (hfst : FirstSuccess r.log earlier key first result later) (request : CreateJob) :
    Repeats key first result (request, (r.tables.createCloudJob request).map Prod.fst) := by
  intro hkey hwindow
  obtain ⟨-, hcont, -⟩ := h.idempotent earlier key first result later hfst
  obtain ⟨job, hjob⟩ := Option.isSome_iff_exists.mp hcont
  have hlive := RequestStore.createCloudJob_of_live hkey
    (h.first earlier key first result later hfst) hwindow hjob
  rw [hlive]
  split_ifs
  · exact ⟨job, rfl⟩
  · rfl

/-- A call that fails changes no table. -/
theorem Recorded.failed (h : Recorded r) {error : StorageError}
    (hcall : r.tables.createCloudJob request = .error error) :
    Recorded ⟨r.tables, r.log ++ [(request, .error error)]⟩ := by
  have hold : ∀ earlier key first result later,
      FirstSuccess (r.log ++ [(request, .error error)]) earlier key first result later →
        ∃ later', later = later' ++ [(request, .error error)] ∧
          FirstSuccess r.log earlier key first result later' := by
    intro earlier key first result later hfst
    rcases hfst.snoc with hold | ⟨-, -, heq⟩
    · exact hold
    · cases heq
  refine ⟨?_, ?_, ?_⟩
  · intro key hun
    exact h.unused key fun call hcall' => hun call (List.mem_append_left _ hcall')
  · intro earlier key first result later hfst
    obtain ⟨later', -, hfst'⟩ := hold earlier key first result later hfst
    exact h.first earlier key first result later' hfst'
  · intro earlier key first result later hfst
    obtain ⟨later', rfl, hfst'⟩ := hold earlier key first result later hfst
    obtain ⟨hcr, hjob, hlater⟩ := h.idempotent earlier key first result later' hfst'
    refine ⟨hcr, hjob, forall_mem_concat hlater ?_⟩
    have hrepeats := h.repeats hfst' request
    rwa [hcall] at hrepeats

/-- A call that succeeds, with what it does to the rows. -/
theorem Recorded.succeeded (h : Recorded r) {tables : RequestStore}
    (hun : r.EnvelopeUnused (.createCloudJob request))
    (hcall : r.tables.createCloudJob request = .ok (result, tables)) :
    Recorded ⟨tables, r.log ++ [(request, .ok result)]⟩ := by
  obtain ⟨hjobs, hrows⟩ := RequestStore.createCloudJob_keeps hcall
  have hlogged : ∀ earlier key first second later,
      FirstSuccess (r.log ++ [(request, .ok result)]) earlier key first second later →
        second.isCreated = true ∧ tables.jobs.contains second.jobId = true ∧
          tables.idempotencyRequests.get? key =
            some ⟨first.requestHash, second.jobId, first.now + idempotencyWindow⟩ ∧
          ∀ call ∈ later, Repeats key first second call := by
    intro earlier key first second later hfst
    rcases hfst.snoc with ⟨later', rfl, hfst'⟩ | ⟨rfl, rfl, heq⟩
    · obtain ⟨hcr', hjob, hlater⟩ := h.idempotent earlier key first second later' hfst'
      have hrow := h.first earlier key first second later' hfst'
      refine ⟨hcr', hjobs _ hjob, hrows _ _ hrow, forall_mem_concat hlater ?_⟩
      have hrepeats := h.repeats hfst' request
      rwa [hcall] at hrepeats
    · cases heq
      have hnone := h.unused key hfst.first
      obtain ⟨h₁, h₂, h₃⟩ := RequestStore.createCloudJob_new_key hfst.keyed hnone
        (hun key hfst.keyed hnone) hcall
      exact ⟨h₁, h₂, h₃, by simp⟩
  refine ⟨?_, fun earlier key first second later hfst => ?_,
    fun earlier key first second later hfst => ?_⟩
  · intro key hnever
    have hne : request.idempotencyKey ≠ some key := fun hkey =>
      hnever (request, .ok result) (by simp) hkey result rfl
    have hold := h.unused key fun call hmem => hnever call (List.mem_append_left _ hmem)
    rcases RequestStore.createCloudJob_ok hcall with ⟨_, _, -, rfl, -⟩ | ⟨-, -, hcr⟩
    · exact hold
    · exact (hcr.others key hne).trans hold
  · exact (hlogged earlier key first second later hfst).2.2.1
  · obtain ⟨h₁, h₂, -, h₄⟩ := hlogged earlier key first second later hfst
    exact ⟨h₁, h₂, h₄⟩

variable {digest : String → String} {decodeBase64 : String → Option String}

theorem Recorded.step (h : Recorded r) {op : RequestOp} (hop : r.EnvelopeUnused op) :
    Recorded (r.step digest decodeBase64 op) := by
  cases op with
  | createCloudJob request =>
    show Recorded (match r.tables.createCloudJob request with
      | .ok (result, tables) => ⟨tables, r.log ++ [(request, .ok result)]⟩
      | .error error => ⟨r.tables, r.log ++ [(request, .error error)]⟩)
    split
    · next hcall => exact h.succeeded hop hcall
    · next hcall => exact h.failed hcall
  | server op =>
    refine ⟨h.unused, h.first, fun earlier key request result later hfst => ?_⟩
    obtain ⟨hcr, hjob, hlater⟩ := h.idempotent earlier key request result later hfst
    obtain ⟨job, hjob'⟩ := Option.isSome_iff_exists.mp hjob
    obtain ⟨job', hkept, -⟩ :=
      PostgresStore.keepsJobs_serve digest decodeBase64 r.tables.toPostgresStore op _ job hjob'
    exact ⟨hcr, Option.isSome_iff_exists.mpr ⟨job', hkept⟩, hlater⟩

/-- **Creating a job is idempotent**: if no call with a new key brings an envelope
that is consumed already, then the calls with one key create one job, and those
in the window of the first success return that job, or a conflict where the
request is another.  After the window a request is treated as a new one just if
its key was never recorded. -/
theorem job_creation_idempotent (digest : String → String) (decodeBase64 : String → Option String)
    (ops : List RequestOp) (h : Run.Meets (step digest decodeBase64) EnvelopeUnused initial ops) :
    (run digest decodeBase64 ops).Idempotent ∧
      ∀ (request : CreateJob) (key : String) (fresh : RequestStore),
        request.idempotencyKey = some key →
        (run digest decodeBase64 ops).tables.Lapsed request.now key →
        ((run digest decodeBase64 ops).tables.forget key).createCloudJob request =
          .ok (.created request.jobId request.row, fresh) →
        ((∃ tables, (run digest decodeBase64 ops).tables.createCloudJob request =
            .ok (.created request.jobId request.row, tables)) ↔
          (run digest decodeBase64 ops).tables.idempotencyRequests.get? key = none) :=
  ⟨(Run.Meets.invariant (P := Recorded) (fun _ _ hr hop => hr.step hop) recorded_initial
      h).idempotent,
    fun _ _ _ hkey => RequestStore.creates_after_window_iff hkey⟩

/-! ### A key that is used again -/

/-- A request with a key, for a document that is not encrypted. -/
def sample (jobId : String) (hours : Int) (requestHash : String) : CreateJob where
  jobId := jobId
  agentId := "agent"
  destinationRoute := none
  content := .uri
  manifest := none
  state := .registered
  createdAt := hours * 3600 * 10 ^ 9
  expiresAt := (hours + 48) * 3600 * 10 ^ 9
  idempotencyKey := some "order-17"
  requestHash := requestHash
  now := hours * 3600 * 10 ^ 9
  refusal := none
  admissibleRecipient := false
  encrypted := rfl

/-- The request is repeated, and another one is made with its key. -/
def repeated : List RequestOp :=
  [.createCloudJob (sample "job-1" 0 "a"), .createCloudJob (sample "job-2" 1 "a"),
    .createCloudJob (sample "job-3" 2 "b")]

theorem job_creation_idempotent_repeated :
    Run.Meets (step id fun _ => none) EnvelopeUnused initial repeated ∧
      (run id (fun _ => none) repeated).Idempotent :=
  have h : Run.Meets (step id fun _ => none) EnvelopeUnused initial repeated := by
    refine ⟨?_, ?_, ?_, trivial⟩ <;> intro _ _ _ manifest hman <;> cases hman
  ⟨h, (job_creation_idempotent id (fun _ => none) repeated h).1⟩

/-- A day later the key is no longer looked up, but its row is still there. -/
theorem expired_key_not_reusable :
    let tables := (run id (fun _ => none) repeated).tables
    tables.Lapsed (sample "job-4" 25 "a").now "order-17" ∧
      ((tables.forget "order-17").createCloudJob (sample "job-4" 25 "a")).map Prod.fst =
        .ok (.created "job-4" (sample "job-4" 25 "a").row) ∧
      (tables.createCloudJob (sample "job-4" 25 "a")).map Prod.fst = .error .database := by
  refine ⟨?_, by decide +kernel, by decide +kernel⟩
  intro row hrow
  have hfound : (run id (fun _ => none) repeated).tables.idempotencyRequests.get? "order-17" =
      some ⟨"a", "job-1", idempotencyWindow⟩ := by decide +kernel
  rw [hfound] at hrow
  cases hrow
  decide

end Requests

end Piqae.Server
