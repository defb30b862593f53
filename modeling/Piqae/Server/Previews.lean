/-
Piqae/Server/Previews.lean

The approval of a document preview.  An approval is three repository calls of
one handler: the preview is put into `approving` under the idempotency key
and the digest of the request, a job is created under the same key, and the
preview becomes `approved` with that job.  The handler may stop after any of
them, and any number of handlers run at once; here a handler that was begun
is kept in a list, and each of its further calls is a step of its own.

No two jobs are created for a preview: a job takes a key of
`idempotency_requests`, which nothing gives back, and a preview has one key.
But `approving` is left only by the request that entered it.  Cancellation
and expiry are for `awaiting_approval`, and every other key or request is
refused.  So if the job of that one request cannot be created, the preview
stays in `approving` for ever, and the clean-up keeps its artifact.  As long as
this does not happen (`Clear`), the preview stays open.
-/
import Piqae.Base
import Piqae.Lib.Run

namespace Piqae.Server.Previews

inductive PreviewState where
  | awaitingApproval
  | approving
  | approved
  | cancelled
  | expired
  deriving DecidableEq, Repr

structure StoredDocumentPreview where
  state : PreviewState
  renderId : String
  expiresAt : Int
  approvalIdempotencyKey : Option String
  approvalRequestSha256 : Option String
  jobId : Option String
  deriving DecidableEq, Repr

inductive StorageError where
  | idempotencyConflict
  | concurrentStateChange
  | database
  | refused
  deriving DecidableEq, Repr

/-- A row of `idempotency_requests`; the request of a print is that of a render. -/
structure IdempotencyRequestRow where
  request : String × String
  resourceId : String
  expiresAt : Int
  deriving DecidableEq, Repr

/-- A handler of `approve_preview` that has begun: its key and request, and its job once it has
one. -/
structure Handler where
  key : String
  request : String
  job : Option String
  deriving DecidableEq, Repr

structure Store where
  preview : StoredDocumentPreview
  idempotencyRequests : String → Option IdempotencyRequestRow
  /-- The requests that a job is refused for now, whatever the reason. -/
  refuses : List String
  handlers : List Handler
  /-- The jobs that were created for the preview. -/
  jobs : List String
  now : Int

namespace Store

variable (s : Store)

/-! ### The repository calls -/

/-- A preview that waits for its approval expires when it is looked at. -/
def expire : Store :=
  if s.preview.state = .awaitingApproval ∧ s.preview.expiresAt ≤ s.now then
    { s with preview := { s.preview with state := .expired } }
  else s

def getDocumentPreview : Store := s.expire

def beginDocumentPreviewApproval (key request : String) : Except StorageError Store :=
  let s := s.expire
  match s.preview.state with
  | .awaitingApproval => .ok { s with preview := { s.preview with
      state := .approving
      approvalIdempotencyKey := some key
      approvalRequestSha256 := some request } }
  | .approving | .approved =>
    if s.preview.approvalIdempotencyKey = some key ∧
        s.preview.approvalRequestSha256 = some request then .ok s
    else .error .idempotencyConflict
  | .cancelled | .expired => .error .concurrentStateChange

def completeDocumentPreviewApproval (key jobId : String) : Except StorageError Store :=
  if s.preview.state = .approving ∧ s.preview.approvalIdempotencyKey = some key then
    .ok { s with preview := { s.preview with state := .approved, jobId := some jobId } }
  else
    let current := s.getDocumentPreview
    if current.preview.state = .approved ∧ current.preview.jobId = some jobId then .ok current
    else .error .concurrentStateChange

/-- The refused cancellation has looked at the preview, too. -/
def cancelDocumentPreview : Store :=
  if s.preview.state = .awaitingApproval ∧ s.now < s.preview.expiresAt then
    { s with preview := { s.preview with state := .cancelled } }
  else s.getDocumentPreview

/-- `create_cloud_job`, with what comes before it in `print_render`: the job of the key, whether it
is a new one, and the store.  The primary key of the table does not know about expiry. -/
def createCloudJob (key : String) (request : String × String) (jobId : String) :
    Except StorageError (String × Bool × Store) :=
  if request.2 ∈ s.refuses then .error .refused
  else match s.idempotencyRequests key with
    | some row =>
      if ¬s.now < row.expiresAt then .error .database
      else if row.request = request then .ok (row.resourceId, false, s)
      else .error .idempotencyConflict
    | none =>
      let row : IdempotencyRequestRow := ⟨request, jobId, s.now + 24 * 60 * 60⟩
      .ok (jobId, true, { s with
        idempotencyRequests := fun other =>
          if other = key then some row else s.idempotencyRequests other })

/-- `claim_expired_document_artifacts` passes over the render of the preview. -/
def retainsArtifact : Bool :=
  s.preview.state = .approving ∨ (s.preview.state = .awaitingApproval ∧ s.now < s.preview.expiresAt)

end Store

/-! ### The system -/

inductive Op where
  /-- The calls of a handler of `approve_preview`; `jobId` is generated. -/
  | begin (key request : String)
  | print (handler : Nat) (jobId : String)
  | complete (handler : Nat)
  | cancel
  | get
  /-- Another request creates a job. -/
  | otherJob (key : String) (request : String × String) (jobId : String)
  /-- Destinations, specifications and billing change. -/
  | refuse (requests : List String)
  | wait (seconds : Nat)
  deriving DecidableEq, Repr

def beginStep (s : Store) (key request : String) : Store :=
  match s.beginDocumentPreviewApproval key request with
  | .error _ => s
  | .ok t => { t with handlers := t.handlers ++ [⟨key, request, none⟩] }

/-- The print of a handler, which counts as a job of the preview when it is a new one. -/
def printStep (s : Store) (index : Nat) (jobId : String) : Store :=
  match s.handlers[index]? with
  | none => s
  | some handler =>
    match s.createCloudJob handler.key (s.preview.renderId, handler.request) jobId with
    | .error _ => s
    | .ok (job, created, t) => { t with
        handlers := t.handlers.set index { handler with job := some job }
        jobs := if created then job :: t.jobs else t.jobs }

/-- A refused completion has looked at the preview, too. -/
def completeStep (s : Store) (index : Nat) : Store :=
  match s.handlers[index]? with
  | some ⟨key, _, some job⟩ =>
    match s.completeDocumentPreviewApproval key job with
    | .error _ => s.getDocumentPreview
    | .ok t => t
  | _ => s

def otherJobStep (s : Store) (key : String) (request : String × String) (jobId : String) : Store :=
  match s.createCloudJob key request jobId with
  | .error _ => s
  | .ok (_, _, t) => t

def step (s : Store) : Op → Store
  | .begin key request => beginStep s key request
  | .print index jobId => printStep s index jobId
  | .complete index => completeStep s index
  | .cancel => s.cancelDocumentPreview
  | .get => s.getDocumentPreview
  | .otherJob key request jobId => otherJobStep s key request jobId
  | .refuse requests => { s with refuses := requests }
  | .wait seconds => { s with now := s.now + seconds }

/-- `approve_preview` without an interruption: the preview becomes approved. -/
def Approves (s : Store) (key request jobId : String) : Prop :=
  ∃ t u v job created, s.beginDocumentPreviewApproval key request = .ok t ∧
    t.createCloudJob key (t.preview.renderId, request) jobId = .ok (job, created, u) ∧
    u.completeDocumentPreviewApproval key job = .ok v ∧ v.preview.state = .approved

/-- The preview is approved or can be, can be cancelled, or expires in time and then no longer keeps
its artifact. -/
def Open (s : Store) : Prop :=
  s.preview.state = .approved ∨ (∃ key request jobId, Approves s key request jobId) ∨
    s.cancelDocumentPreview.preview.state = .cancelled ∨
    ∃ seconds : Nat, ({ s with now := s.now + seconds } : Store).expire.preview.state = .expired ∧
      ({ s with now := s.now + seconds } : Store).expire.retainsArtifact = false

/-- The approval that is under way has no job yet. -/
def Store.pending (s : Store) : Prop := s.preview.state = .approving ∧ s.jobs = []

/-- An approval begins under a key that was not used for a job, and with a request that no job is
refused for; and until it has its job, nothing else takes the key and the request stays
acceptable. -/
def Clear (s : Store) : Op → Prop
  | .begin key request =>
    s.preview.state = .awaitingApproval → s.idempotencyRequests key = none ∧ request ∉ s.refuses
  | .otherJob key _ _ => s.pending → s.preview.approvalIdempotencyKey ≠ some key
  | .refuse requests =>
    s.pending → ∀ request ∈ s.preview.approvalRequestSha256, request ∉ requests
  | _ => True

instance (s : Store) : Decidable s.pending := inferInstanceAs (Decidable (_ ∧ _))

instance (s : Store) (op : Op) : Decidable (Clear s op) := by
  cases op <;> unfold Clear <;> infer_instance

/-! ### The invariant -/

variable {s t : Store} {key request : String} {handler : Handler} {jobId : String}

/-- The preview is being approved, or was, by the request. -/
structure Held (preview : StoredDocumentPreview) (key request : String) : Prop where
  state : preview.state = .approving ∨ preview.state = .approved
  key : preview.approvalIdempotencyKey = some key
  request : preview.approvalRequestSha256 = some request

/-- All handlers are of the request that holds the preview; a job of the preview has taken the key
of that request, and without one both the key and the request are free if the steps were clear. -/
structure Sound (clear : Prop) (s : Store) : Prop where
  begun : ∀ handler ∈ s.handlers, Held s.preview handler.key handler.request
  once : s.jobs.length ≤ 1
  taken : s.jobs ≠ [] → ∃ key request, Held s.preview key request ∧ s.idempotencyRequests key ≠ none
  held : s.preview.state = .approving → ∃ key request, Held s.preview key request
  free : clear → s.pending → ∀ key request, Held s.preview key request →
    s.idempotencyRequests key = none ∧ request ∉ s.refuses

namespace Sound

section

variable {clear : Prop} (h : Sound clear s)

include h

/-- Before an approval there are no handlers and no jobs. -/
theorem untouched (hawt : s.preview.state = .awaitingApproval) : s.handlers = [] ∧ s.jobs = [] := by
  constructor
  · apply List.eq_nil_iff_forall_not_mem.mpr
    intro handler hmem
    simpa [hawt] using (h.begun handler hmem).state
  · by_contra hjobs
    obtain ⟨key, request, hheld, -⟩ := h.taken hjobs
    simpa [hawt] using hheld.state

/-- A preview that waits for its approval leaves that state, but not by an approval. -/
theorem leave (hawt : s.preview.state = .awaitingApproval) {preview : StoredDocumentPreview}
    (hst : preview.state ≠ .approving) : Sound clear { s with preview := preview } := by
  obtain ⟨hhrs, hjobs⟩ := h.untouched hawt
  refine ⟨?_, h.once, fun hne => absurd hjobs hne, fun happ => absurd happ hst,
    fun _ hpend => absurd hpend.1 hst⟩
  intro handler hmem
  simp [hhrs] at hmem

theorem expire : Sound clear s.expire := by
  unfold Store.expire
  split
  · next hcase => exact h.leave hcase.1 (by simp)
  · exact h

theorem cancelDocumentPreview : Sound clear s.cancelDocumentPreview := by
  unfold Store.cancelDocumentPreview
  split
  · next hcase => exact h.leave hcase.1 (by simp)
  · exact h.expire

omit h in
theorem expire_of_ne (hst : s.preview.state ≠ .awaitingApproval) : s.expire = s :=
  if_neg fun hcase => hst hcase.1

theorem beginStep (hclear : clear → Clear s (.begin key request)) :
    Sound clear (beginStep s key request) := by
  unfold Previews.beginStep
  split
  · exact h
  rename_i t hbeg
  unfold Store.beginDocumentPreviewApproval at hbeg
  dsimp only at hbeg
  -- A preview that is held by the request gets one more handler.
  have hagain : Sound clear s.expire → Held s.expire.preview key request →
      Sound clear { s.expire with handlers := s.expire.handlers ++ [⟨key, request, none⟩] } := by
    intro hexpire hheld
    exact { hexpire with begun := forall_mem_concat hexpire.begun hheld }
  split at hbeg
  · -- The preview was waiting, and is taken by the request.
    rename_i hawt
    cases hbeg
    have hsame : s.expire = s := by
      unfold Store.expire at hawt ⊢
      split_ifs at hawt
      · next hcase => exact if_neg hcase
    rw [hsame] at hawt ⊢
    obtain ⟨hhrs, hjobs⟩ := h.untouched hawt
    refine ⟨?_, h.once, fun hne => absurd hjobs hne,
      fun _ => ⟨key, request, .inl rfl, rfl, rfl⟩, ?_⟩
    · intro handler hmem
      simp only [hhrs, List.nil_append, List.mem_singleton] at hmem
      subst hmem
      exact ⟨.inl rfl, rfl, rfl⟩
    · intro hc _ other request' hheld
      obtain rfl : key = other := Option.some.inj hheld.key
      obtain rfl : request = request' := Option.some.inj hheld.request
      exact hclear hc hawt
  · rename_i hst
    split_ifs at hbeg with hsame
    cases hbeg
    exact hagain h.expire ⟨.inl hst, hsame.1, hsame.2⟩
  · rename_i hst
    split_ifs at hbeg with hsame
    cases hbeg
    exact hagain h.expire ⟨.inr hst, hsame.1, hsame.2⟩
  · cases hbeg
  · cases hbeg

variable {print : String × String}

omit h in
/-- What the creation of a job does to the store. -/
theorem createCloudJob_ok {job : String} {created : Bool}
    (h : s.createCloudJob key print jobId = .ok (job, created, t)) :
    (created = false ∧ t = s) ∨ (created = true ∧ s.idempotencyRequests key = none ∧
      ∃ row, t = { s with idempotencyRequests := fun other =>
        if other = key then some row else s.idempotencyRequests other }) := by
  unfold Store.createCloudJob at h
  split_ifs at h
  split at h
  · split_ifs at h
    cases h
    exact .inl ⟨rfl, rfl⟩
  · next hnone =>
    cases h
    exact .inr ⟨rfl, hnone, _, rfl⟩

theorem printStep (index : Nat) (jobId : String) : Sound clear (printStep s index jobId) := by
  unfold Previews.printStep
  split
  · exact h
  rename_i handler hhr
  have hheld := h.begun handler (List.mem_of_getElem? hhr)
  split
  · exact h
  rename_i job created t hcr
  have hbegun : ∀ other ∈ s.handlers.set index { handler with job := some job },
      Held s.preview other.key other.request := by
    intro other hother
    rcases List.mem_or_eq_of_mem_set hother with hmem | rfl
    · exact h.begun other hmem
    · exact hheld
  rcases createCloudJob_ok hcr with ⟨rfl, rfl⟩ | ⟨rfl, hnone, row, rfl⟩
  · exact { h with begun := hbegun }
  · -- The key was free, so that this is the first job.
    have hjobs : s.jobs = [] := by
      by_contra hne
      obtain ⟨key, request, hother, htaken⟩ := h.taken hne
      obtain rfl : handler.key = key := Option.some.inj (hheld.key.symm.trans hother.key)
      exact htaken hnone
    refine ⟨hbegun, ?_, ?_, h.held, ?_⟩
    · simp [hjobs]
    · exact fun _ => ⟨handler.key, handler.request, hheld, by simp⟩
    · rintro - ⟨-, hemp⟩
      simp at hemp

theorem completeStep (index : Nat) : Sound clear (completeStep s index) := by
  unfold Previews.completeStep
  split
  · rename_i key request job hhr
    split
    · exact h.expire
    rename_i t hcomp
    unfold Store.completeDocumentPreviewApproval at hcomp
    dsimp only at hcomp
    split_ifs at hcomp with happ hsame
    · cases hcomp
      refine ⟨?_, h.once, ?_, nofun, fun _ hpend => nomatch hpend.1⟩
      · intro handler hmem
        have hheld := h.begun handler hmem
        exact ⟨.inr rfl, hheld.key, hheld.request⟩
      · intro hjobs
        obtain ⟨key, request, hheld, htaken⟩ := h.taken hjobs
        exact ⟨key, request, ⟨.inr rfl, hheld.key, hheld.request⟩, htaken⟩
    · cases hcomp
      exact h.expire
  · exact h

theorem otherJobStep (hclear : clear → Clear s (.otherJob key print jobId)) :
    Sound clear (otherJobStep s key print jobId) := by
  unfold Previews.otherJobStep
  split
  · exact h
  rename_i job created t hcr
  rcases createCloudJob_ok hcr with ⟨-, rfl⟩ | ⟨-, hnone, row, rfl⟩
  · exact h
  refine ⟨h.begun, h.once, ?_, h.held, ?_⟩
  · intro hjobs
    obtain ⟨other, request, hheld, htaken⟩ := h.taken hjobs
    refine ⟨other, request, hheld, ?_⟩
    show (if other = key then some row else s.idempotencyRequests other) ≠ none
    split
    · simp
    · exact htaken
  · intro hc hpend other request hheld
    have hne : other ≠ key := fun heq => hclear hc hpend (hheld.key.trans (congrArg some heq))
    obtain ⟨hfree, hacc⟩ := h.free hc hpend other request hheld
    exact ⟨(if_neg hne).trans hfree, hacc⟩

theorem step {op : Op} (hclear : clear → Clear s op) : Sound clear (step s op) := by
  cases op with
  | begin => exact h.beginStep hclear
  | print index jobId => exact h.printStep index jobId
  | complete index => exact h.completeStep index
  | cancel => exact h.cancelDocumentPreview
  | get => exact h.expire
  | otherJob => exact h.otherJobStep hclear
  | refuse =>
    refine { h with free := ?_ }
    intro hc hpend key request hheld
    exact ⟨(h.free hc hpend key request hheld).1, hclear hc hpend request hheld.request⟩
  | wait seconds => exact { h with }

/-- An approval without a job can be finished by its own request. -/
theorem approves (hc : clear) (jobId : String) (happ : s.preview.state = .approving)
    (hjobs : s.jobs = []) : ∃ key request, Approves s key request jobId := by
  obtain ⟨key, request, hheld⟩ := h.held happ
  obtain ⟨hfree, hacc⟩ := h.free hc ⟨happ, hjobs⟩ key request hheld
  have hexpire : s.expire = s := expire_of_ne (by simp [happ])
  have hbeg : s.beginDocumentPreviewApproval key request = .ok s := by
    simp [Store.beginDocumentPreviewApproval, hexpire, happ, hheld.key, hheld.request]
  obtain ⟨u, hcr, hprev⟩ : ∃ u : Store,
      s.createCloudJob key (s.preview.renderId, request) jobId = .ok (jobId, true, u) ∧
        u.preview = s.preview := by
    unfold Store.createCloudJob
    rw [if_neg hacc, hfree]
    exact ⟨_, rfl, rfl⟩
  have hcomp : u.completeDocumentPreviewApproval key jobId = .ok { u with
      preview := { u.preview with state := .approved, jobId := some jobId } } :=
    if_pos (by rw [hprev]; exact ⟨happ, hheld.key⟩)
  exact ⟨key, request, s, u, _, jobId, true, hbeg, hcr, hcomp, rfl⟩

theorem open_of_jobs_eq_nil (hc : clear) (hjobs : s.jobs = []) : Open s := by
  rcases hst : s.preview.state with _ | _ | _ | _ | _
  · -- It expires by itself when its lifetime has passed.
    refine .inr (.inr (.inr ⟨(s.preview.expiresAt - s.now).toNat, ?_⟩))
    have hpast : s.preview.expiresAt ≤ s.now + ((s.preview.expiresAt - s.now).toNat : Int) := by
      omega
    unfold Store.expire
    rw [if_pos ⟨hst, hpast⟩]
    exact ⟨rfl, by simp [Store.retainsArtifact]⟩
  · obtain ⟨key, request, happroves⟩ := h.approves hc "" hst hjobs
    exact .inr (.inl ⟨key, request, "", happroves⟩)
  · exact .inl hst
  · refine .inr (.inr (.inl ?_))
    unfold Store.cancelDocumentPreview Store.getDocumentPreview
    rw [if_neg (by simp [hst]), expire_of_ne (by simp [hst]), hst]
  · refine .inr (.inr (.inr ⟨0, ?_⟩))
    rw [expire_of_ne (by simp [hst])]
    exact ⟨hst, by simp [Store.retainsArtifact, hst]⟩

end

end Sound

/-! ### Main result -/

/-- The stored preview has just been created. -/
structure Initial (s : Store) : Prop where
  state : s.preview.state = .awaitingApproval
  handlers : s.handlers = []
  jobs : s.jobs = []

theorem Initial.sound {clear : Prop} (h : Initial s) : Sound clear s := by
  refine ⟨?_, by simp [h.jobs], fun hne => absurd h.jobs hne, ?_, ?_⟩
  · simp [h.handlers]
  · simp [h.state]
  · simp [Store.pending, h.state]

/-- In every run at most one job is created for the preview; and without one it stays open, if the
steps are clear. -/
theorem previews_stay_open (h : Initial s) (ops : List Op) :
    (Run.exec step s ops).jobs.length ≤ 1 ∧
      (Run.Meets step Clear s ops → (Run.exec step s ops).jobs = [] →
        Open (Run.exec step s ops)) := by
  constructor
  · -- only the part of the invariant about the key and the request needs clear steps
    have hany : Run.Meets step (fun _ _ => True) s ops :=
      Run.meets_of_forall (fun _ _ _ => trivial) s
    have hsound : Sound False (Run.exec step s ops) :=
      hany.invariant (fun _ _ hs _ => hs.step False.elim) h.sound
    exact hsound.once
  · intro hops
    have hsound : Sound True (Run.exec step s ops) :=
      hops.invariant (fun _ _ hs hclear => hs.step fun _ => hclear) h.sound
    exact hsound.open_of_jobs_eq_nil trivial

namespace Sample

def preview : StoredDocumentPreview :=
  ⟨.awaitingApproval, "render", 1800, none, none, none⟩

/-- The key `"monday"` was used for a print of another document. -/
def store : Store where
  preview := preview
  idempotencyRequests key :=
    if key = "monday" then some ⟨("invoice", "a"), "job-1", 86400⟩ else none
  refuses := ["stale revision"]
  handlers := []
  jobs := []
  now := 0

/-- A handler stops after its first call; the request is made again and prints. -/
def ops : List Op :=
  [.begin "tuesday" "a", .wait 3600, .cancel, .begin "wednesday" "a", .begin "tuesday" "a",
    .print 1 "job-2", .complete 1, .get]

end Sample

open Sample

theorem previews_stay_open_retried : (Run.exec step store ops).jobs.length ≤ 1 ∧
      ((Run.exec step store ops).jobs = [] → Open (Run.exec step store ops)) :=
  (previews_stay_open ⟨rfl, rfl, rfl⟩ ops).imp_right (· (by decide +kernel))

/-- What a preview is while the key of its approval belongs to a job of another document. -/
structure Wedged (key : String) (s : Store) : Prop where
  state : s.preview.state = .approving
  holder : s.preview.approvalIdempotencyKey = some key
  other : ∃ row, s.idempotencyRequests key = some row ∧ row.request.1 ≠ s.preview.renderId
  waiting : ∀ handler ∈ s.handlers, handler.key = key ∧ handler.job = none
  jobs : s.jobs = []

namespace Wedged

theorem expire_eq (h : Wedged key s) : s.expire = s :=
  Sound.expire_of_ne (by simp [h.state])

theorem begin_ok {other : String} (h : Wedged key s)
    (hbeg : s.beginDocumentPreviewApproval other request = .ok t) : key = other ∧ t = s := by
  simp only [Store.beginDocumentPreviewApproval, h.expire_eq, h.state, h.holder] at hbeg
  split_ifs at hbeg with hsame
  cases hbeg
  exact ⟨Option.some.inj hsame.1, rfl⟩

/-- The key does not get the preview a job, whatever the request. -/
theorem createCloudJob_ne_ok (h : Wedged key s) (result : String × Bool × Store) :
    s.createCloudJob key (s.preview.renderId, request) jobId ≠ .ok result := by
  obtain ⟨row, hrow, hother⟩ := h.other
  have hne : row.request ≠ (s.preview.renderId, request) :=
    fun heq => hother (congrArg Prod.fst heq)
  unfold Store.createCloudJob
  rw [hrow]
  simp only [hne, if_false]
  split_ifs <;> simp

theorem not_open (h : Wedged key s) : ¬Open s := by
  rintro (happroved | ⟨other, request, jobId, t, u, v, job, created, hbeg, hcr, -⟩ |
    hcan | ⟨seconds, hexp, -⟩)
  · simp [h.state] at happroved
  · obtain ⟨rfl, rfl⟩ := h.begin_ok hbeg
    exact h.createCloudJob_ne_ok _ hcr
  · simp [Store.cancelDocumentPreview, Store.getDocumentPreview, h.expire_eq, h.state] at hcan
  · rw [Sound.expire_of_ne (by simp [h.state])] at hexp
    simp [h.state] at hexp

/-- No step gets the preview out of it. -/
theorem step (h : Wedged key s) (op : Op) : Wedged key (step s op) := by
  cases op with
  | begin other request =>
    show Wedged key (beginStep s other request)
    unfold beginStep
    split
    · exact h
    · next t hbeg =>
      obtain ⟨rfl, rfl⟩ := h.begin_ok hbeg
      exact { h with waiting := forall_mem_concat h.waiting ⟨rfl, rfl⟩ }
  | print index jobId =>
    show Wedged key (printStep s index jobId)
    unfold printStep
    split
    · exact h
    · next handler hhr =>
      obtain ⟨rfl, -⟩ := h.waiting handler (List.mem_of_getElem? hhr)
      split
      · exact h
      · next hcr => exact absurd hcr (h.createCloudJob_ne_ok _)
  | complete index =>
    show Wedged key (completeStep s index)
    unfold completeStep
    split
    · next hhr => cases (h.waiting _ (List.mem_of_getElem? hhr)).2
    · exact h
  | cancel =>
    have hsame : s.cancelDocumentPreview = s := by
      unfold Store.cancelDocumentPreview
      rw [if_neg (by simp [h.state])]
      exact h.expire_eq
    show Wedged key s.cancelDocumentPreview
    rwa [hsame]
  | get =>
    show Wedged key s.expire
    rwa [h.expire_eq]
  | otherJob other print jobId =>
    show Wedged key (otherJobStep s other print jobId)
    unfold otherJobStep
    split
    · exact h
    · next hcr =>
      rcases Sound.createCloudJob_ok hcr with ⟨-, rfl⟩ | ⟨-, hnone, row, rfl⟩
      · exact h
      · obtain ⟨taken, htaken, hother⟩ := h.other
        have hne : key ≠ other := by
          rintro rfl
          simp [hnone] at htaken
        exact { h with other := ⟨taken, (if_neg hne).trans htaken, hother⟩ }
  | _ => exact { h with }

theorem exec (h : Wedged key s) (ops : List Op) : Wedged key (Run.exec Previews.step s ops) := by
  induction ops generalizing s with
  | nil => exact h
  | cons op ops ih => exact ih (h.step op)

end Wedged

/-- The approval with a key of another print leaves the preview in `approving` for ever. -/
theorem approval_wedged : store.preview.state = .awaitingApproval ∧ ∀ ops : List Op,
    let s := Run.exec step (step store (.begin "monday" "b")) ops
    s.jobs = [] ∧ ¬Open s ∧ s.retainsArtifact = true := by
  refine ⟨rfl, ?_⟩
  intro ops s
  have h : Wedged "monday" (step store (.begin "monday" "b")) :=
    ⟨by decide +kernel, by decide +kernel, ⟨_, rfl, by decide +kernel⟩, by decide +kernel,
      by decide +kernel⟩
  have hwedged := h.exec ops
  exact ⟨hwedged.jobs, hwedged.not_open, by simp [s, Store.retainsArtifact, hwedged.state]⟩

end Piqae.Server.Previews
