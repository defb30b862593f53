/-
Piqae/Server/RenderResources.lean

The resources of documents on the server: their rows in the database and their
bytes in the object store (`documents.rs`, `document_render_worker.rs` and the
tables of `storage-postgres`).

Every repository call and every call of the object store is one action, and may
fail without an effect.  An upload stores the object and then the row; a clean-up
pass claims rows, and deletes the object and then the row of each.  Neither looks
at the other store again, so that a row can be active without its object.
`Disciplined` asks for what the token of a claimed row stands for: it is still there
when the object is deleted, and no render is linked to a claimed row; and no object
is deleted between the two steps of an upload.
-/
import Piqae.Base
import Piqae.Lib.Pool

namespace Piqae.Server.RenderResources

abbrev Bytes := List UInt8

/-- A digest in a workspace and environment. -/
structure Key where
  tenant : String
  digest : String
deriving DecidableEq, Repr

inductive CleanupState
  | active
  | expiring
deriving DecidableEq, Repr

structure Resource where
  key : Key
  mediaType : String
  byteLength : Nat
  expiresAt : Int
  cleanupState : CleanupState
  cleanupLeaseUntil : Option Int
  cleanupLeaseToken : Option Nat
deriving DecidableEq, Repr

structure Render where
  tenant : String
  id : String
  idempotencyKey : String
  requestSha256 : String
  preview : Bool
  expired : Bool
deriving DecidableEq, Repr

/-- A render that needs a resource. -/
structure Reference where
  key : Key
  renderId : String
deriving DecidableEq, Repr

/-- The database, the object store and the clock of the database. -/
structure Store where
  resources : List Resource
  renders : List Render
  references : List Reference
  objects : Key → Option Bytes
  now : Int
  /-- The lease tokens that were generated. -/
  tokens : Nat
  /-- The uploads whose object is stored and not yet registered; no call reads them. -/
  uploads : List (Nat × Key)

inductive AppError
  | invalid (code : String)
  | serviceUnavailable (code : String)
  | notFound
  | idempotencyConflict
  | concurrentStateChange
  | database
deriving DecidableEq, Repr

inductive Label
  | plain
  /-- A render uses these resources. -/
  | link (keys : List Key)
  /-- A clean-up pass deletes the object of a row that it has claimed. -/
  | delete (key : Key) (token : Nat)
  /-- An upload that is not registered deletes its object. -/
  | discard (key : Key)
deriving DecidableEq

/-- Whether a call succeeds. -/
abbrev Prog := Process Label Bool Store AppError

def thirtyDays : Int := 30 * 24 * 60 * 60

/-! ### The tables -/

namespace Store

variable (s : Store)

/-- Use a resource again. -/
def activate (row : Resource) : Resource :=
  { row with
    expiresAt := max row.expiresAt (s.now + thirtyDays)
    cleanupState := .active
    cleanupLeaseUntil := none
    cleanupLeaseToken := none }

def registerPrintpacketResource (key : Key) (mediaType : String) (byteLength : Nat) :
    Except AppError Unit × Store :=
  match s.resources.find? (·.key = key) with
  | none => (.ok (), { s with resources := s.resources ++
      [⟨key, mediaType, byteLength, s.now + thirtyDays, .active, none, none⟩] })
  | some row =>
    if row.mediaType = mediaType ∧ row.byteLength = byteLength then
      (.ok (), { s with resources := s.resources.map fun row =>
        if row.key = key then s.activate row else row })
    else (.error .idempotencyConflict, s)

/-- The references of a render and the use of its resources. -/
def link (tenant renderId : String) (digests : List String) : Store :=
  { s with
    references := s.references ++ (digests.map fun digest => ⟨⟨tenant, digest⟩, renderId⟩).filter
      (· ∉ s.references)
    resources := s.resources.map fun row =>
      if row.key.tenant = tenant ∧ row.key.digest ∈ digests then s.activate row else row }

def hasResources (tenant : String) (digests : List String) : Bool :=
  digests.all fun digest => s.resources.any (·.key = ⟨tenant, digest⟩)

/-- The foreign keys of the references need the render and the resources. -/
def linkPrintpacketRenderResources (tenant renderId : String) (digests : List String) :
    Except AppError Unit × Store :=
  if digests = [] ∨ (s.renders.any (fun r => r.tenant = tenant && r.id = renderId)
      ∧ s.hasResources tenant digests) then (.ok (), s.link tenant renderId digests)
  else (.error .database, s)

def registerDocumentRender (render : Render) : Except AppError Render × Store :=
  match s.renders.find? fun row =>
      row.tenant = render.tenant && row.idempotencyKey = render.idempotencyKey with
  | none => (.ok render, { s with renders := s.renders ++ [render] })
  | some row =>
    if row.requestSha256 = render.requestSha256 ∧ (render.preview → row.preview) then (.ok row, s)
    else (.error .idempotencyConflict, s)

theorem registerDocumentRender_renders (render : Render) :
    ∃ renders, (s.registerDocumentRender render).2 = { s with renders := renders } := by
  unfold registerDocumentRender
  split
  · exact ⟨_, rfl⟩
  · split_ifs
    iterate 2 exact ⟨s.renders, rfl⟩

/-- One transaction: a render whose resources are not all there is not registered. -/
def registerPreviewDocumentRender (render : Render) (digests : List String) :
    Except AppError Render × Store :=
  match s.registerDocumentRender { render with preview := true } with
  | (.error error, _) => (.error error, s)
  | (.ok row, s') =>
    if s.hasResources render.tenant digests then
      (.ok row, s'.link render.tenant row.id digests)
    else (.error .notFound, s)

/-- The references without those of expired renders. -/
def liveReferences : List Reference :=
  s.references.filter fun reference => !s.renders.any fun render =>
    render.tenant = reference.key.tenant && render.id = reference.renderId && render.expired

def expiredResources (limit : Int) : List Key :=
  let candidates := s.resources.filter fun row =>
    row.expiresAt < s.now &&
      (row.cleanupState = .active || row.cleanupLeaseUntil.any (· < s.now)) &&
      !s.liveReferences.any (·.key = row.key)
  ((candidates.mergeSort fun a b => a.expiresAt ≤ b.expiresAt).map (·.key)).take
    (max 1 (min limit 100)).toNat

/-- The rows that are claimed, each with its token. -/
def claimExpiredPrintpacketResources (limit : Int) : List (Key × Nat) × Store :=
  let keys := s.expiredResources limit
  ((keys.zipIdx s.tokens), { s with
    references := s.liveReferences
    tokens := s.tokens + keys.length
    resources := s.resources.map fun row =>
      if row.key ∈ keys then { row with
        cleanupState := .expiring
        cleanupLeaseUntil := some (s.now + 300)
        cleanupLeaseToken := some (s.tokens + keys.idxOf row.key) }
      else row })

def completeExpiredPrintpacketResource (key : Key) (token : Nat) : Except AppError Unit × Store :=
  let deleted (row : Resource) : Bool :=
    row.key = key && row.cleanupState = .expiring && row.cleanupLeaseToken = some token &&
      !s.references.any (·.key = key)
  if s.resources.any deleted then
    (.ok (), { s with resources := s.resources.filter fun row => !deleted row })
  else (.error .concurrentStateChange, s)

def setObject (key : Key) (bytes : Option Bytes) : Store :=
  { s with objects := Function.update s.objects key bytes }

def beginUpload (k : Nat) (key : Key) : Store := { s with uploads := (k, key) :: s.uploads }

def endUpload (k : Nat) (key : Key) : Store :=
  { s with uploads := s.uploads.filter (· ≠ (k, key)) }

end Store

/-! ### Requests -/

/-- A repository call. -/
def repository {α : Type} (label : Label) (f : Store → Except AppError α × Store) : Prog α :=
  .fallible label fun ok s => if ok then f s else (.error .database, s)

/-- The deletion of an object.  Whether it succeeds. -/
def deleteObject (label : Label) (key : Key) : Prog Bool :=
  .atomic label fun ok s => (ok, if ok then s.setObject key none else s)

def putObject (k : Nat) (key : Key) (bytes : Bytes) : Prog Unit :=
  .fallible .plain fun ok s =>
    if ok then (.ok (), (s.setObject key (some bytes)).beginUpload k key)
    else (.error (.serviceUnavailable "object_store_unavailable"), s)

/-- The repository call after which an upload has ended. -/
def registerUpload (k : Nat) (key : Key) (byteLength : Nat) : Prog Unit :=
  .fallible .plain fun ok s =>
    if ok then (s.endUpload k key).registerPrintpacketResource key "image/jpeg" byteLength
    else (.error .database, s.endUpload k key)

def putPrintpacketResource (sha256 : Bytes → String) (k : Nat) (key : Key)
    (mediaType : Option String) (bytes : Bytes) : Prog Unit :=
  if (asBytes key.digest).length ≠ 64
      ∨ !key.digest.toList.all (fun c => c.isDigit || ('a' ≤ c && c ≤ 'f')) then
    .fail (.invalid "invalid_printpacket_resource")
  else if mediaType ≠ some "image/jpeg" then .fail (.invalid "unsupported_printpacket_resource")
  else if bytes.length > 4 * 1024 * 1024 then .fail (.invalid "printpacket_resource_too_large")
  else if bytes = [] ∨ sha256 bytes ≠ key.digest then
    .fail (.invalid "printpacket_resource_digest_mismatch")
  else
    (putObject k key bytes).bind fun _ =>
    (registerUpload k key bytes.length).attempt.bind fun
      | .ok () => .done ()
      | .error error => (deleteObject (.discard key) key).bind fun _ => .fail error

/-- One resource of a clean-up pass. -/
def cleanupResource (key : Key) (token : Nat) : Prog Unit :=
  (deleteObject (.delete key token) key).bind fun
    | false => .done ()
    | true =>
      (repository .plain fun s => s.completeExpiredPrintpacketResource key token).attempt.bind
        fun _ => .done ()

def cleanupOnce (limit : Int) : Prog Unit :=
  (repository .plain fun s => ((.ok (s.claimExpiredPrintpacketResources limit).1),
    (s.claimExpiredPrintpacketResources limit).2)).bind fun claimed =>
  .each claimed fun item => cleanupResource item.1 item.2

inductive Call
  | put (key : Key) (mediaType : Option String) (bytes : Bytes)
  | register (render : Render)
  | registerPreview (render : Render) (digests : List String)
  | link (tenant renderId : String) (digests : List String)
  | cleanup (limit : Int)
  /-- The artifacts of a render have expired. -/
  | expireRender (tenant id : String)
  | wait (seconds : Nat)

def program (sha256 : Bytes → String) (k : Nat) : Call → Prog Unit
  | .put key mediaType bytes => putPrintpacketResource sha256 k key mediaType bytes
  | .register render =>
    (repository .plain (·.registerDocumentRender { render with expired := false })).bind fun _ =>
    .done ()
  | .registerPreview render digests =>
    (repository (.link (digests.map (⟨render.tenant, ·⟩))) fun s =>
      s.registerPreviewDocumentRender { render with expired := false } digests).bind fun _ =>
    .done ()
  | .link tenant renderId digests =>
    repository (.link (digests.map (⟨tenant, ·⟩)))
      (·.linkPrintpacketRenderResources tenant renderId digests)
  | .cleanup limit => cleanupOnce limit
  | .expireRender tenant id =>
    repository .plain fun s => (.ok (), { s with renders := s.renders.map fun render =>
      if render.tenant = tenant ∧ render.id = id then { render with expired := true } else render })
  | .wait seconds => .atomic .plain fun _ s => ((), { s with now := s.now + seconds })

/-! ### Rows and their objects -/

structure Backed (sha256 : Bytes → String) (s : Store) : Prop where
  digest : ∀ key bytes, s.objects key = some bytes → sha256 bytes = key.digest
  active : ∀ row ∈ s.resources, row.cleanupState = .active →
    (s.objects row.key).isSome = true ∧ row.cleanupLeaseToken = none
  uploaded : ∀ upload ∈ s.uploads, (s.objects upload.2).isSome = true

/-- A render is linked to no row that is claimed.  A clean-up pass deletes an object while
the row has its token, and an upload that is not registered while the row is not active;
neither does it while another upload has stored the object and not yet registered it. -/
def Disciplined : Label → Store → Prop
  | .plain, _ => True
  | .link keys, s => ∀ row ∈ s.resources, row.key ∈ keys → row.cleanupState = .active
  | .delete key token, s => (∀ upload ∈ s.uploads, upload.2 ≠ key) ∧
      ∀ row ∈ s.resources, row.key = key → row.cleanupLeaseToken = some token
  | .discard key, s => (∀ upload ∈ s.uploads, upload.2 ≠ key) ∧
      ∀ row ∈ s.resources, row.key = key → row.cleanupState ≠ .active

/-- Calls that fail do no harm. -/
def Admits (label : Label) (ok : Bool) (s : Store) : Prop := ok = true → Disciplined label s

instance (label : Label) (s : Store) : Decidable (Disciplined label s) := by
  apply @Label.casesOn (Decidable <| Disciplined · s) label <;> intros <;>
    dsimp only [Disciplined] <;> infer_instance

instance (label : Label) (ok : Bool) (s : Store) : Decidable (Admits label ok s) :=
  inferInstanceAs (Decidable (_ → _))

/-- The change keeps the invariant and the uploads. -/
def Kept (sha256 : Bytes → String) (s s' : Store) : Prop :=
  Backed sha256 s' ∧ s'.uploads = s.uploads

variable {sha256 : Bytes → String} {s : Store} {key : Key} {s' : Store} {digests : List String}
  {limit : Int}

section

variable (h : Backed sha256 s)

include h

theorem Backed.kept : Kept sha256 s s := ⟨h, rfl⟩

/-- The active rows are among those of before, or have their objects. -/
theorem Backed.of_resources (hobjs : s'.objects = s.objects) (hups : s'.uploads = s.uploads)
    (hact : ∀ row ∈ s'.resources, row.cleanupState = .active → row ∈ s.resources ∨
      (s.objects row.key).isSome = true ∧ row.cleanupLeaseToken = none) : Kept sha256 s s' := by
  refine ⟨⟨fun key bytes => hobjs ▸ h.digest key bytes, fun row hrow hst => ?_, ?_⟩, hups⟩
  · rw [hobjs]
    exact (hact row hrow hst).elim (fun hold => h.active row hold hst) id
  · rw [hobjs, hups]
    exact h.uploaded

/-- Some rows are used again. -/
theorem Backed.map (hobjs : s'.objects = s.objects) (hups : s'.uploads = s.uploads)
    {used : Resource → Prop} [DecidablePred used] {f : Resource → Resource}
    (hresources : s'.resources = s.resources.map fun row => if used row then f row else row)
    (hused : ∀ row ∈ s.resources, used row → (f row).cleanupState = .active →
      (s.objects (f row).key).isSome = true ∧ (f row).cleanupLeaseToken = none) :
    Kept sha256 s s' := by
  refine h.of_resources hobjs hups fun row hrow hst => ?_
  rw [hresources] at hrow
  obtain ⟨old, hold, rfl⟩ := List.mem_map.mp hrow
  split_ifs at hst ⊢ with hu
  · exact .inr (hused old hold hu hst)
  · exact .inl hold

theorem Backed.register {mediaType : String} {byteLength : Nat}
    (hobj : (s.objects key).isSome = true) :
    Kept sha256 s (s.registerPrintpacketResource key mediaType byteLength).2 := by
  unfold Store.registerPrintpacketResource
  split
  · refine h.of_resources rfl rfl fun row hrow hst => ?_
    rcases List.mem_append.mp hrow with hrow | hrow
    · exact .inl hrow
    · rw [List.mem_singleton.mp hrow]
      exact .inr ⟨hobj, rfl⟩
  · split_ifs
    · refine h.map rfl rfl rfl fun row _ hkey _ => ⟨?_, rfl⟩
      show (s.objects row.key).isSome = true
      rw [hkey]
      exact hobj
    · exact h.kept

theorem Backed.link {tenant renderId : String}
    (hact : Disciplined (.link (digests.map (⟨tenant, ·⟩))) s) :
    Kept sha256 s (s.link tenant renderId digests) := by
  refine h.map rfl rfl rfl fun row hrow hused _ => ⟨?_, rfl⟩
  obtain ⟨rfl, hdig⟩ := hused
  exact (h.active row hrow (hact row hrow (List.mem_map_of_mem hdig))).1

theorem Backed.renders (renders : List Render) : Kept sha256 s { s with renders := renders } :=
  ⟨⟨h.digest, h.active, h.uploaded⟩, rfl⟩

theorem Backed.registerPreview {render : Render}
    (hact : Disciplined (.link (digests.map (⟨render.tenant, ·⟩))) s) :
    Kept sha256 s (s.registerPreviewDocumentRender render digests).2 := by
  obtain ⟨renders, hrenders⟩ := s.registerDocumentRender_renders { render with preview := true }
  unfold Store.registerPreviewDocumentRender
  split
  · exact h.kept
  next row s' hrow =>
    obtain rfl : s' = { s with renders := renders } := by rw [← hrenders, hrow]
    split_ifs
    · exact (h.renders renders).1.link hact
    · exact h.kept

theorem Backed.claim : Kept sha256 s (s.claimExpiredPrintpacketResources limit).2 :=
  h.map rfl rfl rfl fun _ _ _ => nofun

theorem Backed.complete {token : Nat} :
    Kept sha256 s (s.completeExpiredPrintpacketResource key token).2 := by
  unfold Store.completeExpiredPrintpacketResource
  dsimp only
  split_ifs
  · exact h.of_resources rfl rfl fun row hrow _ => .inl (List.mem_filter.mp hrow).1
  · exact h.kept

theorem Backed.setObject {object : Option Bytes}
    (hdig : ∀ bytes ∈ object, sha256 bytes = key.digest)
    (hkeep : object.isSome = true ∨ (∀ upload ∈ s.uploads, upload.2 ≠ key) ∧
      ∀ row ∈ s.resources, row.key = key → row.cleanupState ≠ .active) :
    Kept sha256 s (s.setObject key object) := by
  -- an object that is needed is there still
  have hobj : ∀ other, (s.objects other).isSome = true → (other = key → object.isSome = true) →
      ((s.setObject key object).objects other).isSome = true := by
    intro other hother hsome
    show (Function.update s.objects key object other).isSome = true
    by_cases hkey : other = key
    · rw [hkey, Function.update_self]
      exact hsome hkey
    · rwa [Function.update_of_ne hkey]
  refine ⟨⟨fun other bytes hbytes => ?_, fun row hrow hst => ?_, fun upload hup => ?_⟩, rfl⟩
  · by_cases hkey : other = key
    · subst hkey
      replace hbytes : Function.update s.objects other object other = some bytes := hbytes
      rw [Function.update_self] at hbytes
      exact hdig bytes hbytes
    · exact h.digest other bytes ((Function.update_of_ne hkey _ _).symm.trans hbytes)
  · refine ⟨hobj _ (h.active row hrow hst).1 fun hkey => ?_, (h.active row hrow hst).2⟩
    exact hkeep.resolve_right fun hno => hno.2 row hrow hkey hst
  · exact hobj _ (h.uploaded upload hup) fun hkey =>
      hkeep.resolve_right fun hno => hno.1 upload hup hkey

/-- The row of an object that may be deleted is not active. -/
theorem Backed.delete {label : Label}
    (hlabel : label = .discard key ∨ ∃ token, label = .delete key token)
    (hadm : Disciplined label s) : Kept sha256 s (s.setObject key none) := by
  refine h.setObject nofun (.inr ?_)
  obtain rfl | ⟨token, rfl⟩ := hlabel
  · exact hadm
  · -- an active row has no token, and so not this one
    refine ⟨hadm.1, fun row hrow hkey hst => ?_⟩
    have htoken := (h.active row hrow hst).2.symm.trans (hadm.2 row hrow hkey)
    cases htoken

end

/-! ### The requests and their uploads -/

/-- The uploads of the calls go on. -/
def Spares (calls : Nat → Prop) (s s' : Store) : Prop :=
  ∀ upload ∈ s.uploads, calls upload.1 → upload ∈ s'.uploads

/-- Only the call itself registers what it has stored. -/
def discipline (sha256 : Bytes → String) (k : Nat) : Process.Discipline Label Bool Store where
  valid := Backed sha256
  rely := Spares (· = k)
  guar := Spares (· ≠ k)
  admits := Admits
  joined := fun _ => False
  refl := fun _ _ hup _ => hup
  trans := fun h h' upload hup hcall => h' upload (h upload hup hcall) hcall

abbrev Keeps {α : Type} (sha256 : Bytes → String) (k : Nat) (p : Prog α) : Prop :=
  Process.Triple (discipline sha256 k) (fun _ => True) p (fun _ _ => True) fun _ _ => True

variable {k : Nat}

theorem Kept.guar (h : Kept sha256 s s') : (discipline sha256 k).guar s s' :=
  fun _ hup _ => h.2 ▸ hup

theorem keeps_repository {α : Type} {label : Label} {f : Store → Except AppError α × Store}
    (h : ∀ s, Backed sha256 s → Disciplined label s → Kept sha256 s (f s).2) :
    Keeps sha256 k (repository label f) := by
  refine .fallible (fun _ => .const _) fun s ok hs _ hadm => ?_
  have hkept : Kept sha256 s (if ok then f s else (.error .database, s)).2 := by
    split_ifs with hok
    · exact h s hs (hadm hok)
    · exact hs.kept
  exact ⟨hkept.1, hkept.guar, fun _ _ => trivial, fun _ _ => trivial⟩

theorem keeps_deleteObject {label : Label}
    (hlabel : label = .discard key ∨ ∃ token, label = .delete key token) :
    Keeps sha256 k (deleteObject label key) := by
  refine .atomic (fun _ => .const _) fun s ok hs _ hadm => ?_
  have hkept : Kept sha256 s (if ok then s.setObject key none else s) := by
    split_ifs with hok
    · exact hs.delete hlabel (hadm hok)
    · exact hs.kept
  exact ⟨hkept.1, hkept.guar, trivial⟩

theorem triple_putObject {bytes : Bytes} (hdig : sha256 bytes = key.digest) :
    Process.Triple (discipline sha256 k) (fun _ => True) (putObject k key bytes)
      (fun _ s => (k, key) ∈ s.uploads) fun _ _ => True := by
  refine .fallible (fun _ => .const _) fun s ok hs _ _ => ?_
  split_ifs
  · have hset : Backed sha256 (s.setObject key (some bytes)) := by
      refine (hs.setObject (fun _ hmem => ?_) (.inl rfl)).1
      cases hmem
      exact hdig
    refine ⟨⟨hset.digest, hset.active, List.forall_mem_cons.mpr ⟨?_, hset.uploaded⟩⟩,
      fun _ hup _ => List.mem_cons_of_mem _ hup, fun _ _ => List.mem_cons_self, nofun⟩
    simp [Store.beginUpload, Store.setObject]
  · exact ⟨hs, hs.kept.guar, nofun, fun _ _ => trivial⟩

/-- Nobody has deleted the object of an upload before it is registered. -/
theorem triple_registerUpload {byteLength : Nat} :
    Process.Triple (discipline sha256 k) (fun s => (k, key) ∈ s.uploads)
      (registerUpload k key byteLength) (fun _ _ => True) fun _ _ => True := by
  refine .fallible (fun _ s s' _ _ hrely hup => hrely _ hup rfl) fun s ok hs hup _ => ?_
  have hend : Backed sha256 (s.endUpload k key) :=
    ⟨hs.digest, hs.active, fun upload hmem => hs.uploaded upload (List.mem_filter.mp hmem).1⟩
  -- the upload is noted still, so that its object is there
  have hkept : Kept sha256 (s.endUpload k key) (if ok then
      (s.endUpload k key).registerPrintpacketResource key "image/jpeg" byteLength
      else (.error .database, s.endUpload k key)).2 := by
    split_ifs
    · exact hend.register (hs.uploaded _ hup)
    · exact hend.kept
  refine ⟨hkept.1, fun upload hmem hne => ?_, fun _ _ => trivial, fun _ _ => trivial⟩
  rw [hkept.2]
  exact List.mem_filter.mpr ⟨hmem, decide_eq_true fun heq => hne (congrArg Prod.fst heq)⟩

theorem keeps_put {mediaType : Option String} {bytes : Bytes} :
    Keeps sha256 k (putPrintpacketResource sha256 k key mediaType bytes) := by
  unfold putPrintpacketResource
  split_ifs with _ _ _ hbytes
  iterate 4 exact .fail fun _ _ _ => trivial
  refine .bind (triple_putObject (not_not.mp fun hne => hbytes (.inr hne))) fun _ =>
    .bind triple_registerUpload.attempt fun result => .before ?_ fun _ _ _ => trivial
  cases result with
  | ok _ => exact .done fun _ _ _ => trivial
  | error error =>
    exact .bind (keeps_deleteObject (.inl rfl)) fun _ => .fail fun _ _ _ => trivial

theorem keeps_cleanup : Keeps sha256 k (cleanupOnce limit) := by
  refine .bind (keeps_repository fun _ hs _ => hs.claim) fun claimed =>
    .each (I := fun _ _ => True) (fun item _ =>
      .bind (keeps_deleteObject (.inr ⟨item.2, rfl⟩)) fun deleted => ?_) claimed
  cases deleted with
  | false => exact .done fun _ _ _ => trivial
  | true =>
    exact .bind (.attempt (keeps_repository fun _ hs _ => hs.complete)) fun _ =>
      .done fun _ _ _ => trivial

theorem keeps_program (k : Nat) (call : Call) : Keeps sha256 k (program sha256 k call) := by
  cases call with
  | put => exact keeps_put
  | register render =>
    refine .bind (keeps_repository fun s hs _ => ?_) fun _ => .done fun _ _ _ => trivial
    obtain ⟨renders, hrenders⟩ := s.registerDocumentRender_renders { render with expired := false }
    rw [hrenders]
    exact hs.renders renders
  | registerPreview =>
    exact .bind (keeps_repository fun _ hs hact => hs.registerPreview hact) fun _ =>
      .done fun _ _ _ => trivial
  | link =>
    refine keeps_repository fun s hs hact => ?_
    unfold Store.linkPrintpacketRenderResources
    split_ifs
    · exact hs.link hact
    · exact hs.kept
  | cleanup limit => exact keeps_cleanup
  | expireRender => exact keeps_repository fun _ hs _ => hs.renders _
  | wait seconds =>
    exact .atomic (fun _ => .const _) fun s _ hs _ _ =>
      ⟨⟨hs.digest, hs.active, hs.uploaded⟩, fun _ hup _ => hup, trivial⟩

theorem compatible : Pool.Compatible (α := Unit) (ε := AppError) (discipline sha256)
    (fun _ _ _ => True) fun _ _ _ => True where
  valid _ _ _ := id
  rely _ _ _ _ hne _ hguar upload hup heq := hguar upload hup (heq ▸ hne)
  guar _ _ _ hup _ := hup
  free _ _ := id
  result _ _ := .const _
  error _ _ := .const _

/-- **Active rows have their objects**, in every interleaving of the requests. -/
theorem active_resources_stored (hs : Backed sha256 s) {ops : List (Pool.Op Call Bool)}
    (h : Run.Meets (Pool.step (program sha256) fun _ _ => true) (Pool.Admitted Admits) ⟨s, []⟩
      ops) :
    ∀ row ∈ (Pool.run (program sha256) (fun _ _ => true) s ops).shared.resources,
      row.cleanupState = .active →
        ∃ bytes, (Pool.run (program sha256) (fun _ _ => true) s ops).shared.objects row.key =
          some bytes ∧ sha256 bytes = row.key.digest := by
  have hback : Backed sha256 (Pool.run (program sha256) (fun _ _ => true) s ops).shared :=
    (Pool.Sound.run compatible (fun m call _ hval => keeps_program _ call _ (hval 0) trivial)
      (fun m k i hop _ p hp label hl _ => hop label (by rw [hp]; exact hl)) (fun _ => hs) h).1 0
  intro row hrow hst
  obtain ⟨bytes, hbytes⟩ := Option.isSome_iff_exists.mp (hback.active row hrow hst).1
  exact ⟨bytes, hbytes, hback.digest row.key bytes hbytes⟩

namespace Sample

/-- The digest of the byte 0. -/
def zero : String := "6e340b9cffb37a989ca544e6bb780a2c78901d3fb33738768511a30617afa01d"

def hash (bytes : Bytes) : String := if bytes = [0] then zero else "-"

def empty : Store := ⟨[], [], [], fun _ => none, 0, 0, []⟩

def put : Call := .put ⟨"w/e", zero⟩ (some "image/jpeg") [0]

def acts (k n : Nat) : List (Pool.Op Call Bool) := List.replicate n (.act k true)

def preview : Call := .registerPreview ⟨"w/e", "r", "i", "q", true, false⟩ [zero]

/-- An upload, and a clean-up pass that has claimed the resource when it has expired. -/
def claimed : List (Pool.Op Call Bool) :=
  .start put :: acts 0 2 ++ .start (.wait 2592001) :: acts 1 1 ++ .start (.cleanup 10) :: acts 2 1

/-- The pass ends, an upload fails and discards its object, and two others store theirs
before a render uses it. -/
def uploaded : List (Pool.Op Call Bool) :=
  claimed ++ acts 2 2 ++ .start put :: .act 3 true :: .act 3 false :: acts 3 1 ++
    .start put :: .start put :: acts 4 1 ++ acts 5 2 ++ acts 4 1 ++ .start preview :: acts 6 1

/-- The resource is uploaded again before the pass deletes it. -/
def uploadedAgain : List (Pool.Op Call Bool) := claimed ++ .start put :: acts 3 2 ++ acts 2 2

/-- The object is stored again before the pass deletes it. -/
def overtaken : List (Pool.Op Call Bool) :=
  claimed ++ .start put :: acts 3 1 ++ acts 2 2 ++ acts 3 1

/-- A render uses the resource of a pass that has not deleted the row. -/
def used : List (Pool.Op Call Bool) :=
  claimed ++ acts 2 1 ++ .act 2 false :: .start preview :: acts 3 1

/-- The upload of a resource that is there fails to register it. -/
def refused : List (Pool.Op Call Bool) :=
  .start put :: acts 0 2 ++ .start put :: acts 1 1 ++ .act 1 false :: acts 1 1

end Sample

open Sample

theorem active_resources_stored_uploaded : (∀ row ∈ (Pool.run (program hash) (fun _ _ => true) empty
        uploaded).shared.resources, row.cleanupState = .active →
      ∃ bytes, (Pool.run (program hash) (fun _ _ => true) empty
        uploaded).shared.objects row.key = some bytes ∧ Sample.hash bytes = row.key.digest) ∧
    (Pool.run (program hash) (fun _ _ => true) empty
        uploaded).shared.resources.map (·.cleanupState) = [.active] := by
  have hemp : Backed hash empty := ⟨fun _ _ => nofun, List.forall_mem_nil _, List.forall_mem_nil _⟩
  exact ⟨active_resources_stored hemp (by decide +kernel), by decide +kernel⟩

/-- All requests have ended, and the active row has no object. -/
theorem active_resource_deleted :
    (∀ ops ∈ [uploadedAgain, overtaken, used, refused],
      ∀ p ∈ (Pool.run (program hash) (fun _ _ => true) empty ops).threads, p.label? = none) ∧
    ∀ ops ∈ [uploadedAgain, overtaken, used, refused],
      (Pool.run (program hash) (fun _ _ => true) empty ops).shared.resources.map
        (·.cleanupState) = [.active] ∧
      (Pool.run (program hash) (fun _ _ => true) empty ops).shared.objects
        ⟨"w/e", zero⟩ = none := by
  decide +kernel

end Piqae.Server.RenderResources
