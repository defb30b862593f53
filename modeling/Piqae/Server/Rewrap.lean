/-
Piqae/Server/Rewrap.lean

Moving document ciphertexts from an old key to the active one.  One call takes
a batch of references to the old key, in a fixed order and up to a limit,
leaves out the renders under a live lease, and swaps each ciphertext it can
read for one under the active key, unless the row has changed meanwhile.

Every swap keeps the plaintext and the context, and only ciphertexts under the
old key are swapped.  But the batch is cut before the rows that cannot be
rewrapped are left out, and the order is the same for every call: a call makes
progress if and only if it can rewrap one of the rows that stand first (and one
malformed ciphertext fails the query of every call).  With fewer rows in the way
than the limit lets through, repeated calls reach all others.

Statements of the call are numbered, and `concurrent n` is what other
transactions do before the `n`th.  Key identifiers are ASCII texts and stand
here as their bytes.
-/
import Piqae.Base

namespace Piqae.Server.Rewrap

open List

/-- The cipher: decryption inverts encryption under the same key, nonce and context. -/
structure Aead (Key : Type) where
  encrypt : Key → List UInt8 → String → List UInt8 → List UInt8
  decrypt : Key → List UInt8 → String → List UInt8 → Option (List UInt8)
  decrypt_encrypt : ∀ key nonce aad plaintext,
    decrypt key nonce aad (encrypt key nonce aad plaintext) = some plaintext

def magic : List UInt8 := [0x50, 0x44, 0x4f, 0x43]

def version : UInt8 := 2

/-- The bytes of `legacy-v1`. -/
def legacyKeyId : List UInt8 := [0x6c, 0x65, 0x67, 0x61, 0x63, 0x79, 0x2d, 0x76, 0x31]

def validKeyId (id : List UInt8) : Bool :=
  1 ≤ id.length && id.length ≤ 64 && id.all fun byte =>
    (0x30 ≤ byte && byte ≤ 0x39) || (0x41 ≤ byte && byte ≤ 0x5a) || (0x61 ≤ byte && byte ≤ 0x7a) ||
      byte = 0x2d || byte = 0x5f || byte = 0x2e

/-- As `DocumentSecretBox::keyring` builds it. -/
structure DocumentSecretBox (Key : Type) where
  activeKeyId : List UInt8
  keys : List UInt8 → Option Key
  activeKey : Key
  keys_active : keys activeKeyId = some activeKey
  valid_active : validKeyId activeKeyId = true

/-- Twelve random bytes. -/
structure Nonce where
  bytes : List UInt8
  length_eq : bytes.length = 12

section Crypto

variable {Key : Type} (aead : Aead Key) (box : DocumentSecretBox Key)

def encrypt (nonce : Nonce) (aad : String) (plaintext : List UInt8) : Option (List UInt8) :=
  match box.keys box.activeKeyId with
  | none => none
  | some key =>
    if 255 < box.activeKeyId.length then none
    else some (magic ++ version :: UInt8.ofNat box.activeKeyId.length ::
      (box.activeKeyId ++ (nonce.bytes ++ aead.encrypt key nonce.bytes aad plaintext)))

def decryptWith (keyId nonce : List UInt8) (aad : String) (ciphertext : List UInt8) :
    Option (List UInt8) :=
  match box.keys keyId with
  | none => none
  | some key => aead.decrypt key nonce aad ciphertext

def decrypt (aad : String) (encrypted : List UInt8) : Option (List UInt8) :=
  if magic.isPrefixOf encrypted then
    if encrypted[4]? = some version then
      match encrypted[5]? with
      | none => none
      | some keyIdLen =>
        let keyEnd := 6 + keyIdLen.toNat
        let nonceEnd := keyEnd + 12
        if encrypted.length < nonceEnd then none
        else decryptWith aead box ((encrypted.drop 6).take keyIdLen.toNat)
          ((encrypted.drop keyEnd).take 12) aad (encrypted.drop nonceEnd)
    else none
  else if encrypted.length < 12 then none
  else decryptWith aead box legacyKeyId (encrypted.take 12) aad (encrypted.drop 12)

def rewrapPayload (nonce : Nonce) (aad : String) (ciphertext : List UInt8) : Option (List UInt8) :=
  match decrypt aead box aad ciphertext with
  | none => none
  | some plaintext => encrypt aead box nonce aad plaintext

end Crypto

/-- The function of the database; `none` is its exception. -/
def documentCiphertextKeyId (ciphertext : List UInt8) : Option (List UInt8) :=
  if 18 ≤ ciphertext.length ∧ ciphertext.take 4 = magic ∧ ciphertext[4]? = some 2 then
    let keyLength := (ciphertext[5]?.getD 0).toNat
    if keyLength < 1 ∨ 64 < keyLength ∨ ciphertext.length < 18 + keyLength then none
    else
      let keyIdentifier := (ciphertext.drop 6).take keyLength
      if validKeyId keyIdentifier then some keyIdentifier else none
  else some legacyKeyId

/-! ### The tables -/

inductive DocumentCiphertextField where
  | templateDraft
  | templateRevision
  | renderInput
  | renderPreviewInput
  | renderPreviewSpecification
  | renderArtifactReference
  deriving DecidableEq, Repr

def DocumentCiphertextField.resourceType : DocumentCiphertextField → String
  | templateDraft => "template_draft"
  | templateRevision => "template_revision"
  | renderInput => "render_input"
  | renderPreviewInput => "render_preview_input"
  | renderPreviewSpecification => "render_preview_specification"
  | renderArtifactReference => "render_artifact_reference"

/-- The domain of the context, as the functions of `documents.rs` have it. -/
def DocumentCiphertextField.domain : DocumentCiphertextField → String
  | templateDraft | templateRevision => "template-spec"
  | renderInput => "render-input"
  | renderPreviewInput => "preview-render-input"
  | renderPreviewSpecification => "preview-render-spec"
  | renderArtifactReference => "render-artifact-key"

structure Tenant where
  workspaceId : String
  environmentId : String
  deriving DecidableEq, Repr

structure DocumentCiphertextRecord where
  tenant : Tenant
  resourceId : String
  aadResourceId : String
  field : DocumentCiphertextField
  ciphertext : List UInt8
  deriving DecidableEq, Repr

def DocumentCiphertextRecord.aad (record : DocumentCiphertextRecord) : String :=
  "printpacket/v1\x00" ++ record.field.domain ++ "\x00" ++ record.tenant.workspaceId ++ "\x00" ++
    record.tenant.environmentId ++ "\x00" ++ record.aadResourceId

structure Template where
  id : String
  tenant : Tenant
  draftCiphertext : List UInt8

/-- The template of a revision is given by its id: no statement changes `template_id`. -/
structure Revision where
  id : String
  tenant : Tenant
  specCiphertext : List UInt8

inductive Purpose where
  | printable
  | preview
  deriving DecidableEq, Repr

structure Render where
  id : String
  tenant : Tenant
  purpose : Purpose
  /-- `lease_expires_at` while the state is `rendering`; the claim sets both. -/
  rendering : Option Int
  inputCiphertext : Option (List UInt8)
  specCiphertext : Option (List UInt8)
  artifactObjectKeyCiphertext : Option (List UInt8)

structure Db where
  templates : List Template
  revisions : List Revision
  renders : List Render
  now : Int

/-- A stored ciphertext with its row. -/
structure Slot where
  field : DocumentCiphertextField
  tenant : Tenant
  resourceId : String
  leased : Bool
  ciphertext : List UInt8
  deriving DecidableEq, Repr

namespace Db

def templateSlot (template : Template) : Slot :=
  ⟨.templateDraft, template.tenant, template.id, false, template.draftCiphertext⟩

def revisionSlot (revision : Revision) : Slot :=
  ⟨.templateRevision, revision.tenant, revision.id, false, revision.specCiphertext⟩

def renderSlot (now : Int) (render : Render) (field : DocumentCiphertextField) :
    List UInt8 → Slot :=
  fun ciphertext => ⟨field, render.tenant, render.id, render.rendering.any (now < ·), ciphertext⟩

def inputField : Purpose → DocumentCiphertextField
  | .printable => .renderInput
  | .preview => .renderPreviewInput

def renderSlots (now : Int) (render : Render) : List Slot :=
  (render.inputCiphertext.map (renderSlot now render (inputField render.purpose))).toList ++
    ((render.specCiphertext.map (renderSlot now render .renderPreviewSpecification)).toList ++
      (render.artifactObjectKeyCiphertext.map
        (renderSlot now render .renderArtifactReference)).toList)

/-- The rows of the view `document_encryption_key_references`. -/
def slots (db : Db) : List Slot :=
  db.templates.map templateSlot ++ (db.revisions.map revisionSlot ++
    db.renders.flatMap (renderSlots db.now))

def setRender (f : Slot → List UInt8) (now : Int) (render : Render) : Render :=
  let set := fun field ciphertext => f (renderSlot now render field ciphertext)
  { render with
    inputCiphertext := render.inputCiphertext.map (set (inputField render.purpose))
    specCiphertext := render.specCiphertext.map (set .renderPreviewSpecification)
    artifactObjectKeyCiphertext :=
      render.artifactObjectKeyCiphertext.map (set .renderArtifactReference) }

/-- Sets every ciphertext to what `f` gives for its slot. -/
def setCiphertexts (db : Db) (f : Slot → List UInt8) : Db where
  templates := db.templates.map fun template =>
    { template with draftCiphertext := f (templateSlot template) }
  revisions := db.revisions.map fun revision =>
    { revision with specCiphertext := f (revisionSlot revision) }
  renders := db.renders.map (setRender f db.now)
  now := db.now

theorem slots_setCiphertexts (db : Db) (f : Slot → List UInt8) :
    (db.setCiphertexts f).slots = db.slots.map fun slot => { slot with ciphertext := f slot } := by
  have hrender : ∀ render, renderSlots db.now (setRender f db.now render) =
      (renderSlots db.now render).map fun slot => { slot with ciphertext := f slot } := by
    intro render
    simp only [renderSlots, setRender, map_append, Option.map_map, Option.toList_map, map_map]
    rfl
  simp only [slots, setCiphertexts, map_append, map_map, flatMap_map, map_flatMap, hrender]
  rfl

/-! ### The statements of a call -/

/-- The references to a key; the query fails when the function fails on some row. -/
def references (db : Db) (keyId : List UInt8) : Option (List Slot) :=
  if db.slots.all fun slot => (documentCiphertextKeyId slot.ciphertext).isSome then
    some (db.slots.filter fun slot => documentCiphertextKeyId slot.ciphertext = some keyId)
  else none

def batchSize (limit : Int) : Nat := (max 1 (min limit 1000)).toNat

def order (slot : Slot) : List String :=
  [slot.tenant.workspaceId, slot.tenant.environmentId, slot.field.resourceType, slot.resourceId]

end Db

/-- The record of a slot; `templateOf` gives the template of a revision. -/
def Slot.record (templateOf : String → String) (slot : Slot) : DocumentCiphertextRecord where
  tenant := slot.tenant
  resourceId := slot.resourceId
  aadResourceId :=
    if slot.field = .templateRevision then templateOf slot.resourceId else slot.resourceId
  field := slot.field
  ciphertext := slot.ciphertext

namespace Db

/-- The rows of a batch: the first ones in order, without those that are leased. -/
def batch (references : List Slot) (limit : Int) : List Slot :=
  ((references.insertionSort fun a b => order a ≤ order b).take (batchSize limit)).filter
    fun slot => !slot.leased

def documentCiphertextsForRewrap (templateOf : String → String) (db : Db) (keyId : List UInt8)
    (limit : Int) : Option (List DocumentCiphertextRecord) :=
  (db.references keyId).map fun references => (batch references limit).map (Slot.record templateOf)

/-- The condition of the update; a row that it lets through is not under a live lease. -/
def swaps (record : DocumentCiphertextRecord) (slot : Slot) : Bool :=
  slot.field = record.field && slot.resourceId = record.resourceId &&
    slot.tenant = record.tenant && slot.ciphertext = record.ciphertext && !slot.leased

def swapped (record : DocumentCiphertextRecord) (replacement : List UInt8) (slot : Slot) :
    List UInt8 :=
  if swaps record slot then replacement else slot.ciphertext

def rewrapDocumentCiphertext (db : Db) (record : DocumentCiphertextRecord)
    (replacement : List UInt8) : Db × Bool :=
  (db.setCiphertexts (swapped record replacement), db.slots.countP (swaps record) == 1)

end Db

inductive DocumentCryptoError where
  | invalidKey
  | storage
  deriving DecidableEq, Repr

structure RewrapReport where
  referencesBefore : Nat
  scanned : Nat
  rewrapped : Nat
  concurrentChanges : Nat
  unreadable : Nat
  referencesAfter : Nat
  deriving DecidableEq, Repr

/-- An update of the call, with the state before and after it. -/
structure Update where
  before : Db
  after : Db
  done : Bool

/-- The loop over the batch, with the updates it made so far. -/
structure Progress where
  db : Db
  updates : List Update
  rewrapped : Nat
  concurrentChanges : Nat
  unreadable : Nat

section Batch

variable {Key : Type} (aead : Aead Key) (box : DocumentSecretBox Key)
  (templateOf : String → String) (nonce : Nat → Nonce) (concurrent : Nat → Db → Db)

def rewrapRecord (progress : Progress) (record : DocumentCiphertextRecord) : Progress :=
  match rewrapPayload aead box (nonce progress.updates.length) record.aad record.ciphertext with
  | none => { progress with unreadable := progress.unreadable + 1 }
  | some replacement =>
    let before := concurrent (2 + progress.updates.length) progress.db
    let (after, done) := before.rewrapDocumentCiphertext record replacement
    { progress with
      db := after
      updates := progress.updates ++ [⟨before, after, done⟩]
      rewrapped := progress.rewrapped + if done then 1 else 0
      concurrentChanges := progress.concurrentChanges + if done then 0 else 1 }

/-- The result of a call, and the updates it made. -/
def rewrapPostgresBatch (db : Db) (oldKeyId : List UInt8) (limit : Int) (dryRun : Bool) :
    Except DocumentCryptoError RewrapReport × List Update :=
  if oldKeyId = box.activeKeyId then (.error .invalidKey, [])
  else
    let counted := concurrent 0 db
    let snapshot := concurrent 1 counted
    match counted.references oldKeyId,
        snapshot.documentCiphertextsForRewrap templateOf oldKeyId limit with
    | some before, some records =>
      let start : Progress := ⟨snapshot, [], 0, 0, 0⟩
      let progress := if dryRun then start
        else records.foldl (rewrapRecord aead box nonce concurrent) start
      match (concurrent (2 + progress.updates.length) progress.db).references oldKeyId with
      | some after => (.ok ⟨before.length, records.length, progress.rewrapped,
          progress.concurrentChanges, progress.unreadable, after.length⟩, progress.updates)
      | none => (.error .storage, progress.updates)
    | _, _ => (.error .storage, [])

/-! ### A ciphertext -/

/-- What is encrypted is under the active key, and is read back in the same context. -/
theorem encrypt_spec (nonce' : Nonce) (aad : String) (plaintext : List UInt8) :
    ∃ ciphertext, encrypt aead box nonce' aad plaintext = some ciphertext ∧
      documentCiphertextKeyId ciphertext = some box.activeKeyId ∧
      decrypt aead box aad ciphertext = some plaintext := by
  have hval := box.valid_active
  have hlen : 1 ≤ box.activeKeyId.length ∧ box.activeKeyId.length ≤ 64 := by
    simp only [validKeyId, Bool.and_eq_true, decide_eq_true_eq] at hval
    exact hval.1
  have hbyte : (UInt8.ofNat box.activeKeyId.length).toNat = box.activeKeyId.length := by
    simp only [UInt8.toNat_ofNat']
    omega
  have hnonce := nonce'.length_eq
  have hshort : ¬255 < box.activeKeyId.length := by omega
  have henc : encrypt aead box nonce' aad plaintext = some (magic ++ version ::
      UInt8.ofNat box.activeKeyId.length :: (box.activeKeyId ++ (nonce'.bytes ++
        aead.encrypt box.activeKey nonce'.bytes aad plaintext))) := by
    simp only [encrypt, box.keys_active, hshort, if_false]
  refine ⟨_, henc, ?_, ?_⟩
  · simp [documentCiphertextKeyId, magic, version, hbyte, hval, hnonce]
    rw [if_pos (by omega), if_neg]
    rintro (hnil | hlong | hlong)
    · simp [hnil] at hlen
    · omega
    · omega
  · have hdrop : ∀ (n : Nat) (bytes : List UInt8), bytes.drop (6 + n) = (bytes.drop 6).drop n :=
      fun n bytes => (drop_drop ..).symm
    have hkey := aead.decrypt_encrypt box.activeKey nonce'.bytes aad plaintext
    simp [decrypt, magic, version, hbyte, hdrop, Nat.add_assoc, decryptWith, box.keys_active, hkey,
      ← hnonce]
    omega

/-- What can be read can be rewrapped. -/
theorem rewrapPayload_cases (nonce' : Nonce) (aad : String) (ciphertext : List UInt8) :
    (decrypt aead box aad ciphertext = none ∧ rewrapPayload aead box nonce' aad ciphertext = none) ∨
    ∃ plaintext replacement, decrypt aead box aad ciphertext = some plaintext ∧
      rewrapPayload aead box nonce' aad ciphertext = some replacement ∧
      documentCiphertextKeyId replacement = some box.activeKeyId ∧
      decrypt aead box aad replacement = some plaintext := by
  unfold rewrapPayload
  cases hdecrypt : decrypt aead box aad ciphertext with
  | none => exact .inl ⟨rfl, rfl⟩
  | some plaintext =>
    obtain ⟨replacement, henc, hkey, hback⟩ :=
      encrypt_spec aead box nonce' aad plaintext
    exact .inr ⟨plaintext, replacement, rfl, henc, hkey, hback⟩

/-! ### An update -/

/-- A slot is kept, or its ciphertext was under the key and is now under the active one, with the
same plaintext in the same context. -/
def Rewrapped (keyId : List UInt8) (slot slot' : Slot) : Prop :=
  slot' = slot ∨ (slot' = { slot with ciphertext := slot'.ciphertext } ∧
    documentCiphertextKeyId slot.ciphertext = some keyId ∧
    documentCiphertextKeyId slot'.ciphertext = some box.activeKeyId ∧
    ∃ plaintext, decrypt aead box (slot.record templateOf).aad slot.ciphertext = some plaintext ∧
      decrypt aead box (slot.record templateOf).aad slot'.ciphertext = some plaintext)

def underKey (keyId : List UInt8) (slot : Slot) : Bool :=
  documentCiphertextKeyId slot.ciphertext = some keyId

/-- An update rewraps, and when it reports success it leaves one ciphertext less under the key. -/
structure Update.Rewraps (keyId : List UInt8) (update : Update) : Prop where
  slots : ∃ f : Slot → Slot, update.after.slots = update.before.slots.map f ∧
    ∀ slot, Rewrapped aead box templateOf keyId slot (f slot)
  less : update.done = true → update.after.slots.countP (underKey keyId) + 1 =
    update.before.slots.countP (underKey keyId)

variable {aead box templateOf nonce concurrent} {keyId replacement : List UInt8} {origin : Slot}

/-- The row of an update is that of its record. -/
theorem record_of_swaps {slot : Slot} (h : Db.swaps (origin.record templateOf) slot = true) :
    slot.record templateOf = origin.record templateOf ∧ slot.ciphertext = origin.ciphertext := by
  simp only [Db.swaps, Bool.and_eq_true, decide_eq_true_eq] at h
  obtain ⟨⟨⟨⟨hfld, hid⟩, htenant⟩, hciph⟩, -⟩ := h
  simp only [Slot.record] at hfld hid htenant hciph ⊢
  rw [hfld, hid, htenant, hciph]
  exact ⟨rfl, rfl⟩

theorem countP_swapped (templateOf : String → String)
    (hkey : documentCiphertextKeyId origin.ciphertext = some keyId)
    (hrepl : documentCiphertextKeyId replacement ≠ some keyId) (slots : List Slot) :
    (slots.map fun slot => { slot with
      ciphertext := Db.swapped (origin.record templateOf) replacement slot }).countP
        (underKey keyId) + slots.countP (Db.swaps (origin.record templateOf)) =
      slots.countP (underKey keyId) := by
  induction slots with
  | nil => rfl
  | cons slot slots ih =>
    simp only [map_cons, countP_cons]
    by_cases hswap : Db.swaps (origin.record templateOf) slot = true
    · have hunder : documentCiphertextKeyId slot.ciphertext = some keyId := by
        rw [(record_of_swaps hswap).2, hkey]
      have hone : underKey keyId slot = true := by simpa [underKey] using hunder
      have hzero : underKey keyId { slot with ciphertext := replacement } = false := by
        simpa [underKey] using hrepl
      simp only [Db.swapped, hswap, if_true, hone, hzero] at ih ⊢
      simp only [Bool.false_eq_true, if_false]
      omega
    · have hkeep : ({ slot with
          ciphertext := Db.swapped (origin.record templateOf) replacement slot } : Slot) =
            slot := by
        simp [Db.swapped, hswap]
      simp only [hkeep, hswap, if_false, Bool.false_eq_true] at ih ⊢
      omega

/-- The update for a slot; while the slot is as it was, one less is under the key. -/
theorem update_rewraps {nonce' : Nonce} (hne : keyId ≠ box.activeKeyId)
    (hkey : documentCiphertextKeyId origin.ciphertext = some keyId)
    (hrw : rewrapPayload aead box nonce' (origin.record templateOf).aad origin.ciphertext =
      some replacement) (before : Db) : Update.Rewraps aead box templateOf keyId
      ⟨before, (before.rewrapDocumentCiphertext (origin.record templateOf) replacement).1,
        (before.rewrapDocumentCiphertext (origin.record templateOf) replacement).2⟩ ∧
    (origin ∈ before.slots → origin.leased = false →
      (before.rewrapDocumentCiphertext (origin.record templateOf) replacement).1.slots.countP
        (underKey keyId) < before.slots.countP (underKey keyId)) := by
  rcases rewrapPayload_cases aead box nonce' (origin.record templateOf).aad origin.ciphertext with
    ⟨-, hnone⟩ | ⟨plaintext, other, hread, hother, hact, hback⟩
  · simp [hnone] at hrw
  obtain rfl : other = replacement := Option.some.inj (hother.symm.trans hrw)
  have hrepl : documentCiphertextKeyId other ≠ some keyId := by
    rw [hact]
    exact fun heq => hne (Option.some.inj heq).symm
  have hcnt := countP_swapped templateOf hkey hrepl before.slots
  simp only [Db.rewrapDocumentCiphertext, Db.slots_setCiphertexts]
  refine ⟨⟨?_, fun hdone => ?_⟩, fun hmem hlea => ?_⟩
  · refine ⟨_, Db.slots_setCiphertexts .., fun slot => ?_⟩
    unfold Db.swapped
    split
    · next hswap =>
      obtain ⟨hrec, hciph⟩ := record_of_swaps hswap
      refine .inr ⟨rfl, hciph ▸ hkey, hact, plaintext, ?_, ?_⟩
      · rw [hrec, hciph]
        exact hread
      · rw [hrec]
        exact hback
    · exact .inl rfl
  · have hone := beq_iff_eq.mp hdone
    dsimp only
    rw [Db.slots_setCiphertexts]
    omega
  · have hswap : Db.swaps (origin.record templateOf) origin = true := by
      simp [Db.swaps, Slot.record, hlea]
    have hpos := countP_pos_iff.mpr ⟨origin, hmem, hswap⟩
    omega

/-! ### A call -/

/-- The query of a key does not fail. -/
def WellFormed (db : Db) : Prop :=
  ∀ slot ∈ db.slots, (documentCiphertextKeyId slot.ciphertext).isSome = true

theorem references_of_wellFormed {db : Db} (h : WellFormed db) (keyId : List UInt8) :
    db.references keyId = some (db.slots.filter (underKey keyId)) :=
  if_pos (all_eq_true.mpr h)

theorem references_eq_some {db : Db} {references : List Slot}
    (h : db.references keyId = some references) :
    references = db.slots.filter (underKey keyId) := by
  unfold Db.references at h
  split_ifs at h
  exact (Option.some.inj h).symm

/-- Of what is asked of ciphertexts under the key there is never more. -/
theorem Update.Rewraps.countP_le {update : Update} (hne : keyId ≠ box.activeKeyId)
    (h : update.Rewraps aead box templateOf keyId) {p : Slot → Bool}
    (hp : ∀ slot, p slot = true → underKey keyId slot = true) :
    update.after.slots.countP p ≤ update.before.slots.countP p := by
  obtain ⟨f, hslots, hrewrapped⟩ := h.slots
  rw [hslots, countP_map]
  refine countP_mono_left fun slot _ hslot => ?_
  rcases hrewrapped slot with hkept | ⟨-, -, hact, -⟩
  · exact hkept ▸ hslot
  · have hunder := of_decide_eq_true (hp _ hslot)
    exact absurd (Option.some.inj (hunder.symm.trans hact)) hne

/-- A rewrapped state is well-formed again. -/
theorem Update.Rewraps.wellFormed {update : Update}
    (h : update.Rewraps aead box templateOf keyId) (hbef : WellFormed update.before) :
    WellFormed update.after := by
  obtain ⟨f, hslots, hrewrapped⟩ := h.slots
  intro slot' hslot'
  rw [hslots] at hslot'
  obtain ⟨slot, hslot, rfl⟩ := mem_map.mp hslot'
  rcases hrewrapped slot with hkept | ⟨-, -, hact, -⟩
  · rw [hkept]
    exact hbef slot hslot
  · rw [hact]
    rfl

variable (aead box templateOf) in
def readable (slot : Slot) : Bool :=
  (decrypt aead box (slot.record templateOf).aad slot.ciphertext).isSome

variable (aead templateOf nonce concurrent) in
/-- One record: an update, if it can be read. -/
theorem rewrapRecord_spec (hne : keyId ≠ box.activeKeyId)
    (hkey : documentCiphertextKeyId origin.ciphertext = some keyId) (progress : Progress) :
    let next := rewrapRecord aead box nonce concurrent progress (origin.record templateOf)
    ((readable aead box templateOf origin = false ∧ next.db = progress.db ∧
        next.updates = progress.updates) ∨
      ∃ update : Update, update.Rewraps aead box templateOf keyId ∧
        (origin ∈ update.before.slots → origin.leased = false →
          update.after.slots.countP (underKey keyId) <
            update.before.slots.countP (underKey keyId)) ∧
        update.before = concurrent (2 + progress.updates.length) progress.db ∧
        next.db = update.after ∧ next.updates = progress.updates ++ [update]) ∧
    next.rewrapped + next.concurrentChanges = progress.rewrapped + progress.concurrentChanges +
      if readable aead box templateOf origin then 1 else 0 := by
  have hpayload := rewrapPayload_cases aead box (nonce progress.updates.length)
    (origin.record templateOf).aad origin.ciphertext
  unfold rewrapRecord readable
  rcases hpayload with ⟨hread, hrw⟩ | ⟨plaintext, replacement, hread, hrw, -⟩
  · rw [show (origin.record templateOf).ciphertext = origin.ciphertext from rfl, hrw, hread]
    exact ⟨.inl ⟨rfl, rfl, rfl⟩, rfl⟩
  · rw [show (origin.record templateOf).ciphertext = origin.ciphertext from rfl, hrw, hread]
    obtain ⟨hrewraps, hless⟩ := update_rewraps hne hkey hrw
      (concurrent (2 + progress.updates.length) progress.db)
    refine ⟨.inr ⟨_, hrewraps, hless, rfl, rfl, rfl⟩, ?_⟩
    dsimp only
    split <;> simp <;> omega

variable (aead templateOf nonce concurrent) in
/-- What the loop over records of the key adds to its progress. -/
theorem loop_spec (hne : keyId ≠ box.activeKeyId) {records : List Slot}
    (hrecs : ∀ slot ∈ records, documentCiphertextKeyId slot.ciphertext = some keyId)
    (progress : Progress)
    (h : ∀ update ∈ progress.updates, update.Rewraps aead box templateOf keyId) :
    let result := (records.map (Slot.record templateOf)).foldl
      (rewrapRecord aead box nonce concurrent) progress
    (∀ update ∈ result.updates, update.Rewraps aead box templateOf keyId) ∧
      ((∀ n db, WellFormed db → WellFormed (concurrent n db)) → WellFormed progress.db →
        WellFormed result.db) ∧ result.rewrapped + result.concurrentChanges = progress.rewrapped +
        progress.concurrentChanges + records.countP (readable aead box templateOf) := by
  induction records generalizing progress with
  | nil => exact ⟨h, fun _ => id, rfl⟩
  | cons origin records ih =>
    obtain ⟨hcases, hcnt⟩ :=
      rewrapRecord_spec aead templateOf nonce concurrent hne (hrecs origin mem_cons_self) progress
    obtain ⟨next, hnext⟩ : ∃ next, next =
      rewrapRecord aead box nonce concurrent progress (origin.record templateOf) := ⟨_, rfl⟩
    simp only [map_cons, foldl_cons, countP_cons, ← hnext] at hcases hcnt ⊢
    have hupdates : ∀ update ∈ next.updates, update.Rewraps aead box templateOf keyId := by
      rcases hcases with ⟨-, -, hsame⟩ | ⟨update, hrewraps, -, -, -, hmore⟩
      · rwa [hsame]
      · exact hmore ▸ forall_mem_concat h hrewraps
    obtain ⟨hall, hformed, htotal⟩ :=
      ih (fun slot hslot => hrecs slot (mem_cons_of_mem _ hslot)) next hupdates
    refine ⟨hall, fun hconc hdb => hformed hconc ?_, by omega⟩
    rcases hcases with ⟨-, hsame, -⟩ | ⟨update, hrewraps, -, hbef, haft, -⟩
    · rwa [hsame]
    · rw [haft]
      exact hrewraps.wellFormed (hbef ▸ hconc _ _ hdb)

/-- With fewer slots that satisfy `p` not than are taken, one that does is among them. -/
theorem exists_mem_take {l l' : List Slot} {p : Slot → Bool} {n : Nat} (hperm : l'.Perm l)
    (hfew : l.countP (fun slot => !p slot) < n) (hex : ∃ slot ∈ l, p slot = true) :
    ∃ slot ∈ l'.take n, p slot = true := by
  by_contra hnone
  simp only [not_exists, not_and, Bool.not_eq_true] at hnone
  have hall : (l'.take n).countP (fun slot => !p slot) = (l'.take n).length :=
    countP_eq_length.mpr fun slot hslot => by simp [hnone slot hslot]
  have hle : (l'.take n).countP (fun slot => !p slot) ≤ l'.countP fun slot => !p slot :=
    (take_sublist n l').countP_le
  rw [hperm.countP_eq, hall, length_take] at hle
  obtain ⟨slot, hslot, hp⟩ := hex
  have hshort : l'.length ≤ n := by omega
  rw [take_of_length_le hshort] at hnone
  simp [hnone slot (hperm.mem_iff.mpr hslot)] at hp

theorem batch_underKey (slots : List Slot) (limit : Int) :
    ∀ slot ∈ Db.batch (slots.filter (underKey keyId)) limit,
      documentCiphertextKeyId slot.ciphertext = some keyId := by
  intro slot hslot
  have hmem := (mem_insertionSort _).mp (mem_of_mem_take (mem_of_mem_filter hslot))
  simpa [underKey] using (mem_filter.mp hmem).2

variable (aead box templateOf)

/-- The loop over slots of the database, while no other transaction runs. -/
theorem quiet_loop (hne : keyId ≠ box.activeKeyId) {records : List Slot}
    (hrecs : ∀ slot ∈ records, documentCiphertextKeyId slot.ciphertext = some keyId)
    (start : Db) (nonce : Nat → Nonce) (progress : Progress)
    (hstart : progress.db = (progress.updates.getLast?.map (·.after)).getD start) :
    let result := (records.map (Slot.record templateOf)).foldl
      (rewrapRecord aead box nonce fun _ db => db) progress
    result.db = (result.updates.getLast?.map (·.after)).getD start ∧
    (∀ p : Slot → Bool, (∀ slot, p slot = true → underKey keyId slot = true) →
      result.db.slots.countP p ≤ progress.db.slots.countP p) ∧
    ((∀ slot ∈ records, slot ∈ progress.db.slots ∧ slot.leased = false) →
      (∃ slot ∈ records, readable aead box templateOf slot = true) →
        result.db.slots.countP (underKey keyId) < progress.db.slots.countP (underKey keyId)) := by
  induction records generalizing progress with
  | nil => exact ⟨hstart, fun _ _ => le_rfl, fun _ hex => by simp at hex⟩
  | cons origin records ih =>
    obtain ⟨hcases, -⟩ := rewrapRecord_spec aead templateOf nonce (fun _ db => db) hne
      (hrecs origin mem_cons_self) progress
    have hrest := fun slot hslot => hrecs slot (mem_cons_of_mem _ hslot)
    simp only [map_cons, foldl_cons]
    obtain ⟨next, hnext⟩ : ∃ next, next = rewrapRecord aead box nonce (fun _ db => db) progress
      (origin.record templateOf) := ⟨_, rfl⟩
    rw [← hnext] at hcases ⊢
    rcases hcases with ⟨hunread, hdb, hsame⟩ | ⟨update, hrewraps, hless, hbef, haft, hmore⟩
    · obtain ⟨hlast, hle, hlt⟩ := ih hrest next (by rw [hdb, hsame, hstart])
      rw [hdb] at hle hlt
      refine ⟨hlast, hle, fun hmem => ?_⟩
      rintro ⟨slot, hslot, hread⟩
      refine hlt (forall_mem_cons.mp hmem).2 ⟨slot, (mem_cons.mp hslot).resolve_left ?_, hread⟩
      rintro rfl
      cases hunread.symm.trans hread
    · obtain ⟨hlast, hle, -⟩ := ih hrest next (by rw [haft, hmore]; simp)
      rw [haft] at hle
      refine ⟨hlast, fun p hp => (hle p hp).trans (hbef ▸ hrewraps.countP_le hne hp),
        fun hmem _ => (hle _ fun _ => id).trans_lt ?_⟩
      obtain ⟨hslot, hlea⟩ := hmem origin mem_cons_self
      exact hbef ▸ hless (hbef ▸ hslot) hlea

/-- The ciphertext can be read, and is not under a live lease. -/
def rewrappable (slot : Slot) : Bool := readable aead box templateOf slot && !slot.leased

/-- The database after a call that runs alone. -/
def called (keyId : List UInt8) (limit : Int) (db : Db) (nonce : Nat → Nonce) : Db :=
  ((rewrapPostgresBatch aead box templateOf nonce (fun _ db => db) db keyId limit
    false).2.getLast?.map (·.after)).getD db

theorem called_spec {db : Db} (hne : keyId ≠ box.activeKeyId) (hdb : WellFormed db) (limit : Int)
    (nonce : Nat → Nonce) : let after := called aead box templateOf keyId limit db nonce
    WellFormed after ∧ (∀ p : Slot → Bool, (∀ slot, p slot = true → underKey keyId slot = true) →
      after.slots.countP p ≤ db.slots.countP p) ∧
    ((∃ slot ∈ ((db.slots.filter (underKey keyId)).insertionSort fun a b =>
        Db.order a ≤ Db.order b).take (Db.batchSize limit),
        rewrappable aead box templateOf slot = true) →
      after.slots.countP (underKey keyId) < db.slots.countP (underKey keyId)) := by
  have hbatch := @batch_underKey keyId db.slots limit
  obtain ⟨hlast, hle, hlt⟩ :=
    quiet_loop aead box templateOf hne hbatch db nonce ⟨db, [], 0, 0, 0⟩ rfl
  obtain ⟨-, hformed, -⟩ := loop_spec aead templateOf nonce (fun _ db => db) hne hbatch
    ⟨db, [], 0, 0, 0⟩ (by simp)
  replace hformed := hformed (fun _ _ => id) hdb
  simp only [called, rewrapPostgresBatch, if_neg hne, references_of_wellFormed hdb,
    Db.documentCiphertextsForRewrap, Option.map_some, Bool.false_eq_true, if_false,
    references_of_wellFormed hformed]
  rw [← hlast]
  refine ⟨hformed, hle, ?_⟩
  rintro ⟨slot, hslot, hgood⟩
  obtain ⟨hread, hlea⟩ := Bool.and_eq_true_iff.mp hgood
  refine hlt (fun other hother => ?_) ⟨slot, mem_filter.mpr ⟨hslot, hlea⟩, hread⟩
  obtain ⟨htake, hfree⟩ := mem_filter.mp hother
  have hmem := (mem_filter.mp ((mem_insertionSort _).mp (mem_of_mem_take htake))).1
  exact ⟨hmem, by simpa using hfree⟩

/-- With fewer rows in the way than a batch has room for, as many calls as there are rows under
the key reach all others. -/
theorem called_again (hne : keyId ≠ box.activeKeyId) (limit : Int) {nonces : List (Nat → Nonce)}
    {db : Db} (hdb : WellFormed db) (hfew : (db.slots.filter (underKey keyId)).countP (fun slot =>
      !rewrappable aead box templateOf slot) < Db.batchSize limit)
    (hlen : (∀ slot ∈ db.slots.filter (underKey keyId), ¬rewrappable aead box templateOf slot) ∨
      db.slots.countP (underKey keyId) ≤ nonces.length) :
    ∀ slot ∈ (nonces.foldl (called aead box templateOf keyId limit) db).slots.filter
      (underKey keyId), ¬rewrappable aead box templateOf slot := by
  induction nonces generalizing db with
  | nil =>
    refine hlen.elim id fun hzero slot hslot => ?_
    obtain ⟨hmem, hunder⟩ := mem_filter.mp hslot
    exact absurd hunder (countP_eq_zero.mp (Nat.le_zero.mp hzero) slot hmem)
  | cons nonce nonces ih =>
    obtain ⟨hformed, hle, hlt⟩ := called_spec aead box templateOf hne hdb limit nonce
    have hless : ∀ p, ((called aead box templateOf keyId limit db nonce).slots.filter
        (underKey keyId)).countP p ≤ (db.slots.filter (underKey keyId)).countP p := by
      intro p
      rw [countP_filter, countP_filter]
      exact hle _ fun slot hslot => (Bool.and_eq_true_iff.mp hslot).2
    refine ih hformed ((hless _).trans_lt hfew) ?_
    by_cases hsome : ∃ slot ∈ db.slots.filter (underKey keyId),
        rewrappable aead box templateOf slot = true
    · -- one of those that stand first can be rewrapped
      have hfirst := hlt (exists_mem_take (perm_insertionSort _ _) hfew hsome)
      obtain ⟨slot, hslot, hgood⟩ := hsome
      have hcount := hlen.resolve_left fun hnone => hnone slot hslot hgood
      exact .inr (Nat.le_of_lt_succ (hfirst.trans_le hcount))
    · have hzero := countP_eq_zero.mpr fun slot hslot hgood => hsome ⟨slot, hslot, hgood⟩
      exact .inl (countP_eq_zero.mp (Nat.le_zero.mp ((hless _).trans hzero.le)))

variable (nonce concurrent)

/-- **Rewrapping**: every update of a call swaps ciphertexts under the old key only, each for one
under the active key with the same plaintext in the same context, and a successful one leaves one
less under the old key.  While no ciphertext is malformed, a call succeeds, and it rewraps a
ciphertext or reports a concurrent change if and only if one of the references that stand first is
readable and not leased; and repeated calls reach every ciphertext that is, provided fewer than the
batch has room for are not. -/
theorem rewrap_progresses (db : Db) (keyId : List UInt8) (limit : Int) : (∀ dryRun, ∀ update ∈
      (rewrapPostgresBatch aead box templateOf nonce concurrent db keyId limit dryRun).2,
        update.Rewraps aead box templateOf keyId) ∧
    (keyId ≠ box.activeKeyId → WellFormed db →
      ((∀ n db, WellFormed db → WellFormed (concurrent n db)) → ∃ report,
        (rewrapPostgresBatch aead box templateOf nonce concurrent db keyId limit false).1 =
          .ok report ∧ (1 ≤ report.rewrapped + report.concurrentChanges ↔
            ∃ slot ∈ (((concurrent 1 (concurrent 0 db)).slots.filter
              (underKey keyId)).insertionSort fun a b => Db.order a ≤ Db.order b).take
                (Db.batchSize limit), rewrappable aead box templateOf slot = true)) ∧
      ((db.slots.filter (underKey keyId)).countP (fun slot =>
          !rewrappable aead box templateOf slot) < Db.batchSize limit →
        ∀ nonces : List (Nat → Nonce), db.slots.countP (underKey keyId) ≤ nonces.length →
          ∀ slot ∈ (nonces.foldl (called aead box templateOf keyId limit) db).slots.filter
            (underKey keyId), ¬rewrappable aead box templateOf slot)) := by
  have hloop := fun hne : keyId ≠ box.activeKeyId =>
    loop_spec aead templateOf nonce concurrent hne
      (batch_underKey (concurrent 1 (concurrent 0 db)).slots limit)
      ⟨concurrent 1 (concurrent 0 db), [], 0, 0, 0⟩ (by simp)
  refine ⟨fun dryRun => ?_, fun hne hdb => ⟨fun hconc => ?_, fun hfew nonces hlen =>
    called_again aead box templateOf hne limit hdb hfew (.inr hlen)⟩⟩
  · unfold rewrapPostgresBatch
    split
    · simp
    next hne =>
    dsimp only
    split
    · next before records hbef hrecs =>
      obtain ⟨references, hrefs, rfl⟩ := Option.map_eq_some_iff.mp hrecs
      obtain rfl := references_eq_some hrefs
      cases dryRun with
      | true => split <;> simp
      | false => split <;> exact (hloop hne).1
    · simp
  · obtain ⟨-, hformed, hcnt⟩ := hloop hne
    have hcounted := hconc 0 db hdb
    have hsnap := hconc 1 _ hcounted
    have haft := fun n => hconc n _ (hformed hconc hsnap)
    simp only [rewrapPostgresBatch, if_neg hne, references_of_wellFormed hcounted,
      Db.documentCiphertextsForRewrap, references_of_wellFormed hsnap, Option.map_some,
      Bool.false_eq_true, if_false, references_of_wellFormed (haft _)]
    refine ⟨_, rfl, ?_⟩
    rw [hcnt, Nat.zero_add, Nat.zero_add, Nat.one_le_iff_ne_zero, ← Nat.pos_iff_ne_zero,
      countP_pos_iff]
    simp only [Db.batch, mem_filter, rewrappable, Bool.and_eq_true, and_assoc]
    exact exists_congr fun slot => and_congr_right fun _ => and_comm

end Batch

namespace Sample

/-- A cipher whose ciphertext starts with its key and the length of its context. -/
def aead : Aead UInt8 where
  encrypt key _ aad plaintext := key :: UInt8.ofNat aad.length :: plaintext
  decrypt key _ aad ciphertext :=
    if ciphertext.take 2 = [key, UInt8.ofNat aad.length] then some (ciphertext.drop 2) else none
  decrypt_encrypt := by simp

/-- The key `a`, with the legacy key. -/
def box : DocumentSecretBox UInt8 where
  activeKeyId := [0x61]
  keys id := if id = [0x61] then some 1 else if id = legacyKeyId then some 2 else none
  activeKey := 1
  keys_active := rfl
  valid_active := by decide

def nonce : Nonce := ⟨List.replicate 12 0, rfl⟩

def tenant : Tenant := ⟨"w", "e"⟩

def legacy (bytes : List UInt8) : List UInt8 := nonce.bytes ++ bytes

/-- The drafts of two templates under the legacy key; that of the first was damaged. -/
def db : Db where
  templates :=
    [⟨"tpl-a", tenant, legacy [9]⟩, ⟨"tpl-b", tenant, legacy [2, 38, 0x7b, 0x7d]⟩]
  revisions := []
  renders := []
  now := 0

def call (limit : Int) : Except DocumentCryptoError RewrapReport × List Update :=
  rewrapPostgresBatch aead box id (fun _ => nonce) (fun _ db => db) db legacyKeyId limit false

end Sample

open Sample

theorem rewrap_progresses_past_damage : (∃ report, (call 2).1 = .ok report ∧
      1 ≤ report.rewrapped + report.concurrentChanges) ∧
    ∀ slot ∈ ((List.replicate 2 fun _ => nonce).foldl (called aead box id legacyKeyId 2)
      db).slots.filter (underKey legacyKeyId), ¬rewrappable aead box id slot := by
  obtain ⟨hcall, hagain⟩ := (rewrap_progresses aead box id (fun _ => nonce) (fun _ db => db) db
    legacyKeyId 2).2 (by decide) (by unfold WellFormed; decide +kernel)
  obtain ⟨report, hok, hiff⟩ := hcall fun _ _ => id
  exact ⟨⟨report, hok, hiff.mpr (by decide +kernel)⟩,
    hagain (by decide +kernel) _ (by decide +kernel)⟩

/-- With a limit of one the damaged draft is the whole batch, for this call and every other. -/
theorem blocked_batch : (∃ slot ∈ db.slots, underKey legacyKeyId slot = true ∧
      readable aead box id slot = true ∧ slot.leased = false) ∧
    (call 1).1 = .ok ⟨2, 1, 0, 0, 1, 2⟩ ∧ (call 1).2.length = 0 := by
  decide +kernel

end Piqae.Server.Rewrap
