/-
Piqae/Content/Keyring.lean

The private keys that the agent decrypts documents with, where they are kept
in files.  A key is generated into the legacy key file, copied to a
generation file under its own identifier, and named as the active one by the
manifest, after which the legacy file is removed.  A rotation writes the
generation file of a new key and a manifest that names it before the others.

The manifest is replaced by a rename, and so is there as a whole or not at
all.  The key files are created under their own names and then written, so a
crash in between leaves a file with a part of its bytes, and nothing ever
replaces that file.  For a new generation this is harmless, since the next
rotation has another key and another name.  For the legacy file and the
generation of the first key it is not: every later start finds the file,
cannot read it and fails.
-/
import Piqae.Base
import Piqae.Lib.Durable
import Piqae.Lib.Run
import Piqae.Lib.SortedMap

namespace Piqae.Content

/-- What the key store uses of the cryptographic libraries: the text of a key in a file, reading
it, the identifier of a key, and the hash of an identity. -/
structure Crypto (Key : Type) where
  encode : Key → List Char
  decode : List Char → Option Key
  keyId : Key → String
  identityHash : String → String
  decode_encode : ∀ key, decode (encode key) = some key
  keyId_ne : ∀ key, keyId key ≠ ""

structure KeyringManifest where
  version : Nat
  identityHash : String
  activeKeyId : String
  decryptOnlyKeyIds : List String
  deriving DecidableEq, Repr

def KeyringManifest.ids (manifest : KeyringManifest) : List String :=
  manifest.activeKeyId :: manifest.decryptOnlyKeyIds

structure ContentKeyring (Key : Type) where
  activeKeyId : String
  keys : SortedMap String Key
  decryptOnlyKeyIds : List String

/-- The key files. -/
inductive Path where
  | legacy
  | generation (id : String)
  deriving DecidableEq, Repr

/-- The directory; temporary files of manifests have names of their own and are left out. -/
structure Disk where
  files : Path → Option (List Char)
  manifest : Option KeyringManifest

def Disk.set (disk : Disk) (path : Path) (text : Option (List Char)) : Disk :=
  { disk with files := fun other => if other = path then text else disk.files other }

/-- What is left of an interrupted write: no file, or one with so many characters. -/
abbrev Torn := Option Nat

abbrev Action (α : Type) := Durable Disk Torn String α

def manifestVersion : Nat := 1

def maxGenerations : Nat := 8

section

variable {Key : Type} [DecidableEq Key] (crypto : Crypto Key) (identity : String)

/-! ### Reading -/

def loadPrivateFile (path : Path) (disk : Disk) : Except String Key :=
  match disk.files path with
  | none => .error "inspect content encryption key"
  | some text =>
    match crypto.decode text with
    | none => .error "decode content encryption key"
    | some key => .ok key

def loadGenerations (disk : Disk) : List String → Except String (SortedMap String Key)
  | [] => .ok .empty
  | id :: ids => do
    let key ← loadPrivateFile crypto (.generation id) disk
    if crypto.keyId key ≠ id then
      .error "content-key generation does not match its manifest identifier"
    else return (← loadGenerations disk ids).insert id key

/-- The identifiers are sorted in the source, to find duplicates. -/
def loadManifestKeyring (disk : Disk) : Except String (ContentKeyring Key) :=
  match disk.manifest with
  | none => .error "inspect content-key manifest"
  | some manifest =>
    if manifest.version ≠ manifestVersion ∨ manifest.identityHash ≠ crypto.identityHash identity ∨
        manifest.activeKeyId = "" ∨ maxGenerations < manifest.decryptOnlyKeyIds.length + 1 then
      .error "content-key manifest is invalid or belongs to another node identity"
    else if ¬manifest.ids.Nodup then
      .error "content-key manifest contains duplicate generations"
    else do
      let keys ← loadGenerations crypto disk manifest.ids
      return ⟨manifest.activeKeyId, keys, manifest.decryptOnlyKeyIds⟩

/-! ### Writing -/

/-- The file is created, written and synced; a crash on the way leaves a part of it. -/
def writeNewSecretFile (path : Path) (secret : List Char) : Action Unit := do
  Durable.read fun disk => if (disk.files path).isSome then .error "create key file" else .ok ()
  Durable.effect (fun disk => disk.set path (some secret)) fun torn disk =>
    match torn with
    | none => disk
    | some n => disk.set path (some (secret.take n))

def loadOrCreateLegacyPrivate (generated : Key) : Action Key := do
  if ← Durable.read fun disk => .ok (disk.files .legacy).isSome then
    Durable.read (loadPrivateFile crypto .legacy)
  else
    writeNewSecretFile .legacy (crypto.encode generated)
    return generated

def writeIfAbsent (path : Path) (secret : List Char) : Action Unit := do
  if ← Durable.read fun disk => .ok (disk.files path).isSome then return ()
  else writeNewSecretFile path secret

/-- The stored key is read and compared, whether it was there before or not. -/
def persistGeneration (id : String) (key : Key) : Action Unit := do
  writeIfAbsent (.generation id) (crypto.encode key)
  let stored ← Durable.read (loadPrivateFile crypto (.generation id))
  Durable.read fun _ =>
    if stored ≠ key then .error "stored content-key generation differs from the requested key"
    else .ok ()

/-- A temporary file is written and then renamed; the encoding never exceeds the size limit. -/
def writeManifestAtomic (manifest : KeyringManifest) : Action Unit := do
  Durable.effect id fun _ disk => disk
  Durable.effect (fun disk => { disk with manifest := some manifest }) fun _ disk => disk
  Durable.read fun disk =>
    if disk.manifest ≠ some manifest then
      .error "persisted content-key manifest failed verification"
    else .ok ()

def removeVerifiedLegacyFile (key : Key) : Action Unit := do
  if ← Durable.read fun disk => .ok (disk.files .legacy).isSome then
    let existing ← Durable.read (loadPrivateFile crypto .legacy)
    Durable.read fun _ =>
      if existing ≠ key then
        .error "legacy content key differs from persisted generation; refusing removal"
      else .ok ()
    Durable.effect (fun disk => disk.set .legacy none) fun _ disk => disk

/-- The part of `load_or_create` that may create a key, while there is no manifest. -/
def create (generated : Key) : Action (ContentKeyring Key) := do
  let key ← loadOrCreateLegacyPrivate crypto generated
  persistGeneration crypto (crypto.keyId key) key
  writeManifestAtomic
    ⟨manifestVersion, crypto.identityHash identity, crypto.keyId key, []⟩
  removeVerifiedLegacyFile crypto key
  Durable.read (loadManifestKeyring crypto identity)

def blank (identity : String) : Bool := trimText identity = ""

def loadOrCreate (generated : Key) : Action (ContentKeyring Key) := do
  Durable.read fun _ =>
    if blank identity then .error "content-key identity must not be empty" else .ok ()
  if ← Durable.read fun disk => .ok disk.manifest.isSome then
    Durable.read (loadManifestKeyring crypto identity)
  else create crypto identity generated

/-- `rotate`, with the key generated for an empty directory and that of the new generation. -/
def rotate (generated next : Key) : Action (ContentKeyring Key) := do
  let current ← loadOrCreate crypto identity generated
  Durable.read fun _ =>
    if maxGenerations ≤ current.keys.size then
      .error "content-key generation cap reached; refusing to discard a decryption key"
    else .ok ()
  persistGeneration crypto (crypto.keyId next) next
  writeManifestAtomic
    ⟨manifestVersion, crypto.identityHash identity, crypto.keyId next,
      current.activeKeyId :: current.decryptOnlyKeyIds⟩
  Durable.read (loadManifestKeyring crypto identity)

end

/-! ### What the steps do -/

variable {Key : Type} [DecidableEq Key] {crypto : Crypto Key} {identity : String}
  {A : Torn → Prop} {P Q E C : Disk → Prop} {path : Path} {disk : Disk} {key : Key}

omit [DecidableEq Key] in
theorem Crypto.encode_injective : Function.Injective crypto.encode := by
  intro key other h
  have hdec := congrArg crypto.decode h
  rw [crypto.decode_encode, crypto.decode_encode] at hdec
  exact Option.some.inj hdec

@[simp] theorem Disk.set_self (disk : Disk) (path : Path) (text : Option (List Char)) :
    (disk.set path text).files path = text := if_pos rfl

@[simp] theorem Disk.set_other {other : Path} {text : Option (List Char)} (h : other ≠ path) :
    (disk.set path text).files other = disk.files other := if_neg h

@[simp] theorem Disk.set_manifest (disk : Disk) (path : Path) (text : Option (List Char)) :
    (disk.set path text).manifest = disk.manifest := rfl

omit [DecidableEq Key] in
theorem loadPrivateFile_eq (h : disk.files path = some (crypto.encode key)) :
    loadPrivateFile crypto path disk = .ok key := by
  simp only [loadPrivateFile, h, crypto.decode_encode]

open Durable

theorem writeNewSecretFile_spec {secret : List Char} (habs : ∀ s, P s → s.files path = none)
    (hP : ∀ s, P s → C s) (htorn : ∀ s n, P s → A (some n) → C (s.set path (some (secret.take n))))
    (hset : ∀ s, P s → Q (s.set path (some secret))) :
    Spec A P (writeNewSecretFile path secret) (fun _ => Q) E C := by
  refine .bind (R := fun _ => P) (.read fun s hs => .inl ⟨(), ?_, hs⟩) fun _ => ?_
  · simp [habs s hs]
  · refine .effect hset ?_
    intro torn s hA hs
    cases torn with
    | none => exact hP s hs
    | some n => exact htorn s n hs hA

/-- The generation is written unless it is there, and there afterwards. -/
theorem persistGeneration_spec {id : String}
    (hwhole : ∀ s, P s → ∀ text, s.files (.generation id) = some text → text = crypto.encode key)
    (hP : ∀ s, P s → C s) (htorn : ∀ s n, P s → A (some n) → s.files (.generation id) = none →
      C (s.set (.generation id) (some ((crypto.encode key).take n))))
    (hset : ∀ s, P s → s.files (.generation id) = none →
      Q (s.set (.generation id) (some (crypto.encode key))))
    (hkeep : ∀ s, P s → s.files (.generation id) = some (crypto.encode key) → Q s) :
    Spec A P (persistGeneration crypto id key)
      (fun _ s => Q s ∧ s.files (.generation id) = some (crypto.encode key)) E C := by
  have hwrite : Spec A P (writeIfAbsent (.generation id) (crypto.encode key))
      (fun _ s => Q s ∧ s.files (.generation id) = some (crypto.encode key)) E C := by
    refine .of_eq fun s hs => ?_
    cases hfile : s.files (.generation id) with
    | none =>
      refine .bind_read (a := false) (by simp [hfile]) ?_
      refine writeNewSecretFile_spec (C := C) (by rintro _ rfl; exact hfile)
        (by rintro _ rfl; exact hP _ hs) ?_ ?_
      · rintro _ n rfl hA
        exact htorn _ n hs hA hfile
      · rintro _ rfl
        exact ⟨hset _ hs hfile, by simp⟩
    | some text =>
      obtain rfl := hwhole s hs text hfile
      refine .bind_read (a := true) (by simp [hfile]) (.pure ?_)
      rintro _ rfl
      exact ⟨hkeep _ hs hfile, hfile⟩
  refine .bind hwrite fun _ => .of_eq fun s hs => ?_
  refine .bind_read (loadPrivateFile_eq hs.2) (.read ?_)
  rintro _ rfl
  exact .inl ⟨(), by simp, hs⟩

theorem writeManifestAtomic_spec {manifest : KeyringManifest} (hP : ∀ s, P s → C s)
    (hset : ∀ s, P s → Q { s with manifest := some manifest }) :
    Spec A P (writeManifestAtomic manifest) (fun _ s => Q s ∧ s.manifest = some manifest) E C := by
  refine .bind (R := fun _ => P) (.effect (fun s hs => hs) fun _ s _ hs => hP s hs) fun _ => ?_
  refine .bind (R := fun _ s => Q s ∧ s.manifest = some manifest)
    (.effect (fun s hs => ⟨hset s hs, rfl⟩) fun _ s _ hs => hP s hs) fun _ => ?_
  refine .read fun s hs => .inl ⟨(), ?_, hs⟩
  simp [hs.2]

end Piqae.Content
