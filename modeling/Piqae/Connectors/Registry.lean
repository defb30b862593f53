/-
Piqae/Connectors/Registry.lean

The registry of connectors of an installation and the clean-up of their
keys.  A connector signs with a key that a secure store keeps; the registry
knows keys by their handles only.  A handle is prepared for an invitation,
becomes that of a connector, and is put on the clean-up list when its
invitation lapses or its connector is revoked at the control plane.  What is
on the list is deleted from the secure store (`retry_secure_cleanup`).

Every operation builds the next registry, has it checked and written
(`persist_all`), and only then takes it over.  So an operation is a function
from an installation, which is the document on disk and the registry in
memory, and one lemma (`persistAll_ok`) says what a successful one leaves.
-/
import Piqae.Lib.Run
import Piqae.Lib.SortedMap

namespace Piqae.Connectors

/-! ### Records -/

abbrev SecureKeyHandle := String

inductive PrinterGrant where
  | selectedPrinters
  | allLocalPrinters
  deriving DecidableEq, Repr

/-- A parsed URL, by what the checks of a record read of it. -/
structure Url where
  scheme : String
  host : Option String
  username : String
  password : Option String
  fragment : Option String
  deriving DecidableEq, Repr

/-- A component of a path. -/
inductive Component where
  | normal (name : String)
  | curDir
  | parentDir
  | rootDir
  | drive (name : String)
  deriving DecidableEq, Repr

structure ConnectorRecord where
  connectorId : String
  agentId : String
  controlPlaneUrl : Url
  manageUrl : Option Url
  deviceKeyFile : Option (List Component)
  secureKeyHandle : Option SecureKeyHandle
  enabled : Bool
  printerGrant : PrinterGrant
  allowedPrinterIds : List String
  nodeIdentityRevision : Option Nat
  nodeIdentityAppliedLocalRevision : Option Nat
  nodeIdentityConflictRevision : Option Nat
  nodeIdentityConflictLocalRevision : Option Nat
  deriving DecidableEq, Repr

def maxConnectors : Nat := 128

def startsWith (text start : String) : Bool := start.toList <+: text.toList

def loopbackHost (host : Option String) : Bool :=
  host = some "localhost" ∨ host = some "127.0.0.1" ∨ host = some "::1"

def unsafeManageUrl (url : Url) : Bool :=
  (url.scheme ≠ "https" ∧ ¬(url.scheme = "http" ∧ loopbackHost url.host)) ∨ url.username ≠ "" ∨
    url.password.isSome ∨ url.fragment.isSome

/-- The path of a device key leaves the data directory of the installation. -/
def outsideDirectory (path : List Component) : Bool :=
  path.any fun component => match component with
    | .parentDir | .rootDir | .drive _ => true
    | _ => false

def invalidPrinterGrants (record : ConnectorRecord) : Bool :=
  (record.printerGrant = .selectedPrinters ∧ record.allowedPrinterIds = []) ∨
    (record.printerGrant = .allLocalPrinters ∧ record.allowedPrinterIds ≠ []) ∨
    128 < record.allowedPrinterIds.length ∨
    (∃ id ∈ record.allowedPrinterIds, id = "" ∨ 128 < id.utf8ByteSize) ∨
    ¬record.allowedPrinterIds.Nodup

def invalidReconciliation (record : ConnectorRecord) : Bool :=
  (some 0 ∈ [record.nodeIdentityRevision, record.nodeIdentityAppliedLocalRevision,
      record.nodeIdentityConflictRevision, record.nodeIdentityConflictLocalRevision]) ∨
    record.nodeIdentityConflictRevision.isSome ≠ record.nodeIdentityConflictLocalRevision.isSome

/-- The characters of a text are gone through, not all that there are. -/
instance decidableForallChar (p : Char → Prop) [DecidablePred p] (text : List Char) :
    Decidable (∀ c ∈ text, p c) :=
  List.decidableBAll p text

def validateRecord (record : ConnectorRecord) : Except String Unit :=
  if 128 < record.connectorId.utf8ByteSize ∨ !startsWith record.connectorId "ncon_" ∨
      ¬∀ c ∈ record.connectorId.toList, c.isAlphanum ∨ c = '_' then
    .error "invalid connector id"
  else if 128 < record.agentId.utf8ByteSize ∨ !startsWith record.agentId "agt_" then
    .error "invalid agent id"
  else if record.controlPlaneUrl.scheme ≠ "https" ∧ record.controlPlaneUrl.scheme ≠ "http" then
    .error "unsupported control-plane URL scheme"
  else if record.manageUrl.any unsafeManageUrl then
    .error "connector management URL is not operator-safe"
  else if record.controlPlaneUrl.scheme = "http" ∧ !loopbackHost record.controlPlaneUrl.host then
    .error "plaintext control-plane URLs are allowed only for loopback development"
  else if record.deviceKeyFile.isSome = record.secureKeyHandle.isSome then
    .error "connector must have exactly one secure signing credential"
  else if record.deviceKeyFile.any outsideDirectory then
    .error "device key path must remain inside the installation data directory"
  else if invalidPrinterGrants record then .error "invalid connector printer grants"
  else if invalidReconciliation record then
    .error "invalid connector node identity reconciliation state"
  else .ok ()

/-- `allowed_printer_ids.sort()` -/
def ConnectorRecord.sorted (record : ConnectorRecord) : ConnectorRecord :=
  { record with allowedPrinterIds := record.allowedPrinterIds.mergeSort }

theorem mergeSort_sorted (ids : List String) : ids.mergeSort.Pairwise (· ≤ ·) := by
  have hsort : ids.mergeSort.Pairwise fun a b => decide (a ≤ b) = true := by
    apply List.pairwise_mergeSort
    · intro a b c hab hbc
      simp only [decide_eq_true_eq] at hab hbc ⊢
      exact le_trans hab hbc
    · intro a b
      simpa using le_total a b
  exact hsort.imp of_decide_eq_true

theorem validateRecord_sorted (record : ConnectorRecord) :
    validateRecord record.sorted = validateRecord record := by
  have hperm := List.mergeSort_perm record.allowedPrinterIds fun a b => decide (a ≤ b)
  have hgr : invalidPrinterGrants record.sorted = invalidPrinterGrants record := by
    have hnil : record.allowedPrinterIds.mergeSort = [] ↔ record.allowedPrinterIds = [] :=
      ⟨fun h => (h ▸ hperm).nil_eq.symm, fun h => by simp [h]⟩
    simp only [invalidPrinterGrants, ConnectorRecord.sorted, ne_eq, hnil, hperm.length_eq,
      hperm.mem_iff, hperm.nodup_iff]
  unfold validateRecord
  rw [hgr]
  rfl

theorem sorted_sorted (record : ConnectorRecord) : record.sorted.sorted = record.sorted := by
  have hsame : record.allowedPrinterIds.mergeSort.mergeSort = record.allowedPrinterIds.mergeSort :=
    List.mergeSort_of_pairwise ((mergeSort_sorted record.allowedPrinterIds).imp decide_eq_true)
  simp only [ConnectorRecord.sorted, hsame]

/-! ### The registry and its document -/

structure PreparedConnectorKey where
  handle : SecureKeyHandle
  publicKey : List UInt8
  expiresUnixMs : Int
  deriving DecidableEq, Repr

structure InstallationSigningIdentity where
  installationId : String
  handle : SecureKeyHandle
  publicKey : List UInt8
  deriving DecidableEq, Repr

abbrev Records := SortedMap String ConnectorRecord

structure ConnectorRegistry where
  records : Records
  preparedKeys : List PreparedConnectorKey
  keyCleanup : List SecureKeyHandle
  /-- A set of connector ids. -/
  remoteRevoked : SortedMap String Unit
  installationIdentity : Option InstallationSigningIdentity
  deriving DecidableEq

structure ConnectorRegistryDocument where
  version : Nat
  connectors : List ConnectorRecord
  preparedKeys : List PreparedConnectorKey
  keyCleanup : List SecureKeyHandle
  remoteRevoked : List String
  installationIdentity : Option InstallationSigningIdentity
  deriving DecidableEq

def registryVersion : Nat := 1

def validateKeyState (records : Records) (prepared : List PreparedConnectorKey)
    (cleanup : List SecureKeyHandle) : Except String Unit :=
  if maxConnectors < prepared.length ∨ maxConnectors * 2 < cleanup.length then
    .error "connector key state exceeds supported bounds"
  else if ∃ pending ∈ prepared, (∃ record ∈ records.values,
      record.secureKeyHandle = some pending.handle) ∨ pending.handle ∈ cleanup then
    .error "connector key state overlaps active or cleanup state"
  else .ok ()

/-- A connector was revoked at the control plane that is not there, or is enabled. -/
def mismatchedRevocation (records : Records) (remoteRevoked : SortedMap String Unit) : Bool :=
  remoteRevoked.keys.any fun id => (records.get? id).all (·.enabled)

namespace ConnectorRegistry

def empty : ConnectorRegistry := ⟨.empty, [], [], .empty, none⟩

def activeHandle (r : ConnectorRegistry) (handle : SecureKeyHandle) : Bool :=
  r.records.values.any fun record => record.enabled && record.secureKeyHandle = some handle

def handleIsKnown (r : ConnectorRegistry) (handle : SecureKeyHandle) : Bool :=
  (r.records.values.any fun record => record.secureKeyHandle = some handle) ||
    (r.preparedKeys.any fun pending => pending.handle = handle) ||
    r.keyCleanup.contains handle ||
    r.installationIdentity.any fun identity => identity.handle = handle

def document (r : ConnectorRegistry) : ConnectorRegistryDocument :=
  ⟨registryVersion, r.records.values, r.preparedKeys, r.keyCleanup, r.remoteRevoked.keys,
    r.installationIdentity⟩

end ConnectorRegistry

def loadRecords (records : Records) : List ConnectorRecord → Except String Records
  | [] => .ok records
  | record :: rest => do
    validateRecord record
    if records.contains record.connectorId then
      .error "connector registry contains a duplicate connector id"
    else loadRecords (records.insert record.connectorId record.sorted) rest

/-- `ConnectorRegistry::load`; no file is a document with nothing in it. -/
def load : Option ConnectorRegistryDocument → Except String ConnectorRegistry
  | none => .ok .empty
  | some document =>
    if document.version ≠ registryVersion then .error "unsupported connector registry version"
    else if maxConnectors < document.connectors.length then
      .error "connector registry exceeds the connector limit"
    else do
      let records ← loadRecords .empty document.connectors
      validateKeyState records document.preparedKeys document.keyCleanup
      let remoteRevoked := document.remoteRevoked.foldl (fun set id => set.insert id ()) .empty
      if mismatchedRevocation records remoteRevoked then
        .error "remote revocation state does not match a disabled connector"
      else .ok ⟨records, document.preparedKeys, document.keyCleanup, remoteRevoked,
        document.installationIdentity⟩

/-! ### The operations -/

/-- The document on disk and the registry in memory. -/
structure Installation where
  disk : Option ConnectorRegistryDocument
  registry : ConnectorRegistry
  deriving DecidableEq

/-- `persist_all`, after which the caller takes the registry over.  The write fails before it has
an effect when `written` is false. -/
def persistAll (candidate : ConnectorRegistry) (written : Bool) : Except String Installation :=
  if maxConnectors < candidate.records.size then
    .error "connector registry exceeds the connector limit"
  else do
    validateKeyState candidate.records candidate.preparedKeys candidate.keyCleanup
    if mismatchedRevocation candidate.records candidate.remoteRevoked then
      .error "remote revocation state does not match a disabled connector"
    else if written then .ok ⟨some candidate.document, candidate⟩
    else .error "connector registry replacement failed"

namespace Installation

variable (i : Installation)

def setInstallationIdentityOnce (identity : InstallationSigningIdentity) (written : Bool) :
    Except String Installation :=
  if i.registry.installationIdentity.isSome ∨ i.registry.handleIsKnown identity.handle then
    .error "installation signing identity already exists or reuses a connector key"
  else if !startsWith identity.installationId "ins_" ∨
      128 < identity.installationId.utf8ByteSize then
    .error "invalid installation identity"
  else persistAll { i.registry with installationIdentity := some identity } written

def registerPreparedKey (handle : SecureKeyHandle) (publicKey : List UInt8) (expiresUnixMs : Int)
    (now : Int) (written : Bool) : Except String Installation :=
  if expiresUnixMs ≤ now ∨ i.registry.handleIsKnown handle then
    .error "prepared connector key is invalid or already known"
  else persistAll { i.registry with
    preparedKeys := i.registry.preparedKeys ++ [⟨handle, publicKey, expiresUnixMs⟩] } written

def completePrepared (record : ConnectorRecord) (now : Int) (written : Bool) :
    Except String Installation := do
  validateRecord record
  match record.secureKeyHandle with
  | none => .error "embedded connector has no secure key handle"
  | some handle =>
    match i.registry.preparedKeys.find? fun pending => pending.handle = handle with
    | none => .error "connector key was not prepared by this runtime"
    | some pending =>
      if pending.expiresUnixMs ≤ now then .error "connector key preparation expired"
      else if i.registry.records.contains record.connectorId then
        .error "connector already exists"
      else
        let prepared := i.registry.preparedKeys.eraseP fun pending => pending.handle = handle
        persistAll { i.registry with
          records := i.registry.records.insert record.connectorId record.sorted
          preparedKeys := prepared } written

/-- A handle is put on the clean-up list once. -/
def pushCleanup (cleanup : List SecureKeyHandle) (handle : SecureKeyHandle) :
    List SecureKeyHandle :=
  if handle ∈ cleanup then cleanup else cleanup ++ [handle]

def cancelPreparedKey (handle : SecureKeyHandle) (written : Bool) :
    Except String (Bool × Installation) :=
  match i.registry.preparedKeys.find? fun pending => pending.handle = handle with
  | none => .ok (false, i)
  | some removed => do
    let saved ← persistAll { i.registry with
      preparedKeys := i.registry.preparedKeys.eraseP fun pending => pending.handle = handle
      keyCleanup := pushCleanup i.registry.keyCleanup removed.handle } written
    return (true, saved)

def expirePreparedKeys (now : Int) (written : Bool) : Except String (Nat × Installation) :=
  let expired := i.registry.preparedKeys.filter fun pending => pending.expiresUnixMs ≤ now
  if expired.isEmpty then .ok (0, i)
  else do
    let saved ← persistAll { i.registry with
      preparedKeys := i.registry.preparedKeys.filter fun pending => ¬pending.expiresUnixMs ≤ now
      keyCleanup := (expired.map (·.handle)).foldl pushCleanup i.registry.keyCleanup } written
    return (expired.length, saved)

def confirmRemoteRevocation (connectorId : String) (written : Bool) :
    Except String (Bool × Installation) :=
  match i.registry.records.get? connectorId with
  | none => .error "connector was not found"
  | some record =>
    if record.enabled then .error "active connector cannot confirm remote revocation"
    else if i.registry.remoteRevoked.contains connectorId then .ok (false, i)
    else do
      let saved ← persistAll { i.registry with
        remoteRevoked := i.registry.remoteRevoked.insert connectorId ()
        keyCleanup := record.secureKeyHandle.elim i.registry.keyCleanup
          (pushCleanup i.registry.keyCleanup) } written
      return (true, saved)

def confirmKeyCleanup (handle : SecureKeyHandle) (written : Bool) :
    Except String (Bool × Installation) :=
  if i.registry.activeHandle handle then .error "refusing to clean up an active connector key"
  else if handle ∉ i.registry.keyCleanup then .ok (false, i)
  else do
    let saved ← persistAll { i.registry with
      keyCleanup := i.registry.keyCleanup.erase handle } written
    return (true, saved)

def add (record : ConnectorRecord) (written : Bool) : Except String Installation := do
  validateRecord record
  if maxConnectors ≤ i.registry.records.size then .error "connector limit reached"
  else if i.registry.records.contains record.connectorId then .error "connector already exists"
  else persistAll { i.registry with
    records := i.registry.records.insert record.connectorId record.sorted } written

def revoke (connectorId : String) (written : Bool) : Except String (Bool × Installation) :=
  match i.registry.records.get? connectorId with
  | none => .ok (false, i)
  | some record =>
    if !record.enabled then .ok (false, i)
    else do
      let saved ← persistAll { i.registry with
        records := i.registry.records.insert connectorId { record with enabled := false } } written
      return (true, saved)

/-- `replace`, with the record that was there. -/
def replace (record : ConnectorRecord) (written : Bool) :
    Except String (ConnectorRecord × Installation) := do
  validateRecord record
  match i.registry.records.get? record.connectorId with
  | none => .error "connector was not found"
  | some previous =>
    let saved ← persistAll { i.registry with
      records := i.registry.records.insert record.connectorId record.sorted
      remoteRevoked := i.registry.remoteRevoked.erase previous.connectorId } written
    return (previous, saved)

end Installation

end Piqae.Connectors
