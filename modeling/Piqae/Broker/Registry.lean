/-
Piqae/Broker/Registry.lean

The registry of applications of the local broker (`broker.rs` of
`node-runtime`, with the proofs of `local-ipc`).

Every change is written to the disk before it counts; a write may fail, with or
without having replaced the file, and the broker may be restarted at any time.
A proof is accepted while its issue time is at most the skew away, and its nonce
is recorded until the issue time plus the skew: not longer.  At that very instant
the proof is still accepted, and its record is gone.

SHA-256 and the HMAC are parameters.  The replay records are listed in no
particular order, and digests are bytes, not their hexadecimal text.
-/
import Piqae.Base
import Piqae.Lib.Run
import Piqae.Lib.SortedMap

namespace Piqae.Broker

abbrev Bytes := List UInt8

structure BrokerApplicationIdentity where
  applicationId : String
  displayName : String
  signingIdentitySha256 : Option String
deriving DecidableEq, Repr

inductive BrokerCapability
  | observeStatus
  | observePrinters
  | observeJobHistory
  | manageProfiles
  | submitLocalJobs
  | manageConnectors
deriving DecidableEq, Repr

structure ApplicationCapabilities where
  observeStatus : Bool
  observePrinters : Bool
  observeJobHistory : Bool
  manageProfiles : Bool
  submitLocalJobs : Bool
  manageConnectors : Bool
deriving DecidableEq, Repr

namespace ApplicationCapabilities

def allows (granted requested : ApplicationCapabilities) : Bool :=
  (!requested.observeStatus || granted.observeStatus) &&
    (!requested.observePrinters || granted.observePrinters) &&
    (!requested.observeJobHistory || granted.observeJobHistory) &&
    (!requested.manageProfiles || granted.manageProfiles) &&
    (!requested.submitLocalJobs || granted.submitLocalJobs) &&
    (!requested.manageConnectors || granted.manageConnectors)

def none : ApplicationCapabilities := ⟨false, false, false, false, false, false⟩

def requiring : BrokerCapability → ApplicationCapabilities
  | .observeStatus => { none with observeStatus := true }
  | .observePrinters => { none with observePrinters := true }
  | .observeJobHistory => { none with observeJobHistory := true }
  | .manageProfiles => { none with manageProfiles := true }
  | .submitLocalJobs => { none with submitLocalJobs := true }
  | .manageConnectors => { none with manageConnectors := true }

def union (a b : ApplicationCapabilities) : ApplicationCapabilities :=
  ⟨a.observeStatus || b.observeStatus, a.observePrinters || b.observePrinters,
    a.observeJobHistory || b.observeJobHistory, a.manageProfiles || b.manageProfiles,
    a.submitLocalJobs || b.submitLocalJobs, a.manageConnectors || b.manageConnectors⟩

def fromCapabilities (capabilities : List BrokerCapability) : ApplicationCapabilities :=
  capabilities.foldl (fun result capability => result.union (requiring capability)) none

end ApplicationCapabilities

structure DurableApplicationAuthorization where
  identity : BrokerApplicationIdentity
  /-- Missing in documents of old versions. -/
  verifiedPrincipalSha256 : Option String
  capabilities : ApplicationCapabilities
  tokenSha256 : Bytes
  revoked : Bool
deriving DecidableEq, Repr

structure ReplayProof where
  applicationId : String
  nonceSha256 : Bytes
  expiresUnixMs : Int
deriving DecidableEq, Repr

structure BrokerDocument where
  version : Nat
  applications : List DurableApplicationAuthorization
  replayProofs : List ReplayProof

structure BrokerRegistry where
  applications : SortedMap String DurableApplicationAuthorization
  replayProofs : List ReplayProof

/-- The registry, and the document on the disk if there is one. -/
structure Durable where
  registry : BrokerRegistry
  disk : Option BrokerDocument

def Durable.empty : Durable := ⟨⟨.empty, []⟩, none⟩

/-- What becomes of a write: it may have replaced the file and still fail. -/
inductive Write
  | done
  | failed
  | lost
deriving DecidableEq, Repr

def documentVersion : Nat := 3
def maxApplications : Nat := 128
def maxReplayProofs : Nat := 4096
def brokerProofMaxSkewMs : Int := 30000

def isHexDigit (c : Char) : Bool :=
  ('0' ≤ c && c ≤ '9') || ('a' ≤ c && c ≤ 'f') || ('A' ≤ c && c ≤ 'F')

def validPrincipalDigest (value : String) : Bool :=
  value.utf8ByteSize = 64 && value.toList.all isHexDigit

def validIdentity (identity : BrokerApplicationIdentity) : Bool :=
  identity.applicationId ≠ "" && identity.applicationId.utf8ByteSize ≤ 255 &&
    identity.applicationId.toList.all (fun c =>
      ('a' ≤ c && c ≤ 'z') || ('A' ≤ c && c ≤ 'Z') || ('0' ≤ c && c ≤ '9') || c = '.' ||
        c = '-' || c = '_') &&
    identity.displayName ≠ "" && identity.displayName.utf8ByteSize ≤ 128 &&
    identity.signingIdentitySha256.all validPrincipalDigest

/-- The applications of a document by their principals, none of them twice. -/
def loadApplications : List DurableApplicationAuthorization →
    SortedMap String DurableApplicationAuthorization →
    Option (SortedMap String DurableApplicationAuthorization)
  | [], applications => some applications
  | authorization :: rest, applications =>
    let key := authorization.verifiedPrincipalSha256.getD
      ("legacy:" ++ authorization.identity.applicationId)
    if validIdentity authorization.identity &&
        !applications.values.any
          (·.identity.applicationId = authorization.identity.applicationId) &&
        authorization.verifiedPrincipalSha256.all validPrincipalDigest &&
        !applications.contains key then
      loadApplications rest (applications.insert key authorization)
    else none

def load (disk : Option BrokerDocument) (now : Int) : Option BrokerRegistry :=
  let document := disk.getD ⟨documentVersion, [], []⟩
  if document.version ≠ 1 ∧ document.version ≠ 2 ∧ document.version ≠ documentVersion
      ∨ maxApplications < document.applications.length
      ∨ maxReplayProofs < document.replayProofs.length then none
  else (loadApplications document.applications .empty).map fun applications =>
    ⟨applications, document.replayProofs.filter (now < ·.expiresUnixMs)⟩

namespace Durable

variable (d : Durable)

/-- The document on the disk is replaced, unless the write fails before that. -/
def persistState (applications : SortedMap String DurableApplicationAuthorization)
    (replayProofs : List ReplayProof) (write : Write) : Durable :=
  if write = .failed then d
  else { d with disk := some ⟨documentVersion, applications.values, replayProofs⟩ }

section

variable (sha256 : Bytes → Bytes) (hmac : Bytes → List Bytes → String)

/-- An application gets a new token, whose digest is kept. -/
def authorize (identity : BrokerApplicationIdentity) (principal : String)
    (capabilities : ApplicationCapabilities) (token : String) (write : Write) :
    Except String String × Durable :=
  if !validIdentity identity then (.error "invalid broker application identity", d)
  else if !validPrincipalDigest principal then
    (.error "invalid verified broker principal digest", d)
  else if !d.registry.applications.values.any (·.identity.applicationId = identity.applicationId) &&
      maxApplications ≤ d.registry.applications.size then
    (.error "broker application limit reached", d)
  else
    let applications := (d.registry.applications.retain fun _ entry =>
      entry.identity.applicationId ≠ identity.applicationId).insert principal
        ⟨identity, some principal, capabilities, sha256 (asBytes token), false⟩
    let written := d.persistState applications d.registry.replayProofs write
    if write = .done then
      (.ok token, { written with registry := { d.registry with applications := applications } })
    else (.error "write", written)

def revoke (applicationId : String) (write : Write) : Except String Bool × Durable :=
  match d.registry.applications.findEntry? fun _ entry =>
      entry.identity.applicationId = applicationId with
  | none => (.ok false, d)
  | some (principal, entry) =>
    if entry.revoked then (.ok false, d)
    else
      let applications := d.registry.applications.modify principal
        fun entry => { entry with revoked := true }
      let written := d.persistState applications d.registry.replayProofs write
      if write = .done then
        (.ok true, { written with registry := { d.registry with applications := applications } })
      else (.error "write", written)

/-- What a proof is made over; the operation as its JSON text. -/
structure ProofRequest where
  requestId : Uuid
  applicationId : String
  capability : BrokerCapability
  operation : Bytes
  nonce : String
  issuedUnixMs : Int

def capabilityName : BrokerCapability → String
  | .observeStatus => "\"observe_status\""
  | .observePrinters => "\"observe_printers\""
  | .observeJobHistory => "\"observe_job_history\""
  | .manageProfiles => "\"manage_profiles\""
  | .submitLocalJobs => "\"submit_local_jobs\""
  | .manageConnectors => "\"manage_connectors\""

def brokerRequestProof (key : Bytes) (request : ProofRequest) : String :=
  hmac key [asBytes "piqae-broker-request-v4", request.requestId.asBytes,
    asBytes request.applicationId, asBytes (capabilityName request.capability), request.operation,
    asBytes request.nonce, toBeBytes (request.issuedUnixMs % 2 ^ 64).toNat]

/-- The authorisation that the request is made under. -/
def authorization? (request : ProofRequest) (principal : String) :
    Option DurableApplicationAuthorization :=
  (d.registry.applications.get? principal).filter fun entry =>
    !entry.revoked && entry.identity.applicationId = request.applicationId &&
      entry.verifiedPrincipalSha256 = some principal &&
      entry.capabilities.allows (.requiring request.capability)

/-- The key of the response, when the proof is right and its nonce is new. -/
def authenticateProof (request : ProofRequest) (principal proof : String) (now : Int)
    (write : Write) : Except String (Option Bytes) × Durable :=
  if request.applicationId = "" || !validPrincipalDigest principal ||
      request.nonce.utf8ByteSize < 32 || 128 < request.nonce.utf8ByteSize ||
      brokerProofMaxSkewMs < (now - request.issuedUnixMs).natAbs then (.ok none, d)
  else
    match d.authorization? request principal with
    | none => (.ok none, d)
    | some entry =>
      if entry.tokenSha256.length ≠ 32
          ∨ brokerRequestProof hmac entry.tokenSha256 request ≠ proof then (.ok none, d)
      else
        let nonceSha256 := sha256 (asBytes request.nonce)
        let retained := d.registry.replayProofs.filter (now < ·.expiresUnixMs)
        if retained.any (fun record => record.applicationId = request.applicationId &&
              record.nonceSha256 = nonceSha256) || maxReplayProofs ≤ retained.length then
          (.ok none, d)
        else
          let replayProofs := retained ++ [⟨request.applicationId, nonceSha256,
            saturatingAddI64 request.issuedUnixMs brokerProofMaxSkewMs⟩]
          let written := d.persistState d.registry.applications replayProofs write
          if write = .done then
            (.ok (some entry.tokenSha256),
              { written with registry := { d.registry with replayProofs := replayProofs } })
          else (.error "write", written)

end

/-- The broker is restarted, if its registry can be loaded. -/
def restart (now : Int) : Durable :=
  match load d.disk now with
  | none => d
  | some registry => { d with registry := registry }

end Durable

/-- When a proof, and the record of its nonce, expires. -/
def proofExpiry (issuedUnixMs : Int) : Int := saturatingAddI64 issuedUnixMs brokerProofMaxSkewMs

/-- A proof is refused without an effect, or it is recorded among those that have not expired. -/
theorem authenticateProof_cases (sha256 : Bytes → Bytes) (hmac : Bytes → List Bytes → String)
    (d : Durable) (request : Durable.ProofRequest) (principal proof : String) (now : Int)
    (write : Write) :
    d.authenticateProof sha256 hmac request principal proof now write = (.ok none, d) ∨
    ∃ proofs, now ≤ request.issuedUnixMs + brokerProofMaxSkewMs ∧
      proofs = d.registry.replayProofs.filter (now < ·.expiresUnixMs) ++
        [⟨request.applicationId, sha256 (asBytes request.nonce),
          proofExpiry request.issuedUnixMs⟩] ∧
      (∀ record ∈ d.registry.replayProofs, now < record.expiresUnixMs →
        record.applicationId = request.applicationId →
          record.nonceSha256 ≠ sha256 (asBytes request.nonce)) ∧ ((∃ key, write = .done ∧
          d.authenticateProof sha256 hmac request principal proof now write = (.ok (some key),
            { d.persistState d.registry.applications proofs .done with
              registry := ⟨d.registry.applications, proofs⟩ })) ∨
        d.authenticateProof sha256 hmac request principal proof now write = (.error "write",
          d.persistState d.registry.applications proofs write)) := by
  generalize hres : d.authenticateProof sha256 hmac request principal proof now write = result
  unfold Durable.authenticateProof at hres
  split at hres
  · exact .inl hres.symm
  rename_i hvalid
  split at hres
  · exact .inl hres.symm
  rename_i entry _
  split at hres
  · exact .inl hres.symm
  dsimp only at hres
  split at hres
  · exact .inl hres.symm
  rename_i hreplayed
  have hskew : ¬brokerProofMaxSkewMs < (now - request.issuedUnixMs).natAbs := fun hskew =>
    hvalid (Bool.or_eq_true_iff.mpr (.inr (decide_eq_true hskew)))
  refine .inr ⟨_, by omega, rfl, fun record hrec hnow happ hnonce => hreplayed ?_, ?_⟩
  · refine Bool.or_eq_true_iff.mpr (.inl (List.any_eq_true.mpr ⟨record,
      List.mem_filter.mpr ⟨hrec, decide_eq_true hnow⟩, ?_⟩))
    simp [happ, hnonce]
  · split at hres
    · rename_i hdone
      subst hdone
      exact .inl ⟨entry.tokenSha256, rfl, hres.symm⟩
    · exact .inr hres.symm

/-! An application with its digests and a proof of it. -/

namespace Sample

def identity : BrokerApplicationIdentity := ⟨"com.example.pos", "Till", none⟩

/-- The digest of the signed application. -/
def principal : String := "4bf5122f344554c53bde2ebb8cd2b7e3d1600ad631c385a5d7cce23c7785459a"

def token : String := "AAECAwQFBgcICQoLDA0ODxAREhMUFRYXGBkaGxwdHh8"

def otherToken : String := "ICEiIyQlJicoKSorLC0uLzAxMjM0NTY3ODk6Ozw9Pj8"

def nonce : String := "BwcHBwcHBwcHBwcHBwcHBwcHBwcHBwcHBwcHBwcHBwc"

/-- The digest of the token. -/
def key : Bytes := [
  0xea, 0x86, 0x6a, 0x75, 0x7e, 0x4c, 0x38, 0xba, 0xbf, 0xa8, 0x12, 0x7c, 0xbe, 0x9a, 0x40, 0x9d,
  0x3e, 0x1f, 0x93, 0xa0, 0x0f, 0xf1, 0x48, 0x8f, 0xf7, 0x35, 0xfc, 0xf9, 0x17, 0xaf, 0xff, 0xd0]

def hash (bytes : Bytes) : Bytes :=
  if bytes = asBytes token then key
  else if bytes = asBytes nonce then [
    0xdc, 0x4b, 0xf8, 0x0c, 0x77, 0x47, 0x3d, 0x13, 0x0f, 0xa0, 0xde, 0x86, 0xba, 0x40, 0x18, 0xfe,
    0x98, 0xbb, 0x21, 0x40, 0x05, 0xe6, 0xa5, 0x89, 0x1d, 0x12, 0xba, 0x91, 0x44, 0x6f, 0x9e, 0x81]
  else if bytes = asBytes otherToken then [
    0xcf, 0x09, 0x31, 0xe1, 0x68, 0xb4, 0x9e, 0x98, 0x75, 0x03, 0xca, 0xf1, 0x8a, 0xf6, 0xfe, 0x25,
    0x3b, 0x6b, 0x3d, 0x82, 0xa8, 0x10, 0x08, 0xc3, 0xe8, 0xe1, 0xee, 0x67, 0xc7, 0xc8, 0xdc, 0x55]
  else []

/-- The proof of the request under the key. -/
def proof : String := "QgyHq04WXBu2t4ejMpEOYNab4vTA1qHaQQ36HLBNYpo"

def mac (k : Bytes) (_ : List Bytes) : String := if k = key then proof else ""

def request : Durable.ProofRequest :=
  ⟨0, "com.example.pos", .observeStatus, asBytes "\x7b\"type\":\"status\"\x7d", nonce, 0⟩

end Sample

end Piqae.Broker
