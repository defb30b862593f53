/-
Piqae/Route/Identity.lean

Physical identity of printer routes (`route_coordinator.rs`, the free
functions at the end of the file, and the evidence types of the protocol
crate): the opaque route id of an OS queue, the canonical evidence list, the
key of the serialization group a route belongs to, and the digests that name
replay barriers and local ambiguities.

SHA-256 and the JSON encoders are third-party code.  They are the fields of
`Encoders`; nothing is assumed of them here.
-/
import Piqae.Base

namespace Piqae

/-! ### Evidence -/

inductive PhysicalIdentityEvidenceKind
  | ippPrinterUuid
  | deviceSerial
  | usbSerial
  | certificateKey
  | networkMac
  | networkEndpoint
  | manufacturerModel
  | capabilityFingerprint
  | driverFingerprint
deriving DecidableEq, Repr

/-- The discriminant, as the cast `kind as u8` reads it. -/
def PhysicalIdentityEvidenceKind.asU8 : PhysicalIdentityEvidenceKind → UInt8
  | ippPrinterUuid => 0
  | deviceSerial => 1
  | usbSerial => 2
  | certificateKey => 3
  | networkMac => 4
  | networkEndpoint => 5
  | manufacturerModel => 6
  | capabilityFingerprint => 7
  | driverFingerprint => 8

inductive IdentityEvidenceStrength
  | strong
  | medium
  | weak
deriving DecidableEq, Repr

inductive IdentityConfidence
  | verified
  | high
  | possible
  | conflict
  | unknown
deriving DecidableEq, Repr

structure PhysicalIdentityEvidence where
  kind : PhysicalIdentityEvidenceKind
  valueSha256 : String
  strength : IdentityEvidenceStrength
deriving DecidableEq, Repr

structure DriverFingerprint where
  platform : String
  driverName : String
  driverVersion : Option String
  architecture : Option String
  nativeQueueId : String
  deviceFingerprint : Option String
  driverPackageFingerprint : Option String
  firmwareVersion : Option String
deriving DecidableEq, Repr

/-- A printer as discovery reports it, with the fields the coordinator reads. -/
structure DiscoveredPrinter where
  nativeId : String
  driverFingerprint : Option DriverFingerprint
  identityEvidence : List PhysicalIdentityEvidence
deriving DecidableEq, Repr

/-- The third-party encoders: the lower-case hex text of a SHA-256 digest and
the JSON bytes of the two values that are hashed. -/
structure Encoders where
  sha256Hex : List UInt8 → String
  driverJson : DriverFingerprint → Option (List UInt8)
  evidenceJson : List PhysicalIdentityEvidence → Option (List UInt8)

def isAsciiHexdigit (b : UInt8) : Bool :=
  (48 ≤ b && b ≤ 57) || (97 ≤ b && b ≤ 102) || (65 ≤ b && b ≤ 70)

/-- The order of `sort_by_key` on the pair of kind and value. -/
def evidenceLe (a b : PhysicalIdentityEvidence) : Prop :=
  a.kind.asU8 < b.kind.asU8 ∨ a.kind.asU8 = b.kind.asU8 ∧ a.valueSha256 ≤ b.valueSha256

instance : DecidableRel evidenceLe := fun a b => by unfold evidenceLe; infer_instance

/-- Two items of evidence that deduplication keeps apart. -/
def evidenceDiffers (a b : PhysicalIdentityEvidence) : Prop :=
  ¬ (a.kind = b.kind ∧ a.valueSha256 = b.valueSha256)

instance : DecidableRel evidenceDiffers := fun a b => by unfold evidenceDiffers; infer_instance

section

variable (enc : Encoders)

/-- The evidence of a printer: well-formed hashes and the driver's, sorted,
without repetition, at most sixteen. -/
def canonicalEvidence (printer : DiscoveredPrinter) : List PhysicalIdentityEvidence :=
  let supplied := printer.identityEvidence.filter fun item =>
    (asBytes item.valueSha256).length == 64 && (asBytes item.valueSha256).all isAsciiHexdigit
  let driver := match printer.driverFingerprint with
    | some driver => match enc.driverJson driver with
      | some encoded =>
        [⟨.driverFingerprint, enc.sha256Hex encoded, .medium⟩]
      | none => []
    | none => []
  (((supplied ++ driver).insertionSort evidenceLe).destutter evidenceDiffers).take 16

/-- A medium-strength network endpoint. -/
def isEndpoint (item : PhysicalIdentityEvidence) : Bool :=
  item.strength == .medium && item.kind == .networkEndpoint

/-- A medium-strength description of the device. -/
def isDeviceDescription (item : PhysicalIdentityEvidence) : Bool :=
  item.strength == .medium &&
    (item.kind == .manufacturerModel || item.kind == .capabilityFingerprint)

def identityConfidence (evidence : List PhysicalIdentityEvidence) : IdentityConfidence :=
  let hasStrong := evidence.any (·.strength == .strong)
  let hasEndpoint := evidence.any isEndpoint
  let hasDeviceDescription := evidence.any isDeviceDescription
  let hasMedium := evidence.any (·.strength == .medium)
  if hasStrong || (hasEndpoint && hasDeviceDescription) then .high
  else if hasMedium then .possible
  else .unknown

def topologyFingerprint (evidence : List PhysicalIdentityEvidence) : String :=
  enc.sha256Hex ((enc.evidenceJson evidence).getD [])

/-! ### Digests -/

/-- The opaque id of an OS queue of this installation. -/
def routeId (installationNamespace : Uuid) (nativeId : String) : String :=
  "rte_" ++ prefixText 32 (enc.sha256Hex
    (asBytes "piqae-route-v1\x00" ++ installationNamespace.asBytes ++ asBytes nativeId))

/-- A text preceded by its length, so that concatenations stay separable. -/
def lengthPrefixed (value : String) : List UInt8 :=
  toBeBytes (asBytes value).length ++ asBytes value

/-- The key of the replay barrier of one job on one route. -/
def authoritativeRouteKey (connectorId serverRouteId localRouteKey jobId : String) : String :=
  enc.sha256Hex ([connectorId, serverRouteId, localRouteKey, jobId].flatMap lengthPrefixed)

def localAmbiguityId (connectorId jobId localRouteKey : String) (reservationId : Uuid)
    (generation : Nat) : String :=
  "amb_" ++ prefixText 32 (enc.sha256Hex
    (asBytes "piqae-local-ambiguity-v1\x00"
      ++ [connectorId, jobId, localRouteKey].flatMap lengthPrefixed
      ++ reservationId.asBytes ++ toBeBytes generation))

/-- Kind and value of the strong evidence, sorted and without repetition. -/
def strongIdentities (evidence : List PhysicalIdentityEvidence) : List (UInt8 × String) :=
  (((evidence.filter (·.strength == .strong)).map
      fun item => (item.kind.asU8, item.valueSha256)).insertionSort
    fun a b => a.1 < b.1 ∨ a.1 = b.1 ∧ a.2 ≤ b.2).destutter (· ≠ ·)

/-- The serialization group a route belongs to: one strong identity, or one
endpoint with a device description, or else the route alone. -/
def physicalCoordinationKey (localRouteKey : String)
    (evidence : List PhysicalIdentityEvidence) : String :=
  match strongIdentities evidence with
  | [identity] =>
    "pgrp_" ++ prefixText 32 (enc.sha256Hex
      (asBytes "piqae-physical-coordination-v1\x00" ++ [identity.1] ++ asBytes identity.2))
  | _ =>
    let deviceDescriptions := evidence.filter isDeviceDescription
    match evidence.filter isEndpoint with
    | [endpoint] =>
      if deviceDescriptions.isEmpty then localRouteKey
      else
        "pgrp_" ++ prefixText 32 (enc.sha256Hex
          (asBytes "piqae-physical-coordination-v1\x00medium\x00"
            ++ asBytes endpoint.valueSha256
            ++ deviceDescriptions.flatMap fun description =>
              description.kind.asU8 :: asBytes description.valueSha256))
    | _ => localRouteKey

end

end Piqae
