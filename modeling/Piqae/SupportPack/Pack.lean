/-
Piqae/SupportPack/Pack.lean

Support packs: a directory of JSON files that maps the options of a printer
driver to normalised capabilities.  `loadPack` walks the directory, hashes the
inventory, checks the digest against the trust policy, and then reads the
manifest and every file the manifest names.

The directory is a tree of entries as the operating system lists them.  A
special entry (a pipe, a device) is neither a directory nor a regular file; its
contents are what reading it gives.  SHA-256, the signature check and the JSON
decoders are parameters of the model; nothing here depends on what they are.
-/
import Piqae.Base
import Piqae.Json
import Piqae.Lib.SortedMap

namespace Piqae.SupportPack

def maxFileBytes : Nat := 2 * 1024 * 1024

def maxPackBytes : Nat := 8 * 1024 * 1024

def maxFiles : Nat := 128

def maxRules : Nat := 512

def maxFixtureDepth : Nat := 32

/-! ### The files of a pack -/

inductive Platform
  | windows
  | cupsIpp
  | iosAirPrint
  | iosNetwork
  | iosBluetoothLe
  | iosExternalAccessory
deriving DecidableEq

inductive EvidenceTier
  | discovered
  | mapped
  | replayTested
  | physicallyCertified
deriving DecidableEq

structure Selector where
  driverPackageSha256 : String
  driverId : String
  driverVersion : String
  deviceId : Option String
  firmwareVersion : Option String
deriving DecidableEq

structure AdapterSelector where
  platform : Platform
  adapterId : String
  adapterVersion : String
  deviceFamily : Option String
  firmwareVersion : Option String
deriving DecidableEq

structure NativeLanguageProfileDeclaration where
  id : String
  outputProfileId : String
  language : String
  languageVersion : String
  mediaType : String
deriving DecidableEq

structure Manifest where
  schemaVersion : Nat
  packId : String
  packVersion : String
  vendor : String
  family : String
  maintainers : List String
  selectors : List Selector
  adapterSelectors : List AdapterSelector
  nativeLanguageProfiles : List NativeLanguageProfileDeclaration
  platforms : List Platform
  facets : List String
  evidence : EvidenceTier
  mappings : List String
  conformance : List String
  fixtures : List String
  license : String
deriving DecidableEq

structure MappingRule where
  platform : Platform
  nativeCapabilityKey : String
  semanticFacet : String
  choices : SortedMap String String
deriving DecidableEq

structure MappingFile where
  schemaVersion : Nat
  rules : List MappingRule
deriving DecidableEq

structure ConformanceCase where
  name : String
  platform : Platform
  nativeCapabilityKey : String
  nativeChoice : String
  expectedSemanticFacet : Option String
  expectedSemanticChoice : Option String
  expectedError : Option String

structure ConformanceFile where
  schemaVersion : Nat
  cases : List ConformanceCase

structure LoadedPack (Digest : Type) where
  manifest : Manifest
  mappings : List MappingRule
  digest : Digest
deriving DecidableEq

structure TrustPolicy (Digest Key : Type) where
  pinnedDigests : List Digest
  verifyingKeys : List Key

inductive PackError
  | io (path : String)
  | json (path : String)
  | invalid (message : String)
  | untrusted
  | invalidSignature
deriving DecidableEq

/-- The decoders of the four kinds of JSON file. -/
structure Formats where
  manifest : List UInt8 → Option Manifest
  mapping : List UInt8 → Option MappingFile
  conformance : List UInt8 → Option ConformanceFile
  value : List UInt8 → Option Json

/-! ### Directories -/

/-- The name of a directory entry: a text, or bytes that are not UTF-8. -/
inductive OsStr
  | text (s : String)
  | bytes (b : List UInt8)
deriving DecidableEq

/-- An entry, with a directory's own entries in the order they are listed. -/
inductive Entry
  | file (contents : List UInt8)
  | directory (entries : List (OsStr × Entry))
  | symlink
  | special (contents : List UInt8)

namespace Entry

/-- The entry a directory lists under a name; names are case-sensitive. -/
def child? : Entry → String → Option Entry
  | directory entries, name => (entries.find? fun e => e.1 = .text name).map Prod.snd
  | _, _ => none

/-- What reading the entry gives; a directory cannot be read. -/
def contents? : Entry → Option (List UInt8)
  | file contents => some contents
  | special contents => some contents
  | _ => none

/-- An empty segment and `.` stay in a directory. -/
def dotlike (segment : String) : Bool := segment = "" || segment = "."

/-- Read the file a path leads to, segment by segment. -/
def read : Entry → List String → Option (List UInt8)
  | e, [] => e.contents?
  | directory entries, segment :: rest =>
    if dotlike segment then read (directory entries) rest
    else match (directory entries).child? segment with
      | some e => e.read rest
      | none => none
  | _, _ :: _ => none

end Entry

/-- The segments of a path text. -/
def segments (path : String) : List String := (path.toList.splitOn '/').map String.ofList

/-- The path text of a relative path. -/
def pathText (components : List String) : String :=
  String.ofList (List.intercalate ['/'] (components.map String.toList))

/-- The components of a path whose names are all UTF-8. -/
def toStr : List OsStr → Option (List String)
  | [] => some []
  | .text s :: rest => (toStr rest).map (s :: ·)
  | .bytes _ :: _ => none

/-! ### The inventory -/

/-- What a walk has found: the relative paths of the regular files, and their bytes. -/
structure Found where
  output : List (List String)
  total : Nat

/-- The detached signature is not part of the inventory. -/
def listed (output : List (List String)) (relative : List String) : List (List String) :=
  if relative = ["SIGNATURE"] then output else output ++ [relative]

/-- Add a regular file to the inventory. -/
def addFile (path : List OsStr) (contents : List UInt8) (found : Found) : Except PackError Found :=
  if contents.length > maxFileBytes then .error (.invalid "pack file exceeds size limit")
  else
    let total := saturatingAdd found.total contents.length
    if total > maxPackBytes then .error (.invalid "pack exceeds total size limit")
    else match toStr path with
      | none => .error (.invalid "pack paths must contain valid UTF-8")
      | some relative =>
        if (listed found.output relative).length > maxFiles then
          .error (.invalid "pack contains too many files")
        else .ok ⟨listed found.output relative, total⟩

mutual

def walk (dir : List OsStr) : List (OsStr × Entry) → Found → Except PackError Found
  | [], found => .ok found
  | (name, entry) :: rest, found => do
    let found ← walkEntry (dir ++ [name]) entry found
    walk dir rest found

/-- Symlinks are refused, and an entry of no known kind is passed over. -/
def walkEntry (path : List OsStr) : Entry → Found → Except PackError Found
  | .symlink, _ => .error (.invalid "symlinks are forbidden")
  | .directory entries, found => walk path entries found
  | .file contents, found => addFile path contents found
  | .special _, found => .ok found

end

def inventory : Entry → Except PackError (List (List String))
  | .directory entries => do
    let found ← walk [] entries ⟨[], 0⟩
    .ok (found.output.insertionSort (· ≤ ·))
  | _ => .error (.invalid "pack root must be a real directory, not a symlink")

/-! ### The digest -/

/-- One file in the hashed inventory. -/
def hashedFile (relative : List String) (contents : List UInt8) : List UInt8 :=
  let name := asBytes (pathText relative)
  toBeBytes name.length ++ name ++ (toBeBytes contents.length ++ contents)

def hashedFiles (root : Entry) : List (List String) → Except PackError (List UInt8)
  | [] => .ok []
  | relative :: rest =>
    match root.read relative with
    | none => .error (.io (pathText relative))
    | some contents => do
      let tail ← hashedFiles root rest
      .ok (hashedFile relative contents ++ tail)

section

variable {Digest Key : Type} [DecidableEq Digest]
variable (sha256 : List UInt8 → Digest)

def canonicalDigest (root : Entry) (files : List (List String)) : Except PackError Digest :=
  (hashedFiles root files).map sha256

/-! ### Trust -/

def hexValue (c : Char) : Option Nat :=
  if '0' ≤ c ∧ c ≤ '9' then some (c.toNat - '0'.toNat)
  else if 'a' ≤ c ∧ c ≤ 'f' then some (c.toNat - 'a'.toNat + 10)
  else if 'A' ≤ c ∧ c ≤ 'F' then some (c.toNat - 'A'.toNat + 10)
  else none

def hexDecode : List Char → Option (List UInt8)
  | [] => some []
  | [_] => none
  | a :: b :: rest => do
    let high ← hexValue a
    let low ← hexValue b
    let tail ← hexDecode rest
    some (UInt8.ofNat (16 * high + low) :: tail)

variable (verify : Key → Digest → List UInt8 → Bool)

/-- The detached signature, checked against every trusted key. -/
def verifySignature (digest : Digest) (trust : TrustPolicy Digest Key) (encoded : String) :
    Except PackError Unit :=
  match hexDecode (trimText encoded).toList with
  | none => .error .invalidSignature
  | some bytes =>
    if bytes.length ≠ 64 then .error .invalidSignature
    else if trust.verifyingKeys.any fun key => verify key digest bytes then .ok ()
    else .error .untrusted

def verifyTrust (root : Entry) (digest : Digest) (trust : TrustPolicy Digest Key) :
    Except PackError Unit :=
  if digest ∈ trust.pinnedDigests then .ok ()
  else match root.child? "SIGNATURE" with
    | none => .error .untrusted
    | some entry =>
      match entry.contents?.bind fun b => String.fromUTF8? ⟨b.toArray⟩ with
      | none => .error (.io "SIGNATURE")
      | some encoded => verifySignature verify digest trust encoded

end

/-! ### Checks on the manifest and the mappings -/

/-- Fail with a message unless the condition holds. -/
def require (condition : Bool) (message : String) : Except PackError Unit :=
  if condition then .ok () else .error (.invalid message)

def isAsciiLowercase (b : UInt8) : Bool := 'a'.toNat ≤ b.toNat && b.toNat ≤ 'z'.toNat

def isAsciiUppercase (b : UInt8) : Bool := 'A'.toNat ≤ b.toNat && b.toNat ≤ 'Z'.toNat

def isAsciiDigit (b : UInt8) : Bool := '0'.toNat ≤ b.toNat && b.toNat ≤ '9'.toNat

/-- Is the byte one of these ASCII characters? -/
def isOneOf (chars : String) (b : UInt8) : Bool := (asBytes chars).contains b

def validateId (label value : String) (max : Nat) : Except PackError Unit :=
  require (!(asBytes value).isEmpty && (asBytes value).length ≤ max
    && (asBytes value).all fun b =>
      isAsciiLowercase b || isAsciiUppercase b || isAsciiDigit b || isOneOf "._:/+ -" b)
    ("invalid " ++ label)

def validateProtocolId (label value : String) (max : Nat) : Except PackError Unit :=
  require (((asBytes value).head?.any isAsciiLowercase) && (asBytes value).length ≤ max
    && (asBytes value).all fun b => isAsciiLowercase b || isAsciiDigit b || isOneOf "._/-" b)
    ("invalid " ++ label)

def validateSha256 (value : String) : Except PackError Unit :=
  require ((asBytes value).length = 64
    && (asBytes value).all fun b => isAsciiDigit b || isOneOf "abcdef" b)
    "driver_package_sha256 must be lowercase SHA-256 hex"

def validateFacet (value : String) : Except PackError Unit := do
  require (!"profile.safe_overrides".toList.isPrefixOf value.toList && value.toList.contains '.'
    && (value.toList.splitOn '.').all (!·.isEmpty)
    && (asBytes value).all fun b => isAsciiLowercase b || isAsciiDigit b || isOneOf "._" b)
    ("invalid or forbidden semantic facet: " ++ value)
  validateId "semantic facet" value 128

def validateSelector (selector : Selector) : Except PackError Unit := do
  validateSha256 selector.driverPackageSha256
  require (trimText selector.driverId ≠ "" && trimText selector.driverVersion ≠ "")
    "driver_id and driver_version must be exact non-empty values"

def validateAdapterSelector (manifest : Manifest) (selector : AdapterSelector) :
    Except PackError Unit := do
  require (manifest.platforms.contains selector.platform)
    "adapter selector declares an unlisted platform"
  validateId "adapter_id" selector.adapterId 256
  validateId "adapter_version" selector.adapterVersion 64
  selector.deviceFamily.forM fun family => validateId "device_family" family 128
  selector.firmwareVersion.forM fun version => validateId "firmware_version" version 128

/-- The profiles in order, with the identifiers and output profiles already seen. -/
def validateProfiles : List NativeLanguageProfileDeclaration → List String → List String →
    Except PackError Unit
  | [], _, _ => .ok ()
  | profile :: rest, ids, outputs => do
    validateProtocolId "native language profile id" profile.id 128
    validateProtocolId "native output profile id" profile.outputProfileId 128
    validateProtocolId "native language" profile.language 64
    validateId "native language version" profile.languageVersion 64
    validateId "native media type" profile.mediaType 64
    require ("application/vnd.".toList.isPrefixOf profile.mediaType.toList
      && !ids.contains profile.id && !outputs.contains profile.outputProfileId)
      "native language profiles require unique IDs and application/vnd.* media types"
    validateProfiles rest (profile.id :: ids) (profile.outputProfileId :: outputs)

def validateManifest (manifest : Manifest) : Except PackError Unit := do
  require (manifest.schemaVersion = 1) "unsupported manifest schema"
  validateId "pack_id" manifest.packId 128
  validateId "pack_version" manifest.packVersion 64
  validateId "vendor" manifest.vendor 128
  validateId "family" manifest.family 128
  validateId "license" manifest.license 128
  require (!(manifest.selectors.isEmpty && manifest.adapterSelectors.isEmpty)
    && !manifest.platforms.isEmpty && !manifest.maintainers.isEmpty)
    "a driver or adapter selector, platforms and maintainers must not be empty"
  require (!manifest.mappings.isEmpty) "at least one mapping is required"
  manifest.selectors.forM validateSelector
  manifest.adapterSelectors.forM (validateAdapterSelector manifest)
  manifest.maintainers.forM fun maintainer => validateId "maintainer" maintainer 256
  require (manifest.nativeLanguageProfiles.length ≤ 32)
    "at most 32 native language profiles are allowed"
  validateProfiles manifest.nativeLanguageProfiles [] []
  manifest.facets.forM validateFacet

def validateMappings (manifest : Manifest) (rules : List MappingRule) : Except PackError Unit :=
  rules.forM fun rule => do
    validateId "native_capability_key" rule.nativeCapabilityKey 256
    validateFacet rule.semanticFacet
    require (manifest.facets.contains rule.semanticFacet
      && manifest.platforms.contains rule.platform) "mapping declares an unlisted facet or platform"
    require (rule.choices.size ≠ 0 && rule.choices.size ≤ 128)
      "mapping choices must contain 1..=128 entries"
    rule.choices.entries.forM fun choice => do
      validateId "native choice" choice.1 256
      validateId "semantic choice" choice.2 128

/-! ### Reading the named files -/

/-- A path of the manifest, as the segments below the root. -/
def safeChild (relative : String) : Except PackError (List String) :=
  if relative.toList.head? = some '/' ∨ (segments relative).head? = some "."
      ∨ ".." ∈ segments relative then
    .error (.invalid ("unsafe pack path: " ++ relative))
  else .ok (segments relative)

def readJson {α : Type} (decode : List UInt8 → Option α) (root : Entry) (path : List String) :
    Except PackError α :=
  match root.read path with
  | none => .error (.io (pathText path))
  | some bytes =>
    match decode bytes with
    | none => .error (.json (pathText path))
    | some a => .ok a

/-- What a conformance case asserts: a known choice, or an unknown one. -/
def checkCase (rules : List MappingRule) (case : ConformanceCase) : Option Bool :=
  let matchedRule := rules.find? fun rule =>
    rule.platform = case.platform && rule.nativeCapabilityKey = case.nativeCapabilityKey
  match matchedRule with
  | none => none
  | some rule =>
    match rule.choices.get? case.nativeChoice, case.expectedError with
    | some choice, none =>
      if case.expectedSemanticFacet = some rule.semanticFacet
          ∧ case.expectedSemanticChoice = some choice then some true else none
    | none, some "unsupported_native_choice" => some false
    | _, _ => none

/-- Has a known choice been covered, and an unknown one? -/
structure Coverage where
  positive : Bool
  unknown : Bool

def checkCases (rules : List MappingRule) : List ConformanceCase → Coverage →
    Except PackError Coverage
  | [], seen => .ok seen
  | case :: rest, seen => do
    validateId "conformance case name" case.name 256
    match checkCase rules case with
    | some true => checkCases rules rest { seen with positive := true }
    | some false => checkCases rules rest { seen with unknown := true }
    | none => .error (.invalid ("conformance case failed: " ++ case.name))

section

variable (formats : Formats) (root : Entry)

def checkSuites (rules : List MappingRule) : List String → Coverage → Except PackError Coverage
  | [], seen => .ok seen
  | relative :: rest, seen => do
    let path ← safeChild relative
    let file ← readJson formats.conformance root path
    require (file.schemaVersion = 1 && !file.cases.isEmpty)
      ("invalid conformance suite " ++ relative)
    let seen ← checkCases rules file.cases seen
    checkSuites rules rest seen

def validateConformance (manifest : Manifest) (rules : List MappingRule) :
    Except PackError Unit := do
  require (!manifest.conformance.isEmpty) "at least one conformance file is required"
  let seen ← checkSuites formats root rules manifest.conformance ⟨false, false⟩
  require (seen.positive && seen.unknown) "conformance must cover a known and an unknown choice"

/-- The member names a fixture must not have. -/
def forbiddenFields : List String :=
  ["serial", "serial_number", "bluetooth_address", "mac_address", "network_address", "ip_address",
    "api_key", "token", "secret", "password", "document", "native_blob", "devmode"]

def toAsciiLowercase (s : String) : String := String.ofList (s.toList.map Char.toLower)

mutual

def validateRedactedFixture (depth : Nat) : Json → Except PackError Unit
  | .object members =>
    if depth > maxFixtureDepth then .error (.invalid "fixture nesting is too deep")
    else validateRedactedMembers depth members
  | .array items =>
    if depth > maxFixtureDepth then .error (.invalid "fixture nesting is too deep")
    else validateRedactedItems depth items
  | .string text =>
    if depth > maxFixtureDepth then .error (.invalid "fixture nesting is too deep")
    else if (asBytes text).length > 4096 then .error (.invalid "fixture string is too long")
    else .ok ()
  | _ => if depth > maxFixtureDepth then .error (.invalid "fixture nesting is too deep") else .ok ()

def validateRedactedItems (depth : Nat) : List Json → Except PackError Unit
  | [] => .ok ()
  | item :: rest => do
    validateRedactedFixture (depth + 1) item
    validateRedactedItems depth rest

def validateRedactedMembers (depth : Nat) : List (String × Json) → Except PackError Unit
  | [] => .ok ()
  | (key, child) :: rest => do
    require (!forbiddenFields.contains (toAsciiLowercase key))
      ("fixture contains forbidden field " ++ key)
    validateRedactedFixture (depth + 1) child
    validateRedactedMembers depth rest

end

def validateFixtures : List String → Except PackError Unit
  | [] => .ok ()
  | relative :: rest => do
    let path ← safeChild relative
    let fixture ← readJson formats.value root path
    validateRedactedFixture 0 fixture
    validateFixtures rest

/-- The rules of the mapping files, in the manifest's order. -/
def loadMappings : List String → Except PackError (List MappingRule)
  | [] => .ok []
  | relative :: rest => do
    let path ← safeChild relative
    let mapping ← readJson formats.mapping root path
    require (mapping.schemaVersion = 1) ("unsupported mapping schema in " ++ relative)
    let rules ← loadMappings rest
    .ok (mapping.rules ++ rules)

/-- Everything that is read after the digest is trusted. -/
def loadTrusted : Except PackError (Manifest × List MappingRule) := do
  let manifest ← readJson formats.manifest root ["manifest.json"]
  validateManifest manifest
  let mappings ← loadMappings formats root manifest.mappings
  require (mappings.length ≤ maxRules) "too many mapping rules"
  validateMappings manifest mappings
  validateConformance formats root manifest mappings
  validateFixtures formats root manifest.fixtures
  .ok (manifest, mappings)

end

def loadPack {Digest Key : Type} [DecidableEq Digest] (sha256 : List UInt8 → Digest)
    (verify : Key → Digest → List UInt8 → Bool) (formats : Formats) (root : Entry)
    (trust : TrustPolicy Digest Key) : Except PackError (LoadedPack Digest) := do
  let files ← inventory root
  let digest ← canonicalDigest sha256 root files
  verifyTrust verify root digest trust
  let (manifest, mappings) ← loadTrusted formats root
  .ok ⟨manifest, mappings, digest⟩

end Piqae.SupportPack
