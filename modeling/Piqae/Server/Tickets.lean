/-
Piqae/Server/Tickets.lean

Resolved print tickets (`print_intents.rs`, `validate_resolved_ticket` of
`api.rs`, and the two repositories).

A print intent that is valid is resolved to a ticket, whose identity is what will
be printed and does not contain the time at which the ticket expires.  The ticket
is stored under the digest of its identity, and a row that is there already stays
as it is: resolving an intent again returns the first ticket, expired or not.

The checks of the stock and of the media that is loaded have no part in this;
their findings are an input of the request.  Printer ids are parsed already.
-/
import Piqae.Base
import Piqae.Json
import Piqae.Lib.Run
import Piqae.Lib.SortedMap

namespace Piqae.Server.Tickets

open List hiding Vector

/-! ### Job options -/

inductive Duplex
  | oneSided
  | longEdge
  | shortEdge
deriving DecidableEq, Repr

inductive Rotation
  | deg0
  | deg90
  | deg180
  | deg270
deriving DecidableEq, Repr

structure JobOptions where
  bin : Option String
  collate : Option Bool
  color : Option Bool
  copies : Option UInt32
  dpi : Option String
  duplex : Option Duplex
  fitToPage : Option Bool
  media : Option String
  nativeOptions : SortedMap String String
  nup : Option UInt16
  pages : Option String
  paper : Option String
  rotate : Option Rotation
deriving DecidableEq

def JobOptions.default : JobOptions :=
  ⟨none, none, none, none, none, none, none, none, .empty, none, none, none, none⟩

/-! Serialisation: each type with its encoding and decoding. -/

def Duplex.toJson : Duplex → Json
  | oneSided => .string "one-sided"
  | longEdge => .string "long-edge"
  | shortEdge => .string "short-edge"

def Duplex.fromJson : Json → Option Duplex
  | .string "one-sided" => some oneSided
  | .string "long-edge" => some longEdge
  | .string "short-edge" => some shortEdge
  | _ => none

def Rotation.toJson : Rotation → Json
  | deg0 => .number (.integer 0)
  | deg90 => .number (.integer 90)
  | deg180 => .number (.integer 180)
  | deg270 => .number (.integer 270)

def Rotation.fromJson : Json → Option Rotation
  | .number (.integer 0) => some deg0
  | .number (.integer 90) => some deg90
  | .number (.integer 180) => some deg180
  | .number (.integer 270) => some deg270
  | _ => none

def stringFromJson : Json → Option String
  | .string s => some s
  | _ => none

def boolFromJson : Json → Option Bool
  | .bool b => some b
  | _ => none

def natFromJson (bound : Nat) : Json → Option Nat
  | .number (.integer i) => if 0 ≤ i ∧ i < bound then some i.toNat else none
  | _ => none

def natToJson (n : Nat) : Json := .number (.integer n)

def u32FromJson (value : Json) : Option UInt32 := (natFromJson (2 ^ 32) value).map UInt32.ofNat

def u16FromJson (value : Json) : Option UInt16 := (natFromJson (2 ^ 16) value).map UInt16.ofNat

def optionToJson {α : Type} (encode : α → Json) (value : Option α) : Json :=
  value.elim .null encode

def optionFromJson {α : Type} (decode : Json → Option α) : Json → Option (Option α)
  | .null => some none
  | value => (decode value).map some

def mapToJson (map : SortedMap String String) : Json :=
  .object (map.entries.map fun (key, value) => (key, .string value))

/-- The members of an object are in the order of their keys. -/
def mapFromJson : Json → Option (SortedMap String String)
  | .object members => do
    let entries ← members.mapM fun (key, value) => (stringFromJson value).map ((key, ·))
    if h : entries.Pairwise fun a b => a.1 < b.1 then some ⟨entries, h⟩ else none
  | _ => none

namespace JobOptions

def toJson (options : JobOptions) : Json := .object [
  ("bin", optionToJson .string options.bin),
  ("collate", optionToJson .bool options.collate),
  ("color", optionToJson .bool options.color),
  ("copies", optionToJson (natToJson ·.toNat) options.copies),
  ("dpi", optionToJson .string options.dpi),
  ("duplex", optionToJson Duplex.toJson options.duplex),
  ("fit_to_page", optionToJson .bool options.fitToPage),
  ("media", optionToJson .string options.media),
  ("native_options", mapToJson options.nativeOptions),
  ("nup", optionToJson (natToJson ·.toNat) options.nup),
  ("pages", optionToJson .string options.pages),
  ("paper", optionToJson .string options.paper),
  ("rotate", optionToJson Rotation.toJson options.rotate)]

def fields : List String := ["bin", "collate", "color", "copies", "dpi", "duplex", "fit_to_page",
  "media", "native_options", "nup", "pages", "paper", "rotate"]

/-- A field that is missing has its default. -/
def field {α : Type} (members : List (String × Json)) (key : String) (default : α)
    (decode : Json → Option α) : Option α :=
  match members.find? (·.1 = key) with
  | none => some default
  | some (_, value) => decode value

def fromJson : Json → Option JobOptions
  | .object members =>
    if members.all (fields.contains ·.1) then do
      some {
        bin := ← field members "bin" none (optionFromJson stringFromJson)
        collate := ← field members "collate" none (optionFromJson boolFromJson)
        color := ← field members "color" none (optionFromJson boolFromJson)
        copies := ← field members "copies" none (optionFromJson u32FromJson)
        dpi := ← field members "dpi" none (optionFromJson stringFromJson)
        duplex := ← field members "duplex" none (optionFromJson Duplex.fromJson)
        fitToPage := ← field members "fit_to_page" none (optionFromJson boolFromJson)
        media := ← field members "media" none (optionFromJson stringFromJson)
        nativeOptions := ← field members "native_options" .empty mapFromJson
        nup := ← field members "nup" none (optionFromJson u16FromJson)
        pages := ← field members "pages" none (optionFromJson stringFromJson)
        paper := ← field members "paper" none (optionFromJson stringFromJson)
        rotate := ← field members "rotate" none (optionFromJson Rotation.fromJson) }
    else none
  | _ => none

end JobOptions

/-! Options survive serialisation. -/

theorem option_roundtrip {α : Type} {encode : α → Json} {decode : Json → Option α}
    (h : ∀ a, decode (encode a) = some a) (hnull : ∀ a, encode a ≠ .null) (value : Option α) :
    optionFromJson decode (optionToJson encode value) = some value := by
  cases value with
  | none => rfl
  | some a =>
    show optionFromJson decode (encode a) = _
    have hne := hnull a
    have ha := h a
    unfold optionFromJson
    split
    · contradiction
    · rw [ha]
      rfl

theorem mapFromJson_mapToJson (map : SortedMap String String) :
    mapFromJson (mapToJson map) = some map := by
  have hents : (map.entries.map fun (key, value) => (key, .string value)).mapM
      (fun (key, value) => (stringFromJson value).map ((key, ·))) = some map.entries := by
    rw [mapM_map]
    induction map.entries with
    | nil => rfl
    | cons entry entries ih =>
      rw [mapM_cons, ih]
      rfl
  show (do
    let entries ← _
    if h : entries.Pairwise fun a b => a.1 < b.1 then some ⟨entries, h⟩ else none) = some map
  rw [hents]
  exact dif_pos map.sorted

theorem natFromJson_natToJson {bound n : Nat} (h : n < bound) :
    natFromJson bound (natToJson n) = some n := by
  simp only [natToJson, natFromJson]
  rw [if_pos (by omega), Int.toNat_natCast]

theorem fromJson_toJson (options : JobOptions) :
    JobOptions.fromJson options.toJson = some options := by
  have hstring : ∀ value, optionFromJson stringFromJson (optionToJson .string value) = some value :=
    option_roundtrip (fun _ => rfl) nofun
  have hbool : ∀ value, optionFromJson boolFromJson (optionToJson .bool value) = some value :=
    option_roundtrip (fun _ => rfl) nofun
  have hduplex : ∀ value,
      optionFromJson Duplex.fromJson (optionToJson Duplex.toJson value) = some value :=
    option_roundtrip (fun d => by cases d <;> rfl) fun d => by cases d <;> nofun
  have hrotate : ∀ value,
      optionFromJson Rotation.fromJson (optionToJson Rotation.toJson value) = some value :=
    option_roundtrip (fun r => by cases r <;> rfl) fun r => by cases r <;> nofun
  have hcopies : ∀ value,
      optionFromJson u32FromJson (optionToJson (natToJson ·.toNat) value) = some value :=
    option_roundtrip (fun n => by simp [u32FromJson, natFromJson_natToJson n.toNat_lt]) nofun
  have hnup : ∀ value,
      optionFromJson u16FromJson (optionToJson (natToJson ·.toNat) value) = some value :=
    option_roundtrip (fun n => by simp [u16FromJson, natFromJson_natToJson n.toNat_lt]) nofun
  simp [JobOptions.toJson, JobOptions.fromJson, JobOptions.field, JobOptions.fields, hstring, hbool,
    hduplex, hrotate, hcopies, hnup, mapFromJson_mapToJson]

/-! ### Print intents -/

structure ResourceRevision where
  id : String
  revision : Nat
deriving DecidableEq, Repr

structure PrintIntent where
  schemaVersion : Nat
  printerId : String
  capabilityRevision : Nat
  workflow : Option ResourceRevision
  stock : Option ResourceRevision
  portableOptions : JobOptions
  semanticOptions : List (String × Json)
  documentManifest : Json

structure Profile where
  profileId : String
  revision : Nat
  published : Bool

/-- What is read of a printer; the choices of its native options, and the native option and
choice of a semantic one. -/
structure StoredPrinter where
  capabilityRevision : Nat
  color : Bool
  duplex : Bool
  copies : UInt32
  dpis : List String
  bins : List String
  nativeOptions : String → Option (List String)
  nativeResolutions : String → String → Option (String × String)
  profiles : List Profile

structure StoredPrintWorkflow where
  printerId : String
  capabilityRevision : Nat
  profileId : Option String
  profileRevision : Option Nat
  stockId : Option String
  stockRevision : Option Nat
  /-- The intent that the definition decodes to. -/
  definition : Option PrintIntent
  safeOverrides : List String
  published : Bool
  archived : Bool

structure Finding where
  code : String
  path : String
deriving DecidableEq, Repr

/-- An option of the request over that of the workflow. -/
def override {α : Type} [DecidableEq α] (safeOverrides : List String) (path : String)
    (requested base : Option α) : Option α × List Finding :=
  match requested with
  | none => (base, [])
  | some value =>
    if safeOverrides.contains path then (some value, [])
    else (base, if base = some value then [] else [⟨"workflow_override_not_allowed", path⟩])

def overrideNative (safeOverrides : List String) (requested base : SortedMap String String) :
    SortedMap String String × List Finding :=
  requested.entries.foldl (fun (map, errors) (key, value) =>
    let path := "portable_options.native_options." ++ key
    if safeOverrides.contains path then (map.insert key value, errors)
    else if map.get? key = some value then (map, errors)
    else (map, errors ++ [⟨"workflow_override_not_allowed", path⟩])) (base, [])

def overrideSemantic (safeOverrides : List String) (requested base : List (String × Json)) :
    List (String × Json) × List Finding :=
  requested.foldl (fun (members, errors) (key, value) =>
    let path := "semantic_options." ++ key
    if safeOverrides.contains path then
      (members.filter (·.1 < key) ++ (key, value) :: members.filter (key < ·.1), errors)
    else if members.any (fun member => member.1 = key && member.2.beq value) then (members, errors)
    else (members, errors ++ [⟨"workflow_override_not_allowed", path⟩])) (base, [])

def mergeWorkflowIntent (base requested : PrintIntent) (safeOverrides : List String) :
    Except (List Finding) PrintIntent :=
  let r := requested.portableOptions
  let b := base.portableOptions
  let bin := override safeOverrides "portable_options.bin" r.bin b.bin
  let collate := override safeOverrides "portable_options.collate" r.collate b.collate
  let color := override safeOverrides "portable_options.color" r.color b.color
  let copies := override safeOverrides "portable_options.copies" r.copies b.copies
  let dpi := override safeOverrides "portable_options.dpi" r.dpi b.dpi
  let duplex := override safeOverrides "portable_options.duplex" r.duplex b.duplex
  let fitToPage := override safeOverrides "portable_options.fit_to_page" r.fitToPage b.fitToPage
  let media := override safeOverrides "portable_options.media" r.media b.media
  let nup := override safeOverrides "portable_options.nup" r.nup b.nup
  let pages := override safeOverrides "portable_options.pages" r.pages b.pages
  let paper := override safeOverrides "portable_options.paper" r.paper b.paper
  let rotate := override safeOverrides "portable_options.rotate" r.rotate b.rotate
  let nativeOptions := overrideNative safeOverrides r.nativeOptions b.nativeOptions
  let semantic := overrideSemantic safeOverrides requested.semanticOptions base.semanticOptions
  let mismatch := if base.printerId ≠ requested.printerId
      ∨ base.capabilityRevision ≠ requested.capabilityRevision then
    [⟨"workflow_definition_mismatch", "workflow"⟩] else []
  match bin.2 ++ collate.2 ++ color.2 ++ copies.2 ++ dpi.2 ++ duplex.2 ++ fitToPage.2 ++ media.2 ++
      nup.2 ++ pages.2 ++ paper.2 ++ rotate.2 ++ nativeOptions.2 ++ semantic.2 ++ mismatch with
  | [] => .ok { base with
      workflow := requested.workflow
      stock := requested.stock.or base.stock
      documentManifest := requested.documentManifest
      semanticOptions := semantic.1
      portableOptions := ⟨bin.1, collate.1, color.1, copies.1, dpi.1, duplex.1, fitToPage.1,
        media.1,
        nativeOptions.1, nup.1, pages.1, paper.1, rotate.1⟩ }
  | errors => .error errors

def StoredPrintWorkflow.pinnedStock (workflow : StoredPrintWorkflow) : Option ResourceRevision :=
  workflow.stockId.bind fun id => workflow.stockRevision.map (⟨id, ·⟩)

/-- The stock of the workflow, unless the intent asks for another one. -/
def pinStock (workflow : StoredPrintWorkflow) (intent : PrintIntent) : PrintIntent :=
  { intent with
    stock := if intent.stock.isSome then intent.stock else workflow.pinnedStock }

def workflowFindings (printer : StoredPrinter) (workflow : StoredPrintWorkflow)
    (intent : PrintIntent) : List Finding :=
  (if workflow.capabilityRevision ≠ printer.capabilityRevision then
    [⟨"stale_workflow_capability", "workflow"⟩] else []) ++
  (match workflow.profileId, workflow.profileRevision with
    | some id, some revision =>
      if printer.profiles.any fun profile => profile.profileId = id &&
          profile.revision = revision && profile.published then []
      else [⟨"workflow_profile_unavailable", "workflow"⟩]
    | none, none => []
    | _, _ => [⟨"workflow_profile_invalid", "workflow"⟩]) ++
  (if workflow.stockId.isSome ≠ workflow.stockRevision.isSome then
    [⟨"workflow_stock_invalid", "workflow"⟩] else []) ++
  (if intent.stock.isSome ∧ intent.stock ≠ workflow.pinnedStock then
    [⟨"workflow_stock_mismatch", "stock"⟩] else [])

/-- The intent is merged with its workflow. -/
def applyWorkflow (printer : StoredPrinter) (intent : PrintIntent) :
    Option StoredPrintWorkflow → PrintIntent × List Finding
  | none => (intent, [⟨"workflow_revision_unavailable", "workflow"⟩])
  | some workflow =>
    if !workflow.published || workflow.archived || workflow.printerId ≠ intent.printerId then
      (intent, [⟨"workflow_not_published", "workflow"⟩])
    else
      match workflow.definition with
      | none => (pinStock workflow intent, workflowFindings printer workflow intent ++
          [⟨"workflow_definition_invalid", "workflow"⟩])
      | some base =>
        match mergeWorkflowIntent base (pinStock workflow intent) workflow.safeOverrides with
        | .ok merged => (merged, workflowFindings printer workflow intent)
        | .error errors =>
          (pinStock workflow intent, workflowFindings printer workflow intent ++ errors)

/-- Semantic options set the native options that they stand for. -/
def resolveSemanticOptions (printer : StoredPrinter) (intent : PrintIntent) :
    PrintIntent × List Finding :=
  let result := intent.semanticOptions.foldl (fun (native, errors) (facet, requested) =>
    let path := "semantic_options." ++ facet
    match requested with
    | .string choice =>
      match printer.nativeResolutions facet choice with
      | none => (native, errors ++ [⟨"semantic_option_read_only", path⟩])
      | some (option, value) =>
        if !(printer.nativeOptions option).any (·.contains value) then
          (native, errors ++ [⟨"stale_semantic_resolution", path⟩])
        else
          match native.get? option with
          | some existing =>
            if existing ≠ value then
              (native, errors ++ [⟨"conflicting_semantic_resolution", path⟩])
            else (native.insert option value, errors)
          | none => (native.insert option value, errors)
    | _ => (native, errors ++ [⟨"unsupported_semantic_option", path⟩]))
    (intent.portableOptions.nativeOptions, ([] : List Finding))
  ({ intent with portableOptions := { intent.portableOptions with nativeOptions := result.1 } },
    result.2)

/-- The options are those that the driver reports. -/
def optionFindings (printer : StoredPrinter) (options : JobOptions) : List Finding :=
  (if options.color = some true ∧ !printer.color then
    [⟨"unsupported_color", "portable_options.color"⟩] else []) ++
  (if options.duplex.isSome ∧ !printer.duplex then
    [⟨"unsupported_duplex", "portable_options.duplex"⟩] else []) ++
  (if options.copies.any fun copies => copies = 0 ∨ printer.copies < copies then
    [⟨"unsupported_copies", "portable_options.copies"⟩] else []) ++
  (if options.dpi.any fun value => !printer.dpis.contains value then
    [⟨"unsupported_resolution", "portable_options.dpi"⟩] else []) ++
  (if options.bin.any fun value => !printer.bins.contains value then
    [⟨"unsupported_media_source", "portable_options.bin"⟩] else []) ++
  options.nativeOptions.entries.filterMap fun (key, value) =>
    if (printer.nativeOptions key).any (·.contains value) then none
    else some ⟨"unsupported_native_option", "portable_options.native_options." ++ key⟩

/-! ### Tickets -/

inductive AppError
  | invalidPrintIntent
  | printIntentInvalid
  | notFound
  | invalidData
  | concurrentStateChange
  | invalidResolvedTicket
  | resolvedTicketStale
  | staleCapabilityRevision
  | resolvedOptionsMismatch
deriving DecidableEq, Repr

/-- What will be printed. -/
structure TicketIdentity where
  printerId : String
  capabilityRevision : Nat
  workflow : Option ResourceRevision
  stock : Option ResourceRevision
  resolvedOptions : Json
  semanticOptions : Json

def ResourceRevision.toJson (value : ResourceRevision) : Json :=
  .object [("id", .string value.id), ("revision", natToJson value.revision)]

def TicketIdentity.toJson (identity : TicketIdentity) : Json := .object [
  ("capability_revision", natToJson identity.capabilityRevision),
  ("printer_id", .string identity.printerId),
  ("provenance", .object [
    ("portable_options", .string "installed_driver_capability_revision"),
    ("semantic_options", .string "trusted_support_pack_exact_native_resolution")]),
  ("resolved_options", identity.resolvedOptions),
  ("semantic_options", identity.semanticOptions),
  ("stock", optionToJson ResourceRevision.toJson identity.stock),
  ("workflow", optionToJson ResourceRevision.toJson identity.workflow)]

structure DisplayTicket where
  identity : TicketIdentity
  expiresAt : Int
  digest : String

structure StoredResolvedPrintTicket where
  digest : String
  printerId : String
  capabilityRevision : Nat
  displayTicket : DisplayTicket
  expiresAt : Int
  createdAt : Int

def hexDigits : List Char :=
  ['0', '1', '2', '3', '4', '5', '6', '7', '8', '9', 'a', 'b', 'c', 'd', 'e', 'f']

def hexDigit (n : Nat) : Char := hexDigits[n % 16]?.getD '0'

def hexEncode (bytes : List UInt8) : String :=
  String.ofList (bytes.flatMap fun b => [hexDigit (b.toNat / 16), hexDigit b.toNat])

/-- Workspace and environment. -/
abbrev Tenant := String

inductive Repository
  | postgres
  | memory
deriving DecidableEq, Repr

structure Store where
  printers : Tenant → String → Option StoredPrinter
  workflows : Tenant → ResourceRevision → Option StoredPrintWorkflow
  tickets : List (Tenant × StoredResolvedPrintTicket)
  /-- In milliseconds. -/
  now : Int

section

variable (sha256 : List UInt8 → Vector UInt8 32) (repository : Repository) (s : Store)

def digest (identity : TicketIdentity) : String :=
  hexEncode (sha256 (asBytes (String.ofList identity.toJson.text))).toList

/-- The findings on the intent, and the intent that is resolved if there are none. -/
def validateForTenant (tenant : Tenant) (intent : PrintIntent) (stockFindings : List Finding) :
    Except AppError (PrintIntent × List Finding) :=
  if intent.schemaVersion ≠ 1 ∨ !intent.documentManifest.isObject then .error .invalidPrintIntent
  else
    match s.printers tenant intent.printerId with
    | none => .error .notFound
    | some printer =>
      let stale := if intent.capabilityRevision = 0
          ∨ intent.capabilityRevision ≠ printer.capabilityRevision then
        [⟨"stale_capability_revision", "capability_revision"⟩] else []
      let (intent, workflowFindings) := match intent.workflow with
        | none => (intent, [])
        | some reference => applyWorkflow printer intent (s.workflows tenant reference)
      let (intent, semanticFindings) := resolveSemanticOptions printer intent
      .ok (intent, stale ++ workflowFindings ++ semanticFindings ++
        optionFindings printer intent.portableOptions ++
          if intent.stock.isSome then stockFindings else [])

def getResolvedPrintTicket (tenant : Tenant) (digest : String) :
    Except AppError StoredResolvedPrintTicket :=
  match s.tickets.find? fun row => row.1 = tenant && row.2.digest = digest with
  | none => .error .notFound
  | some row => .ok row.2

/-- The database has one row for a digest of a tenant; in memory there is one for a digest. -/
def storeResolvedPrintTicket (tenant : Tenant) (ticket : StoredResolvedPrintTicket) :
    Except AppError StoredResolvedPrintTicket × Store :=
  let inserted := { s with tickets := s.tickets ++ [(tenant, ticket)] }
  match repository with
  | .postgres =>
    if i64Max < ticket.capabilityRevision then (.error .invalidData, s)
    else
      let s := if s.tickets.any fun row => row.1 = tenant && row.2.digest = ticket.digest then s
        else inserted
      (getResolvedPrintTicket s tenant ticket.digest, s)
  | .memory =>
    match s.tickets.find? (·.2.digest = ticket.digest) with
    | some (owner, existing) =>
      (if owner = tenant then .ok existing else .error .concurrentStateChange, s)
    | none => (.ok ticket, inserted)

def ticketIdentity (intent : PrintIntent) : TicketIdentity :=
  ⟨intent.printerId, intent.capabilityRevision, intent.workflow, intent.stock,
    intent.portableOptions.toJson, .object intent.semanticOptions⟩

def resolve (tenant : Tenant) (intent : PrintIntent) (stockFindings : List Finding) :
    Except AppError StoredResolvedPrintTicket × Store :=
  match validateForTenant s tenant intent stockFindings with
  | .error error => (.error error, s)
  | .ok (intent, []) =>
    let digest := digest sha256 (ticketIdentity intent)
    let expiresAt := s.now + 15 * 60 * 1000
    storeResolvedPrintTicket repository s tenant ⟨digest, intent.printerId,
      intent.capabilityRevision, ⟨ticketIdentity intent, expiresAt, digest⟩, expiresAt, s.now⟩
  | .ok (_, _ :: _) => (.error .printIntentInvalid, s)

/-- A request to create a job on a printer refers to a ticket. -/
def validateResolvedTicket (tenant : Tenant) (resolvedTicketDigest : Option String)
    (options : JobOptions) (printerId : String) :
    Except AppError (Option StoredResolvedPrintTicket) :=
  match resolvedTicketDigest with
  | none => .ok none
  | some digest =>
    if digest.toList.length ≠ 64 ∨ !digest.toList.all (hexDigits.contains ·) then
      .error .invalidResolvedTicket
    else do
      let ticket ← getResolvedPrintTicket s tenant digest
      if ticket.expiresAt ≤ s.now ∨ ticket.printerId ≠ printerId then .error .resolvedTicketStale
      else
        match s.printers tenant printerId with
        | none => .error .notFound
        | some current =>
          if current.capabilityRevision ≠ ticket.capabilityRevision then
            .error .staleCapabilityRevision
          else
            match JobOptions.fromJson ticket.displayTicket.identity.resolvedOptions with
            | none => .error .invalidResolvedTicket
            | some resolved =>
              if resolved ≠ options then .error .resolvedOptionsMismatch else .ok (some ticket)

inductive Op
  | resolve (tenant : Tenant) (intent : PrintIntent) (stockFindings : List Finding)
  | setPrinter (tenant : Tenant) (id : String) (printer : Option StoredPrinter)
  | setWorkflow (tenant : Tenant) (reference : ResourceRevision)
      (workflow : Option StoredPrintWorkflow)
  | wait (milliseconds : Nat)

def step : Op → Store
  | .resolve tenant intent stockFindings =>
    (resolve sha256 repository s tenant intent stockFindings).2
  | .setPrinter tenant id printer =>
    { s with printers := fun t i => if t = tenant ∧ i = id then printer else s.printers t i }
  | .setWorkflow tenant reference workflow =>
    { s with workflows := fun t r =>
        if t = tenant ∧ r = reference then workflow else s.workflows t r }
  | .wait milliseconds => { s with now := s.now + milliseconds }

end

/-! ### What is resolved -/

variable {merged : PrintIntent}

theorem mergeWorkflowIntent_ok {base requested : PrintIntent} {safeOverrides : List String}
    (h : mergeWorkflowIntent base requested safeOverrides = .ok merged) :
    merged.printerId = requested.printerId ∧
      merged.capabilityRevision = requested.capabilityRevision := by
  unfold mergeWorkflowIntent at h
  dsimp only at h
  split at h
  · rename_i hnone
    cases h
    have hmismatch := (append_eq_nil_iff.mp hnone).2
    split_ifs at hmismatch with hne
    obtain ⟨hpr, hrev⟩ := not_or.mp hne
    exact ⟨not_not.mp hpr, not_not.mp hrev⟩
  · cases h

theorem applyWorkflow_same (printer : StoredPrinter) (intent : PrintIntent)
    (workflow : Option StoredPrintWorkflow) :
    (applyWorkflow printer intent workflow).1.printerId = intent.printerId ∧
      (applyWorkflow printer intent workflow).1.capabilityRevision = intent.capabilityRevision := by
  unfold applyWorkflow
  split
  · exact ⟨rfl, rfl⟩
  split_ifs
  · exact ⟨rfl, rfl⟩
  split
  · exact ⟨rfl, rfl⟩
  split
  · rename_i hmerge
    have hsame := mergeWorkflowIntent_ok hmerge
    exact hsame
  · exact ⟨rfl, rfl⟩

variable {normalized : PrintIntent} {stockFindings : List Finding}

/-- An intent that is resolved is for the present capabilities of its printer. -/
theorem validateForTenant_nil {s : Store} {tenant : Tenant} {intent : PrintIntent}
    (h : validateForTenant s tenant intent stockFindings = .ok (normalized, [])) :
    ∃ printer, s.printers tenant normalized.printerId = some printer ∧
      normalized.capabilityRevision = printer.capabilityRevision := by
  unfold validateForTenant at h
  split_ifs at h
  split at h
  · cases h
  rename_i printer hpr
  generalize hwf : (match intent.workflow with
    | none => (intent, [])
    | some reference => applyWorkflow printer intent (s.workflows tenant reference)) = merged at h
  obtain ⟨merged, workflowFindings⟩ := merged
  obtain ⟨hnorm, hfindings⟩ := Prod.mk.inj (Except.ok.inj h)
  simp only [append_eq_nil_iff] at hfindings
  obtain ⟨⟨⟨⟨hstale, rfl⟩, -⟩, -⟩, -⟩ := hfindings
  have hsame : merged.printerId = intent.printerId ∧
      merged.capabilityRevision = intent.capabilityRevision := by
    obtain rfl := congrArg Prod.fst hwf
    split
    · exact ⟨rfl, rfl⟩
    · exact applyWorkflow_same ..
  refine ⟨printer, ?_, ?_⟩
  · rw [← hnorm]
    exact hsame.1.symm ▸ hpr
  · split_ifs at hstale with hrev
    rw [← hnorm]
    exact hsame.2.trans (not_not.mp (not_or.mp hrev).2)

theorem hexEncode_digest {bytes : List UInt8} (h : bytes.length = 32) :
    (hexEncode bytes).toList.length = 64 ∧
      (hexEncode bytes).toList.all (hexDigits.contains ·) = true := by
  have hdigit : ∀ n, hexDigits.contains (hexDigit n) = true := by
    intro n
    have hlt : n % 16 < hexDigits.length := Nat.mod_lt n (by decide)
    rw [hexDigit, List.getElem?_eq_getElem hlt, Option.getD_some]
    exact contains_iff_mem.mpr (getElem_mem hlt)
  rw [hexEncode, String.toList_ofList, length_flatMap, all_flatMap]
  refine ⟨?_, all_eq_true.mpr fun b _ => ?_⟩
  · show (bytes.map fun _ => 2).sum = 64
    rw [map_const', sum_replicate, h]
    rfl
  · simp only [all_cons, all_nil, hdigit, Bool.and_true]

/-! ### Histories -/

section

variable {sha256 : List UInt8 → Vector UInt8 32} {repository : Repository} {s : Store}
  {tenant : Tenant} {ticket stored : StoredResolvedPrintTicket}

/-- What is stored is what the ticket says. -/
def Consistent (sha256 : List UInt8 → Vector UInt8 32) (ticket : StoredResolvedPrintTicket) :
    Prop :=
  ticket.digest = digest sha256 ticket.displayTicket.identity ∧
    ticket.printerId = ticket.displayTicket.identity.printerId ∧
    ticket.capabilityRevision = ticket.displayTicket.identity.capabilityRevision ∧
    ∃ options : JobOptions, ticket.displayTicket.identity.resolvedOptions = options.toJson

theorem getResolvedPrintTicket_ok {digest : String}
    (h : getResolvedPrintTicket s tenant digest = .ok ticket) :
    (tenant, ticket) ∈ s.tickets ∧ ticket.digest = digest := by
  unfold getResolvedPrintTicket at h
  split at h
  · cases h
  rename_i row hrow
  cases h
  have hkey := List.find?_some hrow
  simp only [Bool.and_eq_true, decide_eq_true_eq] at hkey
  exact ⟨hkey.1 ▸ mem_of_find?_eq_some hrow, hkey.2⟩

/-- The row that is there already, or the new one. -/
theorem storeResolvedPrintTicket_cases :
    (storeResolvedPrintTicket repository s tenant ticket).2 = s ∨
      (storeResolvedPrintTicket repository s tenant ticket).2 =
        { s with tickets := s.tickets ++ [(tenant, ticket)] } := by
  unfold storeResolvedPrintTicket
  cases repository with
  | postgres =>
    split_ifs
    · exact .inl rfl
    · exact .inl rfl
    · exact .inr rfl
  | memory =>
    dsimp only
    split
    · exact .inl rfl
    · exact .inr rfl

theorem storeResolvedPrintTicket_ok
    (h : (storeResolvedPrintTicket repository s tenant ticket).1 = .ok stored) :
    getResolvedPrintTicket (storeResolvedPrintTicket repository s tenant ticket).2 tenant
        ticket.digest = .ok stored ∧ (getResolvedPrintTicket s tenant ticket.digest = .ok stored ∨
        stored = ticket ∧ getResolvedPrintTicket s tenant ticket.digest = .error .notFound) := by
  have hnew : s.tickets.find? (fun row => row.1 = tenant && row.2.digest = ticket.digest) = none →
      getResolvedPrintTicket { s with tickets := s.tickets ++ [(tenant, ticket)] } tenant
        ticket.digest = .ok ticket ∧
      getResolvedPrintTicket s tenant ticket.digest = .error .notFound := by
    intro hnone
    simp [getResolvedPrintTicket, List.find?_append, hnone]
  unfold storeResolvedPrintTicket at h ⊢
  cases repository with
  | postgres =>
    split_ifs at h ⊢ with hrev hany
    · exact ⟨h, .inl h⟩
    · have hnone := List.find?_eq_none.mpr fun row hrow hkey =>
        hany (any_eq_true.mpr ⟨row, hrow, hkey⟩)
      obtain ⟨hget, hmiss⟩ := hnew hnone
      exact ⟨h, .inr ⟨Except.ok.inj (h.symm.trans hget), hmiss⟩⟩
  | memory =>
    cases hfind : s.tickets.find? (·.2.digest = ticket.digest) with
    | none =>
      have hnone : s.tickets.find? (fun row => row.1 = tenant && row.2.digest = ticket.digest) =
          none := by
        refine List.find?_eq_none.mpr fun row hrow hkey => ?_
        exact List.find?_eq_none.mp hfind row hrow (Bool.and_eq_true_iff.mp hkey).2
      rw [hfind] at h
      cases h
      exact ⟨(hnew hnone).1, .inr ⟨rfl, (hnew hnone).2⟩⟩
    | some row =>
      obtain ⟨owner, existing⟩ := row
      rw [hfind] at h
      dsimp only at h ⊢
      split_ifs at h with howner
      obtain rfl := Except.ok.inj h
      -- the first row of the digest is the first one of the tenant and the digest
      have hboth : s.tickets.find? (fun row => row.1 = tenant && row.2.digest = ticket.digest) =
          some (owner, existing) := by
        obtain ⟨hkey, before, after, hsplit, hbef⟩ := List.find?_eq_some_iff_append.mp hfind
        refine List.find?_eq_some_iff_append.mpr
          ⟨by simpa [howner] using hkey, before, after, hsplit, fun row hrow => ?_⟩
        have hne := hbef row hrow
        simp only [Bool.not_eq_true', decide_eq_false_iff_not] at hne
        simp [hne]
      have hget : getResolvedPrintTicket s tenant ticket.digest = .ok existing := by
        simp [getResolvedPrintTicket, hboth]
      exact ⟨hget, .inl hget⟩

theorem consistent_step {op : Op} (h : ∀ row ∈ s.tickets, Consistent sha256 row.2) :
    ∀ row ∈ (step sha256 repository s op).tickets, Consistent sha256 row.2 := by
  cases op with
  | resolve =>
    simp only [step, resolve]
    split
    · exact h
    · rename_i normalized _
      rcases storeResolvedPrintTicket_cases with hsame | hnew
      · rw [hsame]
        exact h
      · rw [hnew]
        exact forall_mem_concat h ⟨rfl, rfl, rfl, normalized.portableOptions, rfl⟩
    · exact h
  | _ => exact h

end

/-- No stored ticket has the digest of another identity. -/
def CollisionFree (sha256 : List UInt8 → Vector UInt8 32) (s : Store) (identity : TicketIdentity) :
    Prop :=
  ∀ row ∈ s.tickets, digest sha256 row.2.displayTicket.identity = digest sha256 identity →
    row.2.displayTicket.identity = identity

/-- A request to create a job, right after a ticket was resolved, with its digest, its printer and
its options. -/
def Usable (s : Store) (tenant : Tenant) (ticket : StoredResolvedPrintTicket) : Prop :=
  s.now < ticket.expiresAt ∧
    ∃ options, JobOptions.fromJson ticket.displayTicket.identity.resolvedOptions = some options ∧
      validateResolvedTicket s tenant (some ticket.digest) options ticket.printerId =
        .ok (some ticket)

/-- A ticket that has not expired passes. -/
theorem usable {sha256 : List UInt8 → Vector UInt8 32} {s after : Store} {tenant : Tenant}
    {intent : PrintIntent} {ticket : StoredResolvedPrintTicket}
    (hget : getResolvedPrintTicket after tenant (digest sha256 (ticketIdentity normalized)) =
      .ok ticket) (haft : after.printers = s.printers ∧ after.now = s.now)
    (hval : validateForTenant s tenant intent stockFindings = .ok (normalized, []))
    (hident : ticket.displayTicket.identity = ticketIdentity normalized)
    (hcons : Consistent sha256 ticket) (hlt : s.now < ticket.expiresAt) :
    Usable after tenant ticket := by
  obtain ⟨hdig, hpr, hrev, -⟩ := hcons
  rw [hident] at hdig hpr hrev
  obtain ⟨printer, hpr', hrev'⟩ := validateForTenant_nil hval
  have hoptions : JobOptions.fromJson ticket.displayTicket.identity.resolvedOptions =
      some normalized.portableOptions := by
    rw [hident]
    exact fromJson_toJson _
  have hformat : ¬(ticket.digest.toList.length ≠ 64 ∨
      (!ticket.digest.toList.all (hexDigits.contains ·)) = true) := by
    have hhex : (digest sha256 (ticketIdentity normalized)).toList.length = 64 ∧
        (digest sha256 (ticketIdentity normalized)).toList.all (hexDigits.contains ·) = true :=
      hexEncode_digest (Vector.length_toList)
    rw [hdig, hhex.1, hhex.2]
    simp
  refine ⟨haft.2 ▸ hlt, normalized.portableOptions, hoptions, ?_⟩
  have hnow : ¬(ticket.expiresAt ≤ after.now ∨ ticket.printerId ≠ ticket.printerId) := by
    rw [haft.2]
    simp only [ne_eq, not_true_eq_false, or_false]
    omega
  have hcur : after.printers tenant ticket.printerId = some printer := by
    rw [haft.1, hpr]
    exact hpr'
  simp only [validateResolvedTicket]
  rw [if_neg hformat, hdig, hget]
  show (if _ then _ else _) = _
  rw [if_neg hnow]
  simp only [hcur]
  rw [if_neg (not_not.mpr (hrev'.symm.trans hrev.symm))]
  simp only [hoptions]
  rw [if_neg (not_not.mpr rfl)]

/-- **A resolved ticket can be used** if and only if the ticket that is stored for what will be
printed, if there is one, has not expired: after every history, in both repositories. -/
theorem resolved_ticket_usable_iff (sha256 : List UInt8 → Vector UInt8 32)
    (repository : Repository) (start : Store) (hstart : start.tickets = []) (history : List Op)
    (tenant : Tenant) (intent normalized : PrintIntent) (stockFindings : List Finding)
    (ticket : StoredResolvedPrintTicket) (s : Store)
    (hs : s = Run.exec (step sha256 repository) start history)
    (hvalid : validateForTenant s tenant intent stockFindings = .ok (normalized, []))
    (hcollision : CollisionFree sha256 s (ticketIdentity normalized))
    (hresolve : (resolve sha256 repository s tenant intent stockFindings).1 = .ok ticket) :
    Usable (resolve sha256 repository s tenant intent stockFindings).2 tenant ticket ↔
      ∀ row, getResolvedPrintTicket s tenant (digest sha256 (ticketIdentity normalized)) = .ok row →
        s.now < row.expiresAt := by
  have hcons : ∀ row ∈ s.tickets, Consistent sha256 row.2 := by
    -- whatever the requests of the history were
    have hmeets : Run.Meets (step sha256 repository) (fun _ _ => True) start history :=
      Run.meets_of_forall (fun _ _ _ => trivial) start
    rw [hs]
    refine hmeets.invariant (P := fun s => ∀ row ∈ s.tickets, Consistent sha256 row.2)
      (fun _ _ h _ => consistent_step h) ?_
    rw [hstart]
    exact List.forall_mem_nil _
  have hsto : resolve sha256 repository s tenant intent stockFindings =
      storeResolvedPrintTicket repository s tenant ⟨digest sha256 (ticketIdentity normalized),
        normalized.printerId, normalized.capabilityRevision, ⟨ticketIdentity normalized,
          s.now + 15 * 60 * 1000, digest sha256 (ticketIdentity normalized)⟩,
        s.now + 15 * 60 * 1000, s.now⟩ := by
    simp only [resolve, hvalid]
  rw [hsto] at hresolve ⊢
  obtain ⟨hget, hcases⟩ := storeResolvedPrintTicket_ok hresolve
  set after := (storeResolvedPrintTicket repository s tenant _).2
  have haft : after.printers = s.printers ∧ after.now = s.now := by
    rcases storeResolvedPrintTicket_cases with hsame | hnew
    · rw [show after = _ from hsame]
      exact ⟨rfl, rfl⟩
    · rw [show after = _ from hnew]
      exact ⟨rfl, rfl⟩
  have hticket : ticket.displayTicket.identity = ticketIdentity normalized ∧
      Consistent sha256 ticket := by
    rcases hcases with hex | ⟨rfl, -⟩
    · obtain ⟨hmem, hdig⟩ := getResolvedPrintTicket_ok hex
      have hrow := hcons _ hmem
      exact ⟨hcollision _ hmem (hrow.1.symm.trans hdig), hrow⟩
    · exact ⟨rfl, rfl, rfl, rfl, normalized.portableOptions, rfl⟩
  have husable : Usable after tenant ticket ↔ s.now < ticket.expiresAt :=
    ⟨fun h => haft.2 ▸ h.1, fun hlt => usable hget haft hvalid hticket.1 hticket.2 hlt⟩
  rw [husable]
  constructor
  · intro hlt row hrow
    rcases hcases with hex | ⟨-, hmiss⟩
    · cases hex.symm.trans hrow
      exact hlt
    · exact absurd (hmiss.symm.trans hrow) nofun
  · intro hall
    rcases hcases with hex | ⟨rfl, -⟩
    · exact hall ticket hex
    · show s.now < s.now + 15 * 60 * 1000
      omega

namespace Sample

/-- Two copies. -/
def intent : PrintIntent :=
  ⟨1, "prt_1", 3, none, none, { JobOptions.default with copies := some 2 }, [], .object []⟩

/-- The digest of the identity of the ticket. -/
def hash (bytes : List UInt8) : Vector UInt8 32 :=
  if bytes = asBytes (String.ofList (ticketIdentity intent).toJson.text) then #v[
    0x8e, 0x34, 0x10, 0x68, 0x0d, 0x9b, 0x40, 0x16, 0x74, 0x71, 0x9a, 0xac, 0xda, 0xbc, 0x53, 0x19,
    0x70, 0x00, 0x6c, 0xce, 0xd2, 0x89, 0xbd, 0xaa, 0x98, 0x17, 0xd7, 0x54, 0xd9, 0x98, 0x41, 0x3a]
  else Vector.replicate 32 0

def printer : StoredPrinter := ⟨3, false, false, 9, [], [], fun _ => none, fun _ _ => none, []⟩

def start : Store := ⟨fun _ _ => some printer, fun _ _ => none, [], 0⟩

/-- The ticket that the intent is first resolved to. -/
def first : StoredResolvedPrintTicket :=
  ⟨digest hash (ticketIdentity intent), "prt_1", 3,
    ⟨ticketIdentity intent, 900000, digest hash (ticketIdentity intent)⟩, 900000, 0⟩

def resolved (now : Int) : Store := { start with tickets := [("w/e", first)], now := now }

/-- The intent is resolved, and after some time it will be again. -/
def history (milliseconds : Nat) : List Op := [.resolve "w/e" intent [], .wait milliseconds]

theorem exec_history (repository : Repository) (milliseconds : Nat) :
    Run.exec (step hash repository) start (history milliseconds) = resolved milliseconds := by
  have hrs : resolve hash repository start "w/e" intent [] =
      storeResolvedPrintTicket repository start "w/e" first := rfl
  have hsto : (storeResolvedPrintTicket repository start "w/e" first).2 = resolved 0 := by
    cases repository <;> rfl
  simp only [history, Run.exec_cons, Run.exec_nil, step, hrs, hsto, resolved]
  simp

theorem resolve_again (repository : Repository) (now : Int) :
    resolve hash repository (resolved now) "w/e" intent [] = (.ok first, resolved now) := by
  have hrs : resolve hash repository (resolved now) "w/e" intent [] =
      storeResolvedPrintTicket repository (resolved now) "w/e" { first with
          displayTicket := { first.displayTicket with expiresAt := now + 15 * 60 * 1000 }
          expiresAt := now + 15 * 60 * 1000
          createdAt := now } := rfl
  rw [hrs]
  cases repository
  · simp [storeResolvedPrintTicket, getResolvedPrintTicket, resolved, first, i64Max]
  · simp [storeResolvedPrintTicket, resolved, first]

end Sample

open Sample

theorem resolved_ticket_usable_soon : Usable (resolve hash .postgres
      (Run.exec (step hash .postgres) start (history 60000)) "w/e" intent []).2 "w/e" first := by
  refine (resolved_ticket_usable_iff hash .postgres start rfl (history 60000)
    "w/e" intent intent [] first _ rfl ?_ ?_ ?_).mpr ?_
  · rw [exec_history]
    rfl
  · rw [exec_history]
    exact List.forall_mem_singleton.mpr fun _ => rfl
  · rw [exec_history, resolve_again]
  · rw [exec_history]
    intro row hrow
    obtain ⟨hmem, -⟩ := getResolvedPrintTicket_ok hrow
    obtain ⟨-, rfl⟩ := Prod.mk.inj (List.mem_singleton.mp hmem)
    decide

/-- The ticket has expired, and is returned again. -/
theorem expired_ticket_resolved :
    (∀ repository : Repository, (resolve hash repository
        (Run.exec (step hash repository) start (history 900000)) "w/e" intent []).1 = .ok first) ∧
    ∀ repository : Repository, ¬Usable (resolve hash repository
        (Run.exec (step hash repository) start (history 900000)) "w/e"
          intent []).2 "w/e" first := by
  constructor
  · intro repository
    rw [exec_history, resolve_again]
  · intro repository
    rw [exec_history, resolve_again]
    exact fun h => absurd h.1 (by decide)

end Piqae.Server.Tickets
