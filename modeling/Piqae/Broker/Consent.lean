/-
Piqae/Broker/Consent.lean

No capability without consent.

An application asks for capabilities, the operator decides, and the application
exchanges an approval for a credential.  Requests and decisions are kept in
memory, authorisations on the disk, and a revocation looks at the latter only: an
approval that has not been exchanged survives it, and can be exchanged after it.
`NoneApproved` says that a revocation finds no such approval.

The events tell what was requested, approved and revoked, in that order; nothing
of the broker reads them.
-/
import Piqae.Broker.Registry

namespace Piqae.Broker

open SortedMap List

/-- A connection of a signed application. -/
structure PeerApplicationEvidence where
  application : BrokerApplicationIdentity
  principalSha256 : String

structure PendingAuthorization where
  application : BrokerApplicationIdentity
  requestedCapabilities : List BrokerCapability
  expiresUnixMs : Int
  verifiedPrincipalSha256 : String
  nonceSha256 : Bytes
  /-- What the operator granted, or that they denied it. -/
  decision : Option (Except Unit (List BrokerCapability))

structure BrokerAuthorizationHandle where
  authorizationId : Nat
  nonce : String
  expiresUnixMs : Int
deriving DecidableEq, Repr

structure BrokerCredential where
  applicationId : String
  token : String
  grantedCapabilities : List BrokerCapability
deriving DecidableEq, Repr

inductive Event
  | requested (authorizationId : Nat) (principal applicationId : String)
  | approved (authorizationId : Nat) (principal applicationId : String)
      (granted : List BrokerCapability)
  | revoked (applicationId : String)
deriving DecidableEq, Repr

structure Server where
  durable : Durable
  pending : SortedMap Nat PendingAuthorization
  events : List Event

def Server.empty : Server := ⟨.empty, .empty, []⟩

inductive OperationKind
  | status
  | printers
  | pause
  | resume
  | restartAgent
  | exportSupportBundle
  | reenrol
  | beginProfileCapture
  | commitProfileCapture
  | cancelProfileCapture
  | validateProfile
  | confirmLoadedMedia
  | connectInvitation
  | submitLocalJob
  | profiles
  | jobHistory
  | connectorSnapshots
  | revokeConnector
deriving DecidableEq, Repr

def requiredCapability : OperationKind → Option BrokerCapability
  | .status | .connectorSnapshots => some .observeStatus
  | .printers | .profiles => some .observePrinters
  | .beginProfileCapture | .commitProfileCapture | .cancelProfileCapture | .validateProfile
  | .confirmLoadedMedia => some .manageProfiles
  | .pause | .resume | .connectInvitation | .revokeConnector => some .manageConnectors
  | .submitLocalJob => some .submitLocalJobs
  | .jobHistory => some .observeJobHistory
  | .restartAgent | .exportSupportBundle | .reenrol => none

def allCapabilities : List BrokerCapability := [.observeStatus, .observePrinters,
  .observeJobHistory, .manageProfiles, .submitLocalJobs, .manageConnectors]

/-- In the order of the capabilities; none of them twice. -/
def validatedCapabilities (capabilities : List BrokerCapability) : Option (List BrokerCapability) :=
  if capabilities = [] ∨ ¬capabilities.Nodup then none
  else some (allCapabilities.filter (capabilities.contains ·))

def claimedIdentityMatches (claimed verified : BrokerApplicationIdentity) : Bool :=
  claimed.applicationId = verified.applicationId &&
    claimed.signingIdentitySha256.all fun digest => verified.signingIdentitySha256 = some digest

def maxPendingAuthorizations : Nat := 64
def authorizationLifetimeMs : Int := 5 * 60 * 1000

namespace Server

variable (sha256 : Bytes → Bytes) (hmac : Bytes → List Bytes → String) (b : Server)

def pruneExpired (now : Int) : Server :=
  { b with pending := b.pending.retain fun _ pending => now < pending.expiresUnixMs }

def request (claimed : Option BrokerApplicationIdentity) (peer : PeerApplicationEvidence)
    (capabilities : List BrokerCapability) (authorizationId : Nat) (nonce : String) (now : Int) :
    Except String BrokerAuthorizationHandle × Server :=
  if !validIdentity peer.application then (.error "broker_peer_identity_unverified", b)
  else if claimed.any (!claimedIdentityMatches · peer.application) then
    (.error "broker_application_identity_mismatch", b)
  else
    match validatedCapabilities capabilities with
    | none => (.error "invalid_requested_capabilities", b)
    | some capabilities =>
      let b := b.pruneExpired now
      if maxPendingAuthorizations ≤ b.pending.size then (.error "authorization_capacity_reached", b)
      else
        let expires := saturatingAddI64 now authorizationLifetimeMs
        (.ok ⟨authorizationId, nonce, expires⟩, { b with
          pending := b.pending.insert authorizationId ⟨peer.application, capabilities, expires,
            peer.principalSha256, sha256 (asBytes nonce), none⟩
          events := b.events ++ [.requested authorizationId peer.principalSha256
            peer.application.applicationId] })

/-- The operator approves a part of the request, or denies it. -/
def decide (authorizationId : Nat) (approved : Bool) (granted : List BrokerCapability) (now : Int) :
    Except String Unit × Server :=
  let b := b.pruneExpired now
  match b.pending.get? authorizationId with
  | none => (.error "broker_authorization_not_found", b)
  | some pending =>
    if pending.decision.isSome then (.error "broker_authorization_already_decided", b)
    else if !approved then
      if granted ≠ [] then (.error "broker_authorization_invalid_decision", b)
      else (.ok (), { b with
        pending := b.pending.insert authorizationId { pending with decision := some (.error ()) } })
    else
      match validatedCapabilities granted with
      | none => (.error "broker_authorization_invalid_capabilities", b)
      | some granted =>
        if !granted.all (pending.requestedCapabilities.contains ·) then
          (.error "broker_authorization_invalid_capabilities", b)
        else (.ok (), { b with
          pending := b.pending.insert authorizationId
            { pending with decision := some (.ok granted) }
          events := b.events ++ [.approved authorizationId pending.verifiedPrincipalSha256
            pending.application.applicationId granted] })

def authenticatedPending (handle : BrokerAuthorizationHandle) :
    Except String PendingAuthorization :=
  match b.pending.get? handle.authorizationId with
  | none => .error "authorization_not_found"
  | some pending =>
    if handle.expiresUnixMs ≠ pending.expiresUnixMs
        ∨ pending.nonceSha256 ≠ sha256 (asBytes handle.nonce) then
      .error "authorization_invalid_nonce"
    else .ok pending

def exchange (handle : BrokerAuthorizationHandle) (peer : PeerApplicationEvidence) (token : String)
    (write : Write) (now : Int) : Except String BrokerCredential × Server :=
  let b := b.pruneExpired now
  match b.authenticatedPending sha256 handle with
  | .error error => (.error error, b)
  | .ok pending =>
    if pending.verifiedPrincipalSha256 ≠ peer.principalSha256 then
      (.error "broker_peer_identity_mismatch", b)
    else
      match pending.decision with
      | none => (.error "authorization_pending", b)
      | some (.error ()) => (.error "authorization_denied", b)
      | some (.ok capabilities) =>
        match b.durable.authorize sha256 pending.application peer.principalSha256
            (.fromCapabilities capabilities) token write with
        | (.error _, durable) =>
          (.error "authorization_persistence_failed", { b with durable := durable })
        | (.ok token, durable) =>
          (.ok ⟨pending.application.applicationId, token, capabilities⟩, { b with
            durable := durable
            pending := b.pending.erase handle.authorizationId })

def revoke (applicationId : String) (write : Write) : Except String Bool × Server :=
  let (result, durable) := b.durable.revoke applicationId write
  (result, { b with
    durable := durable
    events := if result.toOption = some true then b.events ++ [.revoked applicationId]
      else b.events })

/-- An operation of a verified peer is carried out if its proof is accepted. -/
def execute (operation : OperationKind) (request : Durable.ProofRequest)
    (peer : Option PeerApplicationEvidence) (proof : String) (now : Int) (write : Write) :
    Except String Unit × Server :=
  if requiredCapability operation ≠ some request.capability then (.error "capability_mismatch", b)
  else
    match peer with
    | none => (.error "broker_peer_identity_unverified", b)
    | some peer =>
      let (result, durable) := b.durable.authenticateProof sha256 hmac request peer.principalSha256
        proof now write
      (match result with
        | .ok (some _) => .ok ()
        | .ok none => .error "application_unauthorized"
        | .error _ => .error "broker_state_unavailable", { b with durable := durable })

/-- What was not written is lost. -/
def restart (now : Int) : Server :=
  { b with durable := b.durable.restart now, pending := .empty }

inductive Op
  | request (claimed : Option BrokerApplicationIdentity) (peer : PeerApplicationEvidence)
      (capabilities : List BrokerCapability) (authorizationId : Nat) (nonce : String) (now : Int)
  | decide (authorizationId : Nat) (approved : Bool) (granted : List BrokerCapability) (now : Int)
  | exchange (handle : BrokerAuthorizationHandle) (peer : PeerApplicationEvidence) (token : String)
      (write : Write) (now : Int)
  | revoke (applicationId : String) (write : Write)
  | execute (operation : OperationKind) (request : Durable.ProofRequest)
      (peer : Option PeerApplicationEvidence) (proof : String) (now : Int) (write : Write)
  | restart (now : Int)

def step : Op → Server
  | .request claimed peer capabilities authorizationId nonce now =>
    (b.request sha256 claimed peer capabilities authorizationId nonce now).2
  | .decide authorizationId approved granted now =>
    (b.decide authorizationId approved granted now).2
  | .exchange handle peer token write now => (b.exchange sha256 handle peer token write now).2
  | .revoke applicationId write => (b.revoke applicationId write).2
  | .execute operation request peer proof now write =>
    (b.execute sha256 hmac operation request peer proof now write).2
  | .restart now => b.restart now

/-- A revocation finds no approval of the application that was not exchanged. -/
def NoneApproved : Op → Prop
  | .revoke applicationId _ => ∀ entry ∈ b.pending.entries,
      entry.2.application.applicationId = applicationId →
        ¬∃ granted ∈ entry.2.decision, granted.isOk
  | _ => True

instance (op : Op) : Decidable (b.NoneApproved op) := by
  cases op <;> unfold NoneApproved <;> infer_instance

end Server

/-! ### Consent -/

/-- The operator approved a request of the principal for the application, and has not revoked
the application since. -/
def Consented (events : List Event) (principal applicationId : String)
    (granted : List BrokerCapability) : Prop :=
  ∃ earlier later authorizationId,
    events = earlier ++ .approved authorizationId principal applicationId granted :: later ∧
      .requested authorizationId principal applicationId ∈ earlier ∧ .revoked applicationId ∉ later

/-- An authorisation that is not revoked is one that was consented to. -/
def Backed (events : List Event) (entry : DurableApplicationAuthorization) : Prop :=
  entry.revoked = false → ∀ principal, entry.verifiedPrincipalSha256 = some principal →
    ∃ granted, Consented events principal entry.identity.applicationId granted ∧
      entry.capabilities = .fromCapabilities granted

variable {sha256 : Bytes → Bytes} {hmac : Bytes → List Bytes → String} {b : Server} {d : Durable}
  {events : List Event} {entry : DurableApplicationAuthorization} {write : Write}
  {applicationId : String} {granted : List BrokerCapability} {event : Event}
  {applications : SortedMap String DurableApplicationAuthorization} {now : Int}

theorem Consented.append {principal : String} (h : Consented events principal applicationId granted)
    (hev : event ≠ .revoked applicationId) :
    Consented (events ++ [event]) principal applicationId granted := by
  obtain ⟨earlier, later, authorizationId, rfl, hreq, hrev⟩ := h
  refine ⟨earlier, later ++ [event], authorizationId, by simp, hreq, fun hmem => ?_⟩
  rcases mem_append.mp hmem with hlater | hlast
  · exact hrev hlater
  · exact hev (mem_singleton.mp hlast).symm

theorem Backed.append (h : Backed events entry)
    (hev : event = .revoked entry.identity.applicationId → entry.revoked = true) :
    Backed (events ++ [event]) entry := by
  intro hent principal hprin
  obtain ⟨granted, hcons, hcaps⟩ := h hent principal hprin
  refine ⟨granted, hcons.append fun heq => ?_, hcaps⟩
  exact absurd (hev heq) (Bool.eq_false_iff.mp hent)

/-- What is granted is what was listed. -/
theorem mem_of_allows {capability : BrokerCapability}
    (h : (ApplicationCapabilities.fromCapabilities granted).allows (.requiring capability) = true) :
    capability ∈ granted := by
  have hfold : ∀ start : ApplicationCapabilities,
      (granted.foldl (fun result c => result.union (.requiring c)) start).allows
          (.requiring capability) = true →
        start.allows (.requiring capability) = true ∨ capability ∈ granted := by
    clear h
    induction granted with
    | nil => exact fun start h => .inl h
    | cons first rest ih =>
      intro start h
      rcases ih _ h with hstart | hrest
      · -- one capability is added at a time
        by_cases heq : first = capability
        · exact .inr (heq ▸ mem_cons_self)
        · refine .inl ?_
          cases first <;> cases capability <;>
            simp_all [ApplicationCapabilities.allows, ApplicationCapabilities.union,
              ApplicationCapabilities.requiring, ApplicationCapabilities.none]
      · exact .inr (mem_cons_of_mem first hrest)
  rcases hfold _ h with hnone | hmem
  · cases capability <;> cases hnone
  · exact hmem

/-! ### The registry -/

/-- Authorisations that were consented to, one for an application. -/
structure Durable.Backed (events : List Event) (d : Durable) : Prop where
  memory : ∀ entry ∈ d.registry.applications.entries, Broker.Backed events entry.2
  disk : ∀ document ∈ d.disk, ∀ entry ∈ document.applications, Broker.Backed events entry
  unique : ∀ entry ∈ d.registry.applications.entries, ∀ other ∈ d.registry.applications.entries,
    entry.2.identity.applicationId = other.2.identity.applicationId → entry = other

theorem Durable.Backed.append (h : d.Backed events)
    (hev : ∀ applicationId, event ≠ .revoked applicationId) : d.Backed (events ++ [event]) :=
  ⟨fun entry hent => (h.memory entry hent).append fun heq => absurd heq (hev _),
    fun document hdoc entry hent =>
      (h.disk document hdoc entry hent).append fun heq => absurd heq (hev _), h.unique⟩

/-- There is one authorisation for each application. -/
abbrev Single (applications : SortedMap String DurableApplicationAuthorization) : Prop :=
  ∀ entry ∈ applications.entries, ∀ other ∈ applications.entries,
    entry.2.identity.applicationId = other.2.identity.applicationId → entry = other

theorem Single.insert {key : String} {value : DurableApplicationAuthorization}
    (h : Single applications) (hother : ∀ entry ∈ applications.entries,
      entry.2.identity.applicationId ≠ value.identity.applicationId) :
    Single (applications.insert key value) := by
  refine forall_mem_insert (forall_mem_insert (fun _ => rfl) fun other hold hid => ?_)
    fun entry hold => forall_mem_insert (fun hid => ?_) fun other hold' => h entry hold other hold'
  · exact absurd hid.symm (hother other hold)
  · exact absurd hid (hother entry hold)

/-- New authorisations are written, or not, and take effect if they are. -/
theorem Durable.Backed.persist {proofs : List ReplayProof} (h : d.Backed events)
    (hback : ∀ entry ∈ applications.entries, Broker.Backed events entry.2) :
    (d.persistState applications proofs write).Backed events := by
  unfold Durable.persistState
  split_ifs
  · exact h
  · refine ⟨h.memory, fun document hdoc entry hent => ?_, h.unique⟩
    cases hdoc
    obtain ⟨key, hent⟩ := mem_values.mp hent
    exact hback (key, entry) hent

theorem Durable.Backed.persisted {proofs proofs' : List ReplayProof}
    (hback : ∀ entry ∈ applications.entries, Broker.Backed events entry.2)
    (huniq : Single applications) : Durable.Backed events
      { d.persistState applications proofs .done with registry := ⟨applications, proofs'⟩ } := by
  refine ⟨hback, fun document hdoc entry hent => ?_, huniq⟩
  cases hdoc
  obtain ⟨key, hent⟩ := mem_values.mp hent
  exact hback (key, entry) hent

theorem Durable.Backed.authorize {identity : BrokerApplicationIdentity} {principal token : String}
    (h : d.Backed events) (hcons : Consented events principal identity.applicationId granted) :
    (d.authorize sha256 identity principal (.fromCapabilities granted) token write).2.Backed
      events := by
  let value : DurableApplicationAuthorization :=
    ⟨identity, some principal, .fromCapabilities granted, sha256 (asBytes token), false⟩
  set others := d.registry.applications.retain fun _ entry =>
    entry.identity.applicationId ≠ identity.applicationId
  have hothers : ∀ entry ∈ others.entries, entry ∈ d.registry.applications.entries ∧
      entry.2.identity.applicationId ≠ identity.applicationId := fun entry hent =>
    (mem_retain.mp hent).imp_right of_decide_eq_true
  have hback : ∀ entry ∈ (others.insert principal value).entries, Broker.Backed events entry.2 := by
    refine forall_mem_insert ?_ fun entry hent => h.memory entry (hothers entry hent).1
    rintro - other ⟨⟩
    exact ⟨granted, hcons, rfl⟩
  have huniq : Single (others.insert principal value) :=
    .insert (fun entry hent other hother => h.unique entry (hothers entry hent).1 other
      (hothers other hother).1) fun entry hent => (hothers entry hent).2
  unfold Durable.authorize
  split_ifs with _ _ _ hdone
  · exact h
  · exact h
  · exact h
  · subst hdone
    exact .persisted hback huniq
  · exact h.persist hback

/-- A revocation that succeeds ends the consent. -/
theorem Durable.Backed.revoke (h : d.Backed events) : (d.revoke applicationId write).2.Backed
      (if (d.revoke applicationId write).1.toOption = some true then
        events ++ [.revoked applicationId] else events) := by
  generalize hres : d.revoke applicationId write = result
  unfold Durable.revoke at hres
  split at hres
  · subst hres
    exact h
  rename_i principal entry hfind
  split at hres
  · subst hres
    exact h
  have hent : (principal, entry) ∈ d.registry.applications.entries :=
    mem_of_find?_eq_some hfind
  have hid : entry.identity.applicationId = applicationId := by
    have hkey := List.find?_some hfind
    exact of_decide_eq_true hkey
  set applications := d.registry.applications.modify principal
    fun entry => { entry with revoked := true }
  have hmem : ∀ new ∈ applications.entries, ∃ old, (new.1, old) ∈ d.registry.applications.entries ∧
      new.2.identity = old.identity ∧ (new.2.revoked = true ∨ new.2 = old ∧ new.1 ≠ principal) := by
    intro new hnew
    obtain ⟨old, hold, hval⟩ := mem_mapValues.mp hnew
    refine ⟨old, hold, ?_⟩
    split_ifs at hval with hkey
    · exact ⟨hval ▸ rfl, .inl (hval ▸ rfl)⟩
    · exact ⟨hval ▸ rfl, .inr ⟨hval, hkey⟩⟩
  have hback : ∀ new ∈ applications.entries, Broker.Backed events new.2 := by
    intro new hnew
    obtain ⟨old, hold, -, hrev | ⟨hsame, -⟩⟩ := hmem new hnew
    · exact fun hnot => absurd hrev (Bool.eq_false_iff.mp hnot)
    · exact hsame ▸ h.memory _ hold
  have huniq : Single applications := by
    intro new hnew other hother hsame
    obtain ⟨old, hold, hident, -⟩ := hmem new hnew
    obtain ⟨old', hold', hident', -⟩ := hmem other hother
    have heq := h.unique _ hold _ hold' (by rw [← hident, ← hident', hsame])
    exact eq_of_mem_of_mem hnew hother (Prod.mk.inj heq).1
  split at hres
  · rename_i hdone
    subst hdone hres
    refine .persisted (fun new hnew => ?_) huniq
    obtain ⟨old, hold, hident, hrev | ⟨-, hkey⟩⟩ := hmem new hnew
    · exact (hback new hnew).append fun _ => hrev
    · -- another application, since there is one authorisation for each
      refine (hback new hnew).append fun heq => absurd ?_ hkey
      have hsame : old.identity.applicationId = applicationId := by
        rw [← hident, Event.revoked.inj heq]
      exact (Prod.mk.inj (h.unique _ hold _ hent (hsame.trans hid.symm))).1
  · subst hres
    exact h.persist hback

theorem loadApplications_spec {list : List DurableApplicationAuthorization}
    {start : SortedMap String DurableApplicationAuthorization}
    (h : loadApplications list start = some applications) (huniq : Single start) :
    (∀ entry ∈ applications.entries, entry ∈ start.entries ∨ entry.2 ∈ list) ∧
      Single applications := by
  induction list generalizing start with
  | nil =>
    cases h
    exact ⟨fun _ hent => .inl hent, huniq⟩
  | cons first rest ih =>
    unfold loadApplications at h
    dsimp only at h
    split_ifs at h with hval
    simp only [Bool.and_eq_true, Bool.not_eq_true', any_eq_false, decide_eq_true_eq] at hval
    have hother : ∀ entry ∈ start.entries,
        entry.2.identity.applicationId ≠ first.identity.applicationId := fun entry hent =>
      hval.1.1.2 entry.2 (mem_values.mpr ⟨entry.1, hent⟩)
    obtain ⟨hfrom, huniq'⟩ := ih h (huniq.insert hother)
    refine ⟨fun entry hent => ?_, huniq'⟩
    rcases hfrom entry hent with hstart | hrest
    · rcases mem_insert.mp hstart with rfl | ⟨-, hold⟩
      · exact .inr mem_cons_self
      · exact .inl hold
    · exact .inr (mem_cons_of_mem first hrest)

theorem Durable.Backed.restart (h : d.Backed events) : (d.restart now).Backed events := by
  unfold Durable.restart
  split
  · exact h
  rename_i registry hload
  unfold load at hload
  dsimp only at hload
  split_ifs at hload
  obtain ⟨applications, happs, rfl⟩ := Option.map_eq_some_iff.mp hload
  obtain ⟨hfrom, huniq⟩ := loadApplications_spec happs (forall_mem_nil _)
  refine ⟨fun entry hent => ?_, h.disk, huniq⟩
  rcases hfrom entry hent with hnone | hmem
  · cases hnone
  · cases hdisk : d.disk with
    | none =>
      rw [hdisk] at hmem
      cases hmem
    | some document =>
      rw [hdisk] at hmem
      exact h.disk document hdisk entry.2 hmem

theorem Durable.Backed.authenticateProof {request : Durable.ProofRequest}
    {principal proof : String} (h : d.Backed events) :
    (d.authenticateProof sha256 hmac request principal proof now write).2.Backed events := by
  rcases authenticateProof_cases sha256 hmac d request principal proof now write with
    hnone | ⟨proofs, -, -, -, ⟨key, -, hdone⟩ | hlost⟩
  · exact hnone ▸ h
  · exact hdone ▸ .persisted h.memory h.unique
  · exact hlost ▸ h.persist h.memory

/-- A proof is accepted under an authorisation. -/
theorem authenticateProof_some {request : Durable.ProofRequest} {principal proof : String}
    {key : Bytes}
    (h : (d.authenticateProof sha256 hmac request principal proof now write).1 = .ok (some key)) :
    ∃ entry, d.authorization? request principal = some entry := by
  generalize hres : d.authenticateProof sha256 hmac request principal proof now write = result at h
  unfold Durable.authenticateProof at hres
  split at hres
  · subst hres
    cases h
  split at hres
  · subst hres
    cases h
  · rename_i entry hent
    exact ⟨entry, hent⟩

/-! ### The server -/

/-- What is pending was requested, and what is approved was consented to. -/
structure Server.Backed (b : Server) : Prop where
  durable : b.durable.Backed b.events
  requested : ∀ entry ∈ b.pending.entries,
    .requested entry.1 entry.2.verifiedPrincipalSha256 entry.2.application.applicationId ∈ b.events
  approved : ∀ entry ∈ b.pending.entries, ∀ granted, entry.2.decision = some (.ok granted) →
    Consented b.events entry.2.verifiedPrincipalSha256 entry.2.application.applicationId granted

theorem Server.Backed.pruneExpired (h : b.Backed) (now : Int) : (b.pruneExpired now).Backed :=
  ⟨h.durable, fun entry hent => h.requested entry (mem_retain.mp hent).1,
    fun entry hent => h.approved entry (mem_retain.mp hent).1⟩

theorem Server.Backed.request {claimed : Option BrokerApplicationIdentity}
    {peer : PeerApplicationEvidence} {capabilities : List BrokerCapability}
    {authorizationId : Nat} {nonce : String} (h : b.Backed) :
    (b.request sha256 claimed peer capabilities authorizationId nonce now).2.Backed := by
  have hpr := h.pruneExpired now
  unfold Server.request
  split_ifs
  · exact h
  · exact h
  split
  · exact h
  dsimp only
  split_ifs
  · exact hpr
  exact ⟨hpr.durable.append nofun,
    forall_mem_insert (mem_append_right _ (mem_singleton_self _))
      fun entry hold => mem_append_left _ (hpr.requested entry hold),
    forall_mem_insert nofun
      fun entry hold granted hgr => (hpr.approved entry hold granted hgr).append nofun⟩

theorem Server.Backed.decide {authorizationId : Nat} {approved : Bool} (h : b.Backed) :
    (b.decide authorizationId approved granted now).2.Backed := by
  have hpr := h.pruneExpired now
  unfold Server.decide
  dsimp only
  split
  · exact hpr
  rename_i pending hpend
  have hmem := get?_eq_some_iff.mp hpend
  have hreq := hpr.requested _ hmem
  split_ifs
  · exact hpr
  · exact hpr
  · -- a request that is denied
    exact ⟨hpr.durable, forall_mem_insert hreq hpr.requested,
      forall_mem_insert nofun hpr.approved⟩
  · split
    · exact hpr
    split_ifs
    · exact hpr
    refine ⟨hpr.durable.append nofun, forall_mem_insert (mem_append_left _ hreq)
      fun entry hold => mem_append_left _ (hpr.requested entry hold), forall_mem_insert ?_
      fun entry hold other hother => (hpr.approved entry hold other hother).append nofun⟩
    rintro other ⟨⟩
    exact ⟨_, [], authorizationId, rfl, hreq, not_mem_nil⟩

theorem Server.Backed.exchange {handle : BrokerAuthorizationHandle}
    {peer : PeerApplicationEvidence} {token : String} (h : b.Backed) :
    (b.exchange sha256 handle peer token write now).2.Backed := by
  have hpr := h.pruneExpired now
  unfold Server.exchange
  dsimp only
  split
  · exact hpr
  rename_i pending hpend
  split_ifs with hprin
  · exact hpr
  split
  · exact hpr
  · exact hpr
  rename_i granted hdec
  have hmem : (handle.authorizationId, pending) ∈ (b.pruneExpired now).pending.entries := by
    unfold Server.authenticatedPending at hpend
    split at hpend
    · cases hpend
    rename_i found hfound
    split_ifs at hpend
    cases hpend
    exact get?_eq_some_iff.mp hfound
  have hcons := hpr.approved _ hmem granted hdec
  rw [not_not.mp hprin] at hcons
  have hauth : ((b.pruneExpired now).durable.authorize sha256 pending.application
      peer.principalSha256 (.fromCapabilities granted) token write).2.Backed
        (b.pruneExpired now).events := hpr.durable.authorize hcons
  split
  · rename_i hres
    rw [hres] at hauth
    exact ⟨hauth, hpr.requested, hpr.approved⟩
  · rename_i hres
    rw [hres] at hauth
    exact ⟨hauth, fun entry hent => hpr.requested entry (mem_erase.mp hent).1,
      fun entry hent => hpr.approved entry (mem_erase.mp hent).1⟩

theorem Server.Backed.revoke (h : b.Backed) (hnone : b.NoneApproved (.revoke applicationId write)) :
    (b.revoke applicationId write).2.Backed := by
  have hevs : (b.revoke applicationId write).2.events = b.events ++ [.revoked applicationId] ∨
      (b.revoke applicationId write).2.events = b.events := ite_eq_or_eq _ _ _
  refine ⟨h.durable.revoke, fun entry hent => ?_, fun entry hent granted hgr => ?_⟩
  · have hreq := h.requested entry hent
    rcases hevs with hrev | hsame
    · exact hrev ▸ mem_append_left _ hreq
    · exact hsame ▸ hreq
  · have hcons := h.approved entry hent granted hgr
    rcases hevs with hrev | hsame
    · rw [hrev]
      refine hcons.append fun heq => ?_
      exact hnone entry hent (Event.revoked.inj heq).symm ⟨.ok granted, hgr, rfl⟩
    · exact hsame ▸ hcons

theorem Server.Backed.step {op : Server.Op} (h : b.Backed) (hnone : b.NoneApproved op) :
    (b.step sha256 hmac op).Backed := by
  cases op with
  | request => exact h.request
  | decide => exact h.decide
  | exchange => exact h.exchange
  | revoke => exact h.revoke hnone
  | execute operation request peer proof now write =>
    show (b.execute sha256 hmac operation request peer proof now write).2.Backed
    unfold Server.execute
    split_ifs
    · exact h
    split
    · exact h
    · exact ⟨h.durable.authenticateProof, h.requested, h.approved⟩
  | restart now => exact ⟨h.durable.restart, forall_mem_nil _, forall_mem_nil _⟩

/-- **No capability without current consent**: when no revocation finds an approval that was not
exchanged, an operation that is accepted was consented to, by an approval of a request of that
very principal for the application, after the application was last revoked. -/
theorem execute_consented (sha256 : Bytes → Bytes) (hmac : Bytes → List Bytes → String)
    (ops : List Server.Op) (h : Run.Meets (Server.step sha256 hmac) Server.NoneApproved .empty ops)
    (operation : OperationKind) (request : Durable.ProofRequest)
    (peer : Option PeerApplicationEvidence) (proof : String) (now : Int) (write : Write)
    (haccepted : ((Run.exec (Server.step sha256 hmac) .empty ops).execute sha256 hmac operation
      request peer proof now write).1 = .ok ()) :
    ∃ capability evidence granted, requiredCapability operation = some capability ∧
      peer = some evidence ∧ capability ∈ granted ∧
      Consented (Run.exec (Server.step sha256 hmac) .empty ops).events evidence.principalSha256
        request.applicationId granted := by
  have hstart : Server.empty.Backed :=
    ⟨⟨List.forall_mem_nil _, nofun, List.forall_mem_nil _⟩, List.forall_mem_nil _,
      List.forall_mem_nil _⟩
  have hback := h.invariant (fun _ _ h hnone => Server.Backed.step h hnone) hstart
  set b := Run.exec (Server.step sha256 hmac) .empty ops
  unfold Server.execute at haccepted
  split_ifs at haccepted with hrequired
  split at haccepted
  · cases haccepted
  rename_i evidence
  dsimp only at haccepted
  split at haccepted
  · rename_i key hkey
    obtain ⟨entry, hent⟩ := authenticateProof_some hkey
    obtain ⟨hget, hent⟩ := Option.filter_eq_some_iff.mp hent
    simp only [Bool.and_eq_true, Bool.not_eq_true', decide_eq_true_eq] at hent
    obtain ⟨⟨⟨hrev, hid⟩, hprin⟩, hallows⟩ := hent
    obtain ⟨granted, hcons, hcaps⟩ := hback.durable.memory _ (get?_eq_some_iff.mp hget) hrev _ hprin
    rw [hcaps] at hallows
    exact ⟨request.capability, evidence, granted, not_not.mp hrequired, rfl, mem_of_allows hallows,
      hid ▸ hcons⟩
  · cases haccepted
  · cases haccepted

namespace Sample

/-- The peer is the signed application. -/
def peer : PeerApplicationEvidence := ⟨identity, principal⟩

def approve (authorizationId : Nat) : List Server.Op :=
  [.request none peer [.observeStatus] authorizationId nonce 0,
    .decide authorizationId true [.observeStatus] 0]

def exchange (authorizationId : Nat) (token : String) : Server.Op :=
  .exchange ⟨authorizationId, nonce, 300000⟩ peer token .done 0

/-- A credential is revoked, and there is consent to another one. -/
def approvedAgain : List Server.Op :=
  approve 1 ++ [exchange 1 otherToken, .revoke "com.example.pos" .done] ++ approve 2 ++
    [exchange 2 token]

/-- An approval is exchanged after the application was revoked. -/
def approvedBefore : List Server.Op :=
  approve 1 ++ [exchange 1 otherToken] ++ approve 2 ++
    [.revoke "com.example.pos" .done, exchange 2 token]

end Sample

open Sample

theorem execute_consented_again :
    ∃ capability evidence granted, requiredCapability .status = some capability ∧
      some peer = some evidence ∧ capability ∈ granted ∧
      Consented (Run.exec (Server.step hash mac) .empty
        approvedAgain).events evidence.principalSha256 "com.example.pos" granted :=
  execute_consented hash mac approvedAgain (by decide +kernel) .status
    request (some peer) proof 0 .done (by decide +kernel)

/-- The operation is accepted, and the last event is the revocation. -/
theorem execute_after_revocation : ((Run.exec (Server.step hash mac) .empty approvedBefore).execute
        hash mac .status request (some peer) proof 0 .done).1 = .ok () ∧
    (Run.exec (Server.step hash mac) .empty approvedBefore).events.getLast? =
      some (.revoked "com.example.pos") := by
  decide +kernel

end Piqae.Broker
