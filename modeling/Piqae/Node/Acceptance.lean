/-
Piqae/Node/Acceptance.lean

Two-phase acceptance of cloud jobs.

An intent is in the queue exactly while its job is pending, and it is the intent
of the offer that was prepared last (`Evident`).  The changes of a party either
leave a job's row and intent alone or write both together, so the invariant is
kept by every change; that the engine's events do not reach a pending job is
part of what a change is.
-/
import Piqae.Node.Interleaving
import Piqae.Route.Restart

namespace Piqae

open AgentStore

/-! ### Offers in the history -/

/-- The offer that a milestone prepares for a job. -/
def preparedFor (jobId : String) : Milestone → Option Offer
  | .prepared offer => if offer.job.jobId = jobId then some offer else none
  | _ => none

/-- The offer that was prepared last for a job. -/
def lastPrepared (history : List Milestone) (jobId : String) : Option Offer :=
  (history.filterMap (preparedFor jobId)).getLast?

variable {history : List Milestone}

theorem lastPrepared_append {ms : List Milestone} {jobId : String}
    (h : ∀ m ∈ ms, preparedFor jobId m = none) :
    lastPrepared (history ++ ms) jobId = lastPrepared history jobId := by
  have hnone : ms.filterMap (preparedFor jobId) = [] :=
    List.filterMap_eq_nil_iff.mpr h
  rw [lastPrepared, List.filterMap_append, hnone, List.append_nil]
  rfl

theorem lastPrepared_prepared (history : List Milestone) (offer : Offer) :
    lastPrepared (history ++ [.prepared offer]) offer.job.jobId = some offer := by
  simp [lastPrepared, preparedFor]

/-- Recorded events are no offers. -/
theorem lastPrepared_putStore (s : Shared) (store : AgentStore) (jobId : String) :
    lastPrepared (s.putStore store).history jobId = lastPrepared s.history jobId := by
  apply lastPrepared_append
  intro m hm
  obtain ⟨event, -, rfl⟩ := List.mem_map.mp hm
  rfl

variable {R : Regime} {p : Party} {s s' : AgentStore} {ms : List Milestone} {jobId : String}
  {last : Option Offer} {intent : CloudAcceptIntent} {row : LocalJob} {confirmed : Bool}
  {t t' : Shared}

/-- Only the preparation of an offer is noted as one. -/
theorem Change.preparedFor_eq_none (h : Change R p s ms s')
    (hother : ∀ offer, ms = [.prepared offer] → offer.job.jobId ≠ jobId) :
    ∀ m ∈ ms, preparedFor jobId m = none := by
  intro m hm
  cases h with
  | quiet _ hnoted =>
    cases m with
    | prepared offer => exact absurd (hnoted _ hm) id
    | _ => rfl
  | settle _ _ hrel =>
    rw [hrel m hm]
    rfl
  | @prepare _ offer _ _ =>
    obtain rfl := List.mem_singleton.mp hm
    exact if_neg (hother offer rfl)
  | _ => cases hm

/-! ### The invariant -/

/-- The intent of a job and what it rests on. -/
structure Evident (s : AgentStore) (last : Option Offer) (jobId : String) : Prop where
  pending : (s.intents.get? jobId).isSome = true ↔ s.stateOf jobId = some .cloudAcceptPending
  prepared : ∀ intent, s.intents.get? jobId = some intent → ∃ row offer,
    s.getJob jobId = some row ∧ last = some offer ∧
      row.accepted.contentSha256 = offer.job.contentSha256 ∧
        intent = offer.lease.intentFor row intent.remoteAcceptConfirmed

section

variable (h : Evident s last jobId)

include h

theorem Evident.none_of_state (hst : s.stateOf jobId ≠ some .cloudAcceptPending) :
    s.intents.get? jobId = none := by
  rcases hget : s.intents.get? jobId with - | intent
  · rfl
  · exact absurd (h.pending.mp (by rw [hget]; rfl)) hst

omit h in
/-- A job without an intent that is not pending. -/
theorem evident_of_none (hget : s.intents.get? jobId = none)
    (hst : s.stateOf jobId ≠ some .cloudAcceptPending) : Evident s last jobId := by
  refine ⟨⟨?_, fun h => absurd h hst⟩, ?_⟩
  · intro h
    rw [hget] at h
    cases h
  · intro intent h
    rw [hget] at h
    cases h

/-- What does not touch a job keeps the invariant about it. -/
theorem Evident.frame (hint : s'.intents.get? jobId = s.intents.get? jobId)
    (hst : s'.stateOf jobId = s.stateOf jobId) (hid : s'.identityOf jobId = s.identityOf jobId) :
    Evident s' last jobId := by
  refine ⟨by rw [hint, hst]; exact h.pending, ?_⟩
  intro intent hget
  rw [hint] at hget
  obtain ⟨row, offer, hrow, hlast, hdig, heq⟩ := h.prepared intent hget
  rw [identityOf_of_getJob hrow] at hid
  obtain ⟨row', hrow', hsame⟩ := Option.map_eq_some_iff.mp hid
  obtain ⟨hacc, hseq⟩ := Prod.mk.inj hsame
  refine ⟨row', offer, hrow', hlast, by rw [hacc, hdig], ?_⟩
  rw [heq]
  simp only [CloudLease.intentFor, hacc, hseq]

theorem Evident.same (hint : s'.intents.get? jobId = s.intents.get? jobId)
    (hrow : s'.getJob jobId = s.getJob jobId) : Evident s' last jobId :=
  h.frame hint (by simp only [stateOf, hrow]) (by simp only [identityOf, hrow])

/-- An event moves a job that is not pending, to a state that is not pending. -/
theorem Evident.moves {moved : String} {target : JobState} (hmoves : Moves s s' moved target)
    (hpend : s.stateOf moved ≠ some .cloudAcceptPending) : Evident s' last jobId := by
  by_cases hid : jobId = moved
  · subst hid
    apply evident_of_none
    · rw [hmoves.intents]
      exact h.none_of_state hpend
    · rw [hmoves.moved]
      nofun
  · exact h.frame (by rw [hmoves.intents]) (hmoves.others jobId hid)
      (congrFun hmoves.identities jobId)

theorem Evident.releases (hrel : Releases s s') : Evident s' last jobId := by
  rcases hrel.withdrawn jobId with ⟨hrow, hint | ⟨hst, hint⟩⟩ | ⟨job, -, -, hrow, hint⟩
  · exact h.same hint hrow
  · refine evident_of_none hint ?_
    rwa [stateOf, hrow]
  · refine evident_of_none hint ?_
    rw [stateOf_of_getJob hrow]
    intro hne
    cases hne

theorem Evident.confirms {confirmed : String} (hconf : Confirms s s' confirmed intent) :
    Evident s' last jobId := by
  have hrow : s'.getJob jobId = s.getJob jobId := by rw [getJob, getJob, hconf.jobs]
  by_cases hid : jobId = confirmed
  · subst hid
    have hget : s'.intents.get? jobId = some { intent with remoteAcceptConfirmed := true } := by
      rw [hconf.intents]
      exact SortedMap.get?_insert_self
    have hst : s'.stateOf jobId = s.stateOf jobId := by simp only [stateOf, hrow]
    refine ⟨?_, ?_⟩
    · rw [hget, hst, ← h.pending, hconf.found]
      exact Iff.rfl
    · intro intent' hget'
      cases hget.symm.trans hget'
      obtain ⟨row, offer, hfound, hlast, hdig, heq⟩ := h.prepared intent hconf.found
      refine ⟨row, offer, hrow.trans hfound, hlast, hdig, ?_⟩
      rw [heq]
      rfl
  · refine h.same ?_ hrow
    rw [hconf.intents]
    exact SortedMap.get?_insert_ne hid

end

theorem evident_prepares {offer : Offer}
    (h : Prepares s s' offer.cloudJob offer.lease row confirmed) :
    Evident s' (some offer) offer.job.jobId := by
  have hget : s'.intents.get? offer.job.jobId = some (offer.lease.intentFor row confirmed) :=
    h.intent
  have hrow : s'.getJob offer.job.jobId = some row := h.written
  refine ⟨?_, ?_⟩
  · rw [hget, stateOf_of_getJob hrow, h.pending]
    simp
  · intro intent hint
    cases hget.symm.trans hint
    exact ⟨row, offer, hrow, rfl, h.digest, rfl⟩

/-- Every change keeps the invariant, with the offer it prepares. -/
theorem Change.evident (h : Change R p s ms s')
    (hev : Evident s (lastPrepared history jobId) jobId) :
    Evident s' (lastPrepared (history ++ ms) jobId) jobId := by
  by_cases hoffer : ∃ offer, ms = [.prepared offer] ∧ offer.job.jobId = jobId
  · obtain ⟨offer, rfl, rfl⟩ := hoffer
    rw [lastPrepared_prepared]
    cases h with
    | quiet _ hnoted => exact absurd (hnoted _ List.mem_cons_self) id
    | settle _ _ hrel => cases hrel _ List.mem_cons_self
    | prepare _ h =>
      rcases h with ⟨rfl, hst⟩ | ⟨row, confirmed, h⟩
      · exact evident_of_none (hev.none_of_state hst) hst
      · exact evident_prepares h
  rw [lastPrepared_append (h.preparedFor_eq_none fun offer hms hid => hoffer ⟨offer, hms, hid⟩)]
  cases h with
  | quiet h =>
    exact hev.frame (by rw [h.intents]) (congrFun h.states jobId) (congrFun h.identities jobId)
  | event h _ _ hpend => exact hev.moves h hpend
  | settle h =>
    refine hev.moves h.toMoves ?_
    rw [h.source_eq]
    nofun
  | @enter _ job row _ h _ =>
    by_cases hid : jobId = job.jobId
    · subst hid
      apply evident_of_none
      · rw [h.intents_eq]
        apply hev.none_of_state
        rw [stateOf_eq_none.mpr h.absent]
        nofun
      · rw [stateOf_of_getJob h.written, h.queued]
        nofun
    · exact hev.same (h.intents jobId hid) (h.rows jobId hid)
  | @prepare _ offer _ h =>
    have hid : jobId ≠ offer.cloudJob.jobId := fun heq => hoffer ⟨offer, rfl, heq.symm⟩
    rcases h with ⟨rfl, -⟩ | ⟨row, confirmed, h⟩
    · exact hev
    · exact hev.same (h.intents jobId hid) (h.rows jobId hid)
  | confirm _ h => exact hev.confirms h
  | @activate _ moved job intent _ _ h =>
    by_cases hid : jobId = moved
    · subst hid
      refine evident_of_none h.consumed ?_
      rw [stateOf_of_getJob h.written]
      nofun
    · exact hev.same (h.intents jobId hid) (h.rows jobId hid)
  | release _ h => exact hev.releases h

/-- Every step of a party keeps the invariant. -/
theorem Acts.evident (h : Acts R p t t')
    (hev : Evident t.store (lastPrepared t.history jobId) jobId) :
    Evident t'.store (lastPrepared t'.history jobId) jobId := by
  obtain ⟨ms, hch, hhist⟩ := h
  rw [hhist]
  apply hch.evident
  rwa [lastPrepared_putStore]

/-! ### What one step may do -/

/-- Two intents are for one offer. -/
structure SameEvidence (intent intent' : CloudAcceptIntent) : Prop where
  leaseId : intent'.leaseId = intent.leaseId
  leaseToken : intent'.leaseToken = intent.leaseToken
  contentSha256 : intent'.contentSha256 = intent.contentSha256
  localSequence : intent'.localSequence = intent.localSequence
  proof : intent'.proof = intent.proof

/-- `activate_cloud_job` has queued a job on a confirmed intent that is as its
offer was prepared. -/
structure ActivatedAsPrepared (t t' : Shared) (jobId : String) (row : LocalJob)
    (intent : CloudAcceptIntent) (offer : Offer) : Prop where
  call : t.store.activateCloudJob jobId = .ok t'.store
  row_eq : t.store.getJob jobId = some row
  intent_eq : t.store.intents.get? jobId = some intent
  confirmed : intent.remoteAcceptConfirmed = true
  prepared : lastPrepared t.history jobId = some offer
  leaseId : intent.leaseId = offer.leaseId
  leaseToken : intent.leaseToken = offer.leaseToken
  proof : intent.proof = offer.proof
  contentSha256 : intent.contentSha256 = offer.job.contentSha256
  localSequence : intent.localSequence = row.printerSequence

/-- What a step does to the acceptance of a job. -/
structure TwoPhase (t t' : Shared) (jobId : String) : Prop where
  /-- An intent is there exactly while its job is pending. -/
  intent_iff : (t.store.intents.get? jobId).isSome = true ↔
    t.store.stateOf jobId = some .cloudAcceptPending
  /-- A cloud job is queued by activation only. -/
  activated : ∀ row', t'.store.getJob jobId = some row' → row'.cloudManaged = true →
    row'.state = .known .queuedLocal → t.store.stateOf jobId ≠ some (.known .queuedLocal) →
      ∃ row intent offer, ActivatedAsPrepared t t' jobId row intent offer
  /-- A confirmed intent stays the intent for its offer. -/
  kept : ∀ intent, t.store.intents.get? jobId = some intent →
    intent.remoteAcceptConfirmed = true → t'.store.stateOf jobId = some .cloudAcceptPending →
      ∃ intent', t'.store.intents.get? jobId = some intent' ∧
        intent'.remoteAcceptConfirmed = true ∧ SameEvidence intent intent'

theorem SameEvidence.refl (intent : CloudAcceptIntent) : SameEvidence intent intent :=
  ⟨rfl, rfl, rfl, rfl, rfl⟩

theorem sameEvidence_of_matches {lease : CloudLease}
    (h : cloudAcceptEvidenceMatches intent row lease = true) :
    SameEvidence intent (lease.intentFor row confirmed) := by
  simp only [cloudAcceptEvidenceMatches, Bool.and_eq_true, beq_iff_eq] at h
  exact ⟨h.1.1.1.1.symm, h.1.1.1.2.symm, h.1.1.2.symm, h.1.2.symm, h.2.symm⟩

/-- Only activation queues a cloud job. -/
theorem Change.activates (h : Change R p s ms s') {row' : LocalJob}
    (hrow' : s'.getJob jobId = some row') (hmg : row'.cloudManaged = true)
    (hq : row'.state = .known .queuedLocal) (hbef : s.stateOf jobId ≠ some (.known .queuedLocal)) :
    s.activateCloudJob jobId = .ok s' ∧ ∃ job intent, Activates s s' jobId job intent := by
  have haft : s'.stateOf jobId = some (.known .queuedLocal) := by
    rw [stateOf_of_getJob hrow', hq]
  -- whatever leaves the state of the job alone does not queue it
  have hsame : s'.stateOf jobId ≠ s.stateOf jobId := fun heq => hbef (heq ▸ haft)
  have hsameRow : s'.getJob jobId ≠ s.getJob jobId :=
    fun heq => hsame (by simp only [stateOf, heq])
  cases h with
  | quiet h => exact absurd (congrFun h.states jobId) hsame
  | @event _ moved basis target h _ _ _ hloc _ =>
    by_cases hid : jobId = moved
    · subst hid
      obtain ⟨row, moved, hrow, hmoved, hsameId, hst⟩ := h.row
      cases hrow'.symm.trans hmoved
      rw [hq] at hst
      have := hloc (LocalState.known.inj hst).symm row hrow
      rw [← managed_of_identity hsameId, hmg] at this
      cases this
    · exact absurd (h.others jobId hid) hsame
  | @settle _ _ moved source target cloud h hpair _ _ _ =>
    by_cases hid : jobId = moved
    · subst hid
      rw [h.moved] at haft
      cases Option.some.inj haft
      simp [settlements] at hpair
    · exact absurd (h.others jobId hid) hsame
  | @enter _ job row _ h hloc =>
    by_cases hid : jobId = job.jobId
    · subst hid
      cases hrow'.symm.trans h.written
      rw [LocalJob.cloudManaged, h.accepted, hloc] at hmg
      cases hmg
    · exact absurd (h.rows jobId hid) hsameRow
  | @prepare _ offer _ h =>
    rcases h with ⟨rfl, -⟩ | ⟨row, confirmed, h⟩
    · exact absurd rfl hsame
    by_cases hid : jobId = offer.cloudJob.jobId
    · subst hid
      cases hrow'.symm.trans h.written
      cases hq.symm.trans h.pending
    · exact absurd (h.rows jobId hid) hsameRow
  | confirm _ h =>
    refine absurd ?_ hsameRow
    rw [getJob, getJob, h.jobs]
  | @activate _ moved job intent _ hcall h =>
    by_cases hid : jobId = moved
    · subst hid
      exact ⟨hcall, job, intent, h⟩
    · exact absurd (h.rows jobId hid) hsameRow
  | release _ h =>
    rcases h.withdrawn jobId with ⟨hrow, -⟩ | ⟨job, -, -, hrow, -⟩
    · exact absurd hrow hsameRow
    · cases hrow'.symm.trans hrow
      cases hq

/-- A confirmed intent is not replaced while its job is pending. -/
theorem Change.kept (h : Change R p s ms s') (hev : Evident s last jobId)
    (hget : s.intents.get? jobId = some intent) (hconf : intent.remoteAcceptConfirmed = true)
    (haft : s'.stateOf jobId = some .cloudAcceptPending) :
    ∃ intent', s'.intents.get? jobId = some intent' ∧ intent'.remoteAcceptConfirmed = true ∧
      SameEvidence intent intent' := by
  have hpend : s.stateOf jobId = some .cloudAcceptPending := hev.pending.mp (by rw [hget]; rfl)
  have hsame : s'.intents.get? jobId = s.intents.get? jobId → ∃ intent',
      s'.intents.get? jobId = some intent' ∧ intent'.remoteAcceptConfirmed = true ∧
        SameEvidence intent intent' :=
    fun heq => ⟨intent, heq.trans hget, hconf, .refl intent⟩
  cases h with
  | quiet h | event h | settle h => exact hsame (by rw [h.intents])
  | enter _ h => exact hsame (by rw [h.intents_eq])
  | @prepare _ offer _ h =>
    rcases h with ⟨rfl, -⟩ | ⟨row, confirmed, h⟩
    · exact hsame rfl
    by_cases hid : jobId = offer.cloudJob.jobId
    · subst hid
      obtain ⟨rfl, hmat⟩ := h.kept hpend intent hget hconf
      exact ⟨_, h.intent, rfl, sameEvidence_of_matches hmat⟩
    · exact hsame (h.intents jobId hid)
  | @confirm _ confirmed intent' _ h =>
    by_cases hid : jobId = confirmed
    · subst hid
      cases hget.symm.trans h.found
      refine ⟨{ intent with remoteAcceptConfirmed := true }, ?_, rfl, rfl, rfl, rfl, rfl, rfl⟩
      rw [h.intents]
      exact SortedMap.get?_insert_self
    · refine hsame ?_
      rw [h.intents]
      exact SortedMap.get?_insert_ne hid
  | @activate _ moved job _ _ _ h =>
    by_cases hid : jobId = moved
    · subst hid
      rw [stateOf_of_getJob h.written] at haft
      cases haft
    · exact hsame (h.intents jobId hid)
  | release _ h =>
    rcases h.withdrawn jobId with ⟨-, hint | ⟨hst, -⟩⟩ | ⟨job, -, -, hrow, -⟩
    · exact hsame hint
    · exact absurd hpend hst
    · rw [stateOf_of_getJob hrow] at haft
      cases haft

theorem Acts.twoPhase (h : Acts R p t t')
    (hev : Evident t.store (lastPrepared t.history jobId) jobId) : TwoPhase t t' jobId := by
  obtain ⟨ms, hch, -⟩ := h
  refine ⟨hev.pending, ?_, fun intent => hch.kept hev⟩
  intro row' hrow' hmg hq hbef
  obtain ⟨hcall, job, intent, hacts⟩ := hch.activates hrow' hmg hq hbef
  obtain ⟨row, offer, hrow, hlast, hdig, heq⟩ := hev.prepared intent hacts.intent_eq
  refine ⟨row, intent, offer, hcall, hrow, hacts.intent_eq, hacts.confirmed, hlast, ?_, ?_, ?_,
    heq ▸ hdig, ?_⟩ <;> rw [heq] <;> rfl

/-! ### Runs -/

namespace Node

/-- A call of the queue, once begun, is the only thing that runs until it returns
or the process dies. -/
def Uninterrupted (n : Node) : NodeOp → Prop
  | .engine _ => inside n.sync = false
  | .sync _ => inside n.engine = false
  | .elsewhere _ => inside n.engine = false ∧ inside n.sync = false
  | _ => True

instance (n : Node) (op : NodeOp) : Decidable (Uninterrupted n op) := by
  cases op <;> unfold Uninterrupted <;> infer_instance

/-- Calls of the queue are the steps; the engine's events may be stale. -/
def uninterrupted : Regime := ⟨True, False, False, .inl trivial⟩

theorem Uninterrupted.admits {n : Node} {op : NodeOp} (h : n.Uninterrupted op) :
    n.Admits uninterrupted op := by
  cases op with
  | engine input => exact ⟨fun _ _ => ⟨nofun, nofun⟩, fun _ => h⟩
  | sync input => exact ⟨fun _ _ => ⟨nofun, nofun⟩, fun _ => h⟩
  | elsewhere request => exact fun _ => h
  | _ => trivial

variable {W : Worker}

theorem evident_run {ops : List NodeOp}
    (h : Run.Meets (Node.step W) Uninterrupted (blank W) ops) (jobId : String) :
    Evident (run W (blank W) ops).shared.store
      (lastPrepared (run W (blank W) ops).shared.history jobId) jobId := by
  have hinv : (run W (blank W) ops).Sound uninterrupted ∧ Evident (run W (blank W) ops).shared.store
        (lastPrepared (run W (blank W) ops).shared.history jobId) jobId := by
    refine Run.Meets.invariant (P := fun n : Node => n.Sound uninterrupted ∧
      Evident n.shared.store (lastPrepared n.shared.history jobId) jobId) ?_ ?_ h
    · rintro n op ⟨hsound, hev⟩ hop
      obtain ⟨⟨p, hacts, -⟩, hsound'⟩ := hsound.step (W := W) hop.admits
      exact ⟨hsound', hacts.evident hev⟩
    · exact ⟨sound_blank, evident_of_none rfl nofun⟩
  exact hinv.2

/-- **Acceptance is in two phases**: from an empty queue, through any
interleaving of calls of the queue with crashes, an intent is there exactly
while its job is pending, a cloud job is queued only by activation on a
confirmed intent that is as its offer was prepared, and a confirmed intent is
not replaced while its job is pending. -/
theorem cloud_acceptance_two_phase (ops : List NodeOp) (op : NodeOp)
    (h : Run.Meets (Node.step W) Uninterrupted (blank W) (ops ++ [op])) (jobId : String) :
    TwoPhase (run W (blank W) ops).shared (run W (blank W) (ops ++ [op])).shared jobId := by
  obtain ⟨hops, hop, -⟩ := Run.meets_append.mp h
  have hsound := sound_run (R := uninterrupted) (hops.mono fun _ _ => Uninterrupted.admits)
  obtain ⟨⟨p, hacts, -⟩, -⟩ := hsound.step (W := W) hop.admits
  have hstep : run W (blank W) (ops ++ [op]) = Node.step W (run W (blank W) ops) op :=
    Run.exec_append ..
  rw [hstep]
  exact hacts.twoPhase (evident_run hops jobId)

end Node

namespace Sample

/-- A worker that also runs the local queue. -/
def worker : Worker := ⟨encoders, "cloud", true, fun _ => true, fun _ => "command"⟩

/-- Everything goes well. -/
def input : Input where
  database := true
  now := 0
  first := noFault
  second := noFault
  reservationId := 7#128
  fencingToken := 8#128
  installationNamespace := installationNamespace
  native := .ok ⟨"native-1"⟩
  observation := .ok .queued
  cancellation := .ok ()
  bindingCurrent := true
  profile := .ok ()

def pdf : AcceptedJob where
  jobId := "job-1"
  submissionId := "submission-1"
  printerId := "printer-1"
  printerNativeId := "office"
  title := "report"
  contentSha256 := "digest"
  contentPath := "content/digest"
  contentKind := .pdf
  optionsJson := ""
  expiresUnixMs := none
  acceptedUnixMs := 0
  cloudManaged := true

/-- The offer of a job on the office printer. -/
def pdfOffer (generation : Nat) : Offer where
  job := pdf
  leaseId := "lease"
  leaseToken := "token"
  leaseExpiresUnixMs := 1000
  reservation := officeOffer generation
  pinned := ⟨none, none, none, none, none, none, none, none⟩

/-- Start-up, and the discovery of the office printer. -/
def starting : List NodeOp :=
  List.replicate 9 (.engine input) ++
    [.serve, .elsewhere (.reconcile [⟨"office", none, []⟩] 1 0 .written)]

/-- One piece of work of the synchronization, to its end. -/
def synchronizing (order : Order) (actions : Nat) : List NodeOp :=
  .order order :: List.replicate actions (.sync input)

/-- An offer is prepared and confirmed. -/
def confirming : List NodeOp :=
  starting ++ synchronizing (.prepare (pdfOffer 1)) 4 ++ synchronizing (.confirm "job-1") 1

end Sample

open Sample

/-- A job is prepared, confirmed and activated. -/
theorem cloud_acceptance_two_phase_activated :
    Run.Meets (Node.step worker) Node.Uninterrupted (Node.blank worker)
        ((confirming ++ [.order (.activate "job-1")]) ++ [.sync input]) ∧
      TwoPhase (Node.run worker (Node.blank worker)
          (confirming ++ [.order (.activate "job-1")])).shared (Node.run worker (Node.blank worker)
          ((confirming ++ [.order (.activate "job-1")]) ++ [.sync input])).shared "job-1" :=
  have h : Run.Meets (.step worker) Node.Uninterrupted (.blank worker)
      ((confirming ++ [.order (.activate "job-1")]) ++ [.sync input]) := by decide +kernel
  ⟨h, Node.cloud_acceptance_two_phase _ _ h "job-1"⟩

end Piqae
