/-
Piqae/Broker/Nonces.lean

A proof works once.

Each proof that was accepted and has not expired is recorded in the registry and
on the disk (`Kept`), whatever writes fail and whenever the broker is restarted.
A record expires at the last instant at which its proof is accepted, so that this
is enough only if no proof comes at that instant; and a nonce that is used again
for a later issue time outlives its first record.  `Timely` excludes the two: a
proof that comes after its last instant is refused because of its age.
-/
import Piqae.Broker.Registry

namespace Piqae.Broker

open List

/-- A proof that was accepted. -/
structure Accepted where
  applicationId : String
  nonce : String
  issuedUnixMs : Int
deriving DecidableEq, Repr

/-- The registry, with the proofs that were accepted and the time. -/
structure Trace where
  durable : Durable
  accepted : List Accepted
  now : Int

inductive Op
  | authorize (identity : BrokerApplicationIdentity) (principal : String)
      (capabilities : ApplicationCapabilities) (token : String) (write : Write)
  | revoke (applicationId : String) (write : Write)
  | authenticateProof (request : Durable.ProofRequest) (principal proof : String) (write : Write)
  | restart
  | wait (milliseconds : Nat)

variable (sha256 : Bytes → Bytes) (hmac : Bytes → List Bytes → String) (t : Trace)

def Trace.step : Op → Trace
  | .authorize identity principal capabilities token write => { t with
      durable := (t.durable.authorize sha256 identity principal capabilities token write).2 }
  | .revoke applicationId write =>
    { t with durable := (t.durable.revoke applicationId write).2 }
  | .authenticateProof request principal proof write =>
    let result := t.durable.authenticateProof sha256 hmac request principal proof t.now write
    { t with
      durable := result.2
      accepted := match result.1 with
        | .ok (some _) =>
          ⟨request.applicationId, request.nonce, request.issuedUnixMs⟩ :: t.accepted
        | _ => t.accepted }
  | .restart => { t with durable := t.durable.restart t.now }
  | .wait milliseconds => { t with now := t.now + milliseconds }

/-- A proof does not come at its last instant, or at that of the clock, and is not one of a later
issue time for a nonce that was accepted. -/
def Timely : Op → Prop
  | .authenticateProof request _ _ _ => t.now < i64Max ∧
      t.now ≠ request.issuedUnixMs + brokerProofMaxSkewMs ∧
      ∀ earlier ∈ t.accepted, earlier.applicationId = request.applicationId →
        earlier.nonce = request.nonce → request.issuedUnixMs ≤ earlier.issuedUnixMs
  | _ => True

instance (op : Op) : Decidable (Timely t op) := by
  cases op <;> unfold Timely <;> infer_instance

def Accepted.record (accepted : Accepted) : ReplayProof :=
  ⟨accepted.applicationId, sha256 (asBytes accepted.nonce), proofExpiry accepted.issuedUnixMs⟩

/-- Proofs that have not expired are recorded, in memory and on the disk. -/
def Kept (accepted : List Accepted) (now : Int) (d : Durable) : Prop :=
  ∀ proof ∈ accepted, now < proofExpiry proof.issuedUnixMs →
    proof.record sha256 ∈ d.registry.replayProofs ∧
      ∃ document ∈ d.disk, proof.record sha256 ∈ document.replayProofs

variable {sha256 hmac t} {d : Durable} {accepted : List Accepted} {now : Int} {write : Write}
  {applications : SortedMap String DurableApplicationAuthorization} {proofs : List ReplayProof}

/-! ### Writes -/

/-- A document with every record that is still needed is written, or not. -/
theorem Kept.persistState (h : Kept sha256 accepted now d)
    (hproofs : ∀ proof ∈ accepted, now < proofExpiry proof.issuedUnixMs →
      proof.record sha256 ∈ proofs) :
    Kept sha256 accepted now (d.persistState applications proofs write) := by
  intro proof hproof hnow
  unfold Durable.persistState
  split_ifs
  · exact h proof hproof hnow
  · exact ⟨(h proof hproof hnow).1, _, rfl, hproofs proof hproof hnow⟩

/-- It is written, and becomes the registry. -/
theorem Kept.persisted {applications' : SortedMap String DurableApplicationAuthorization}
    (hproofs : ∀ proof ∈ accepted, now < proofExpiry proof.issuedUnixMs →
      proof.record sha256 ∈ proofs) : Kept sha256 accepted now
      { d.persistState applications proofs .done with registry := ⟨applications', proofs⟩ } :=
  fun proof hproof hnow => ⟨hproofs proof hproof hnow, _, rfl, hproofs proof hproof hnow⟩

theorem Kept.authorize {identity : BrokerApplicationIdentity} {principal token : String}
    {capabilities : ApplicationCapabilities} (h : Kept sha256 accepted now d) :
    Kept sha256 accepted now
      (d.authorize sha256 identity principal capabilities token write).2 := by
  have hproofs := fun proof hproof hnow => (h proof hproof hnow).1
  unfold Durable.authorize
  split_ifs with _ _ _ hdone
  · exact h
  · exact h
  · exact h
  · subst hdone
    exact .persisted hproofs
  · exact h.persistState hproofs

theorem Kept.revoke {applicationId : String} (h : Kept sha256 accepted now d) :
    Kept sha256 accepted now (d.revoke applicationId write).2 := by
  have hproofs := fun proof hproof hnow => (h proof hproof hnow).1
  unfold Durable.revoke
  split
  · exact h
  split_ifs with _ hdone
  · exact h
  · subst hdone
    exact .persisted hproofs
  · exact h.persistState hproofs

theorem Kept.restart (h : Kept sha256 accepted now d) :
    Kept sha256 accepted now (d.restart now) := by
  unfold Durable.restart
  split
  · exact h
  rename_i registry hload
  intro proof hproof hnow
  obtain ⟨document, hdisk, hrec⟩ := (h proof hproof hnow).2
  refine ⟨?_, document, hdisk, hrec⟩
  unfold load at hload
  rw [hdisk] at hload
  dsimp only [Option.getD_some] at hload
  split_ifs at hload
  obtain ⟨applications, -, rfl⟩ := Option.map_eq_some_iff.mp hload
  exact mem_filter.mpr ⟨hrec, decide_eq_true hnow⟩

/-! ### Proofs -/

/-- No proof was accepted twice. -/
structure Once (sha256 : Bytes → Bytes) (t : Trace) : Prop where
  kept : Kept sha256 t.accepted t.now t.durable
  nodup : (t.accepted.map fun proof => (proof.applicationId, proof.nonce)).Nodup

theorem Once.authenticateProof {request : Durable.ProofRequest} {principal proof : String}
    (h : Once sha256 t) (htimely : Timely t (.authenticateProof request principal proof write)) :
    Once sha256 (t.step sha256 hmac (.authenticateProof request principal proof write)) := by
  obtain ⟨hclock, hlast, hreused⟩ := htimely
  simp only [Trace.step]
  rcases authenticateProof_cases sha256 hmac t.durable request principal proof t.now write with
    hnone | ⟨proofs, hskew, rfl, hfresh, ⟨key, rfl, hdone⟩ | hlost⟩
  · rw [hnone]
    exact h
  all_goals
    have hret : ∀ accepted ∈ t.accepted, t.now < proofExpiry accepted.issuedUnixMs →
        accepted.record sha256 ∈ t.durable.registry.replayProofs.filter (t.now < ·.expiresUnixMs) ++
          [⟨request.applicationId, sha256 (asBytes request.nonce),
            proofExpiry request.issuedUnixMs⟩] := fun accepted hacc hnow =>
      mem_append_left _ (mem_filter.mpr ⟨(h.kept accepted hacc hnow).1, decide_eq_true hnow⟩)
  · rw [hdone]
    refine ⟨.persisted ?_, ?_⟩
    · refine forall_mem_cons.mpr ⟨fun _ => ?_, hret⟩
      exact mem_append_right _ (mem_singleton_self _)
    · refine nodup_cons.mpr ⟨fun hmem => ?_, h.nodup⟩
      -- the record of the first proof has not expired
      obtain ⟨earlier, hearl, hkey⟩ := mem_map.mp hmem
      obtain ⟨happ, hnonce⟩ := Prod.mk.inj hkey
      have hnow : t.now < proofExpiry earlier.issuedUnixMs := by
        have hissued := hreused earlier hearl happ hnonce
        unfold proofExpiry saturatingAddI64
        omega
      refine hfresh _ (h.kept earlier hearl hnow).1 hnow happ ?_
      show sha256 (asBytes earlier.nonce) = _
      rw [hnonce]
  · rw [hlost]
    exact ⟨h.kept.persistState hret, h.nodup⟩

theorem Once.step {op : Op} (h : Once sha256 t) (htimely : Timely t op) :
    Once sha256 (t.step sha256 hmac op) := by
  cases op with
  | authorize => exact ⟨h.kept.authorize, h.nodup⟩
  | revoke => exact ⟨h.kept.revoke, h.nodup⟩
  | authenticateProof => exact h.authenticateProof htimely
  | restart => exact ⟨h.kept.restart, h.nodup⟩
  | wait milliseconds =>
    refine ⟨fun proof hproof hnow => h.kept proof hproof ?_, h.nodup⟩
    have hlater : t.now ≤ t.now + milliseconds := by omega
    exact Int.lt_of_le_of_lt hlater hnow

/-- **A proof works at most once**: for every run in which no proof comes at its last instant or
uses the nonce of an accepted proof with a later issue time, no application has had a proof
accepted twice for one nonce. -/
theorem nonce_accepted_once (sha256 : Bytes → Bytes) (hmac : Bytes → List Bytes → String)
    (now : Int) (ops : List Op)
    (h : Run.Meets (Trace.step sha256 hmac) Timely ⟨.empty, [], now⟩ ops) :
    ((Run.exec (Trace.step sha256 hmac) ⟨.empty, [], now⟩ ops).accepted.map
      fun proof => (proof.applicationId, proof.nonce)).Nodup := by
  have hstart : Once sha256 ⟨.empty, [], now⟩ := ⟨forall_mem_nil _, nodup_nil⟩
  have honce := h.invariant (fun _ _ h htimely => .step h htimely) hstart
  exact honce.nodup

namespace Sample

def authorized : List Op :=
  [.authorize identity principal (.fromCapabilities [.observeStatus]) token .done]

def execute : Op := .authenticateProof request principal proof .done

/-- The request is sent again at once, after a restart, and when it is too old. -/
def replayed : List Op :=
  authorized ++ [execute, execute, .wait 29999, .restart, execute, .wait 2, .restart, execute]

/-- The request is sent again at the last instant, with or without a restart. -/
def replayedLast : List Op := authorized ++ [execute, .wait 30000, execute, .restart, execute]

end Sample

open Sample

theorem nonce_accepted_once_replayed :
    (Run.exec (Trace.step hash mac) ⟨.empty, [], 0⟩ replayed).accepted.length = 1 ∧
      ((Run.exec (Trace.step hash mac) ⟨.empty, [], 0⟩ replayed).accepted.map
        fun proof => (proof.applicationId, proof.nonce)).Nodup :=
  ⟨by decide +kernel, nonce_accepted_once hash mac 0 replayed (by decide +kernel)⟩

/-- A request is accepted three times. -/
theorem nonce_accepted_again :
    (Run.exec (Trace.step hash mac) ⟨.empty, [], 0⟩ replayedLast).accepted =
      List.replicate 3 ⟨"com.example.pos", nonce, 0⟩ := by
  decide +kernel

end Piqae.Broker
