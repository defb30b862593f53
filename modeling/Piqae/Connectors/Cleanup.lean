/-
Piqae/Connectors/Cleanup.lean

What is on the clean-up list of the registry of connectors gets destroyed,
so no live handle may be there, and a handle that is nowhere is a key that
nothing will ever destroy.  Both are invariants over all operations
(`Sound`, `Kept`), and the checks that `persist_all` makes before each write
are part of the first, so that the document on disk always loads.

The invariants hold as long as `add` and `replace` are
given a handle that the registry does not know, and `replace` drops no
handle (`Fresh`).  `validate_key_state` compares handles with the prepared
ones only, so the code lets both happen: a connector can be added under a
handle that is about to be deleted, and the old handle of a replaced
connector is forgotten.
-/
import Piqae.Base
import Piqae.Connectors.Registry

namespace Piqae.Connectors

open SortedMap
open List hiding contains_iff

variable {r : ConnectorRegistry} {record : ConnectorRecord} {handle : SecureKeyHandle}
  {written : Bool} {cleanup : List SecureKeyHandle}

/-! ### The checks of a write -/

/-- What `persist_all` checks. -/
structure Checked (r : ConnectorRegistry) : Prop where
  size : r.records.size ≤ maxConnectors
  keys : validateKeyState r.records r.preparedKeys r.keyCleanup = .ok ()
  revoked : mismatchedRevocation r.records r.remoteRevoked = false

theorem persistAll_ok {saved : Installation} (h : persistAll r written = .ok saved) :
    saved = ⟨some r.document, r⟩ ∧ Checked r := by
  unfold persistAll at h
  split at h
  · cases h
  rename_i hsize
  obtain ⟨_, hkeys, h⟩ := Except.bind_eq_ok h
  split_ifs at h with hrev
  cases h
  exact ⟨rfl, by omega, hkeys, by simpa using hrev⟩

theorem persistAll_return_ok {α : Type} {a b : α} {saved : Installation}
    (h : (do return (a, ← persistAll r written)) = .ok (b, saved)) :
    b = a ∧ saved = ⟨some r.document, r⟩ ∧ Checked r := by
  obtain ⟨saved', hpers, ⟨⟩⟩ := Except.bind_eq_ok h
  exact ⟨rfl, persistAll_ok hpers⟩

theorem Checked.prepared_apart (h : Checked r) {pending : PreparedConnectorKey}
    (hpend : pending ∈ r.preparedKeys) :
    (∀ e ∈ r.records.entries, e.2.secureKeyHandle ≠ some pending.handle) ∧
      pending.handle ∉ r.keyCleanup := by
  have hkeys := h.keys
  unfold validateKeyState at hkeys
  split_ifs at hkeys with hsize hoverlap
  simp only [not_exists, not_and, not_or] at hoverlap
  obtain ⟨hrecs, hcl⟩ := hoverlap pending hpend
  exact ⟨fun e he => hrecs e.2 (mem_values.mpr ⟨e.1, he⟩), hcl⟩

theorem handleIsKnown_eq_false (h : ¬r.handleIsKnown handle = true) :
    (∀ e ∈ r.records.entries, e.2.secureKeyHandle ≠ some handle) ∧
      (∀ pending ∈ r.preparedKeys, pending.handle ≠ handle) ∧ handle ∉ r.keyCleanup ∧
      ∀ identity ∈ r.installationIdentity, identity.handle ≠ handle := by
  simp only [ConnectorRegistry.handleIsKnown, Bool.or_eq_true, any_eq_true, not_or, not_exists,
    decide_eq_true_eq, contains_iff_mem, Option.any_eq_true, not_and] at h
  obtain ⟨⟨⟨hrecs, hprep⟩, hcl⟩, hident⟩ := h
  exact ⟨fun e he => hrecs e.2 (mem_values.mpr ⟨e.1, he⟩), hprep, hcl,
    hident⟩

/-! ### Handles apart -/

/-- The handles of the registry are in one place each, up to a disabled connector whose handle
waits for its clean-up. -/
structure Sound (r : ConnectorRegistry) : Prop where
  checked : Checked r
  stored : ∀ e ∈ r.records.entries,
    e.2.connectorId = e.1 ∧ validateRecord e.2 = .ok () ∧ e.2.sorted = e.2
  unique : ∀ e ∈ r.records.entries, ∀ e' ∈ r.records.entries, ∀ handle,
    e.2.secureKeyHandle = some handle → e'.2.secureKeyHandle = some handle → e.1 = e'.1
  live : ∀ e ∈ r.records.entries, ∀ handle, e.2.secureKeyHandle = some handle →
    e.2.enabled = true → handle ∉ r.keyCleanup
  identity : ∀ identity ∈ r.installationIdentity,
    (∀ e ∈ r.records.entries, e.2.secureKeyHandle ≠ some identity.handle) ∧
      (∀ pending ∈ r.preparedKeys, pending.handle ≠ identity.handle) ∧
      identity.handle ∉ r.keyCleanup

theorem Sound.empty : Sound .empty where
  checked := ⟨by decide, by decide, by decide⟩
  stored := forall_mem_nil _
  unique := forall_mem_nil _
  live := forall_mem_nil _
  identity := nofun

namespace Sound

variable {s : ConnectorRegistry}

/-- A record is stored whose handle is that of no other connector, not that of the installation
and, when it is enabled, not on the clean-up list. -/
theorem insertRecord (record : ConnectorRecord) (h : Sound r) (hchk : Checked s)
    (hrecs : s.records = r.records.insert record.connectorId record)
    (hprep : ∀ pending ∈ s.preparedKeys, pending ∈ r.preparedKeys)
    (hcl : s.keyCleanup = r.keyCleanup)
    (hident : s.installationIdentity = r.installationIdentity)
    (hsto : validateRecord record = .ok () ∧ record.sorted = record)
    (hfree : ∀ handle, record.secureKeyHandle = some handle →
      (∀ e ∈ r.records.entries, e.1 ≠ record.connectorId → e.2.secureKeyHandle ≠ some handle) ∧
      (∀ identity ∈ r.installationIdentity, identity.handle ≠ handle) ∧
      (record.enabled = true → handle ∉ r.keyCleanup)) : Sound s := by
  have hmem : ∀ e ∈ s.records.entries, e = (record.connectorId, record) ∨
      (e.1 ≠ record.connectorId ∧ e ∈ r.records.entries) := fun e he =>
    mem_insert.mp (hrecs ▸ he)
  refine ⟨hchk, ?_, ?_, ?_, ?_⟩
  · rw [hrecs]
    exact forall_mem_insert ⟨rfl, hsto⟩ h.stored
  · intro e he e' he' handle hhd hhd'
    rcases hmem e he with rfl | ⟨hne, he⟩
    · rcases hmem e' he' with rfl | ⟨hne', he'⟩
      · rfl
      · exact absurd hhd' ((hfree handle hhd).1 e' he' hne')
    · rcases hmem e' he' with rfl | ⟨-, he'⟩
      · exact absurd hhd ((hfree handle hhd').1 e he hne)
      · exact h.unique e he e' he' handle hhd hhd'
  · rw [hrecs, hcl]
    exact forall_mem_insert (fun handle hhd => (hfree handle hhd).2.2) h.live
  · rw [hident, hcl]
    intro identity hmemI
    obtain ⟨hrec, hpend, hq⟩ := h.identity identity hmemI
    refine ⟨?_, fun pending hmemP => hpend pending (hprep pending hmemP), hq⟩
    rw [hrecs]
    exact forall_mem_insert (fun hhd => (hfree _ hhd).2.1 identity hmemI rfl) hrec

/-- Handles are put on the clean-up list that are those of no enabled connector and not that of
the installation. -/
theorem requeue (h : Sound r) (hchk : Checked s) (hrecs : s.records = r.records)
    (hprep : ∀ pending ∈ s.preparedKeys, pending ∈ r.preparedKeys)
    (hident : s.installationIdentity = r.installationIdentity)
    (hcl : ∀ handle ∈ s.keyCleanup, handle ∈ r.keyCleanup ∨
      ((∀ e ∈ r.records.entries, e.2.enabled = true → e.2.secureKeyHandle ≠ some handle) ∧
        ∀ identity ∈ r.installationIdentity, identity.handle ≠ handle)) : Sound s := by
  refine ⟨hchk, hrecs ▸ h.stored, hrecs ▸ h.unique, ?_, ?_⟩
  · rw [hrecs]
    intro e he handle hhd hen hmem
    rcases hcl handle hmem with hmem | ⟨hfree, -⟩
    · exact h.live e he handle hhd hen hmem
    · exact hfree e he hen hhd
  · rw [hident, hrecs]
    intro identity hmemI
    obtain ⟨hrec, hpend, hq⟩ := h.identity identity hmemI
    refine ⟨hrec, fun pending hmemP => hpend pending (hprep pending hmemP), ?_⟩
    intro hmem
    rcases hcl _ hmem with hmem | ⟨-, hfree⟩
    · exact hq hmem
    · exact hfree identity hmemI rfl

end Sound

/-! ### No handle is lost -/

/-- The handle is a connector's, prepared or waits for its clean-up. -/
def Known (r : ConnectorRegistry) (handle : SecureKeyHandle) : Prop :=
  (∃ e ∈ r.records.entries, e.2.secureKeyHandle = some handle) ∨
    (∃ pending ∈ r.preparedKeys, pending.handle = handle) ∨ handle ∈ r.keyCleanup

/-- The registry was written; its handles are apart, and all that were known are known or were
cleaned up. -/
structure Moved (r : ConnectorRegistry) (cleaned : List SecureKeyHandle) (saved : Installation) :
    Prop where
  disk : saved.disk = some saved.registry.document
  sound : Sound saved.registry
  kept : ∀ handle, Known r handle → Known saved.registry handle ∨ handle ∈ cleaned

/-- A record is stored over one whose handle, if it has another, is not lost. -/
theorem known_insertRecord (record : ConnectorRecord) {s : ConnectorRegistry}
    (hrecs : s.records = r.records.insert record.connectorId record)
    (hold : ∀ previous, r.records.get? record.connectorId = some previous →
      ∀ handle, previous.secureKeyHandle = some handle → Known s handle)
    {e : String × ConnectorRecord} (he : e ∈ r.records.entries)
    (hhd : e.2.secureKeyHandle = some handle) : Known s handle := by
  by_cases hid : e.1 = record.connectorId
  · exact hold e.2 (get?_eq_some_iff.mpr (hid ▸ he)) handle hhd
  · exact .inl ⟨e, hrecs ▸ mem_insert.mpr (.inr ⟨hid, he⟩), hhd⟩

theorem mem_pushCleanup {other : SecureKeyHandle} :
    other ∈ Installation.pushCleanup cleanup handle ↔ other ∈ cleanup ∨ other = handle := by
  unfold Installation.pushCleanup
  split
  · rename_i hmem
    exact ⟨.inl, fun h => h.elim id fun h => h ▸ hmem⟩
  · simp

theorem mem_foldl_pushCleanup {handles : List SecureKeyHandle} :
    handle ∈ handles.foldl Installation.pushCleanup cleanup ↔
      handle ∈ cleanup ∨ handle ∈ handles := by
  induction handles generalizing cleanup with
  | nil => simp
  | cons first handles ih => rw [foldl_cons, ih, mem_pushCleanup, mem_cons, or_assoc]

/-! ### The operations -/

section

variable {i saved : Installation} (h : Sound i.registry) {now : Int} {connectorId : String}
  {confirmed : Bool}

include h

theorem setInstallationIdentityOnce_moved {identity : InstallationSigningIdentity}
    (hok : i.setInstallationIdentityOnce identity written = .ok saved) :
    Moved i.registry [] saved := by
  unfold Installation.setInstallationIdentityOnce at hok
  split_ifs at hok with hknown hid
  obtain ⟨rfl, hchk⟩ := persistAll_ok hok
  refine ⟨rfl, ⟨hchk, h.stored, h.unique, h.live, ?_⟩, fun _ => .inl⟩
  obtain ⟨hrecs, hprep, hcl, -⟩ := handleIsKnown_eq_false (not_or.mp hknown).2
  intro other hother
  cases hother
  exact ⟨hrecs, hprep, hcl⟩

theorem registerPreparedKey_moved {publicKey : List UInt8} {expiresUnixMs : Int}
    (hok : i.registerPreparedKey handle publicKey expiresUnixMs now written = .ok saved) :
    Moved i.registry [] saved := by
  unfold Installation.registerPreparedKey at hok
  split_ifs at hok with hknown
  obtain ⟨rfl, hchk⟩ := persistAll_ok hok
  obtain ⟨-, -, -, hident⟩ := handleIsKnown_eq_false (not_or.mp hknown).2
  refine ⟨rfl, ⟨hchk, h.stored, h.unique, h.live, ?_⟩, ?_⟩
  · intro identity hmem
    obtain ⟨hrecs, hprep, hcl⟩ := h.identity identity hmem
    exact ⟨hrecs, forall_mem_concat hprep (hident identity hmem).symm, hcl⟩
  · rintro other (hrec | ⟨pending, hpend, hhd⟩ | hcl)
    · exact .inl (.inl hrec)
    · exact .inl (.inr (.inl ⟨pending, mem_append_left _ hpend, hhd⟩))
    · exact .inl (.inr (.inr hcl))

theorem completePrepared_moved (hok : i.completePrepared record now written = .ok saved) :
    Moved i.registry [] saved := by
  obtain ⟨_, hval, hok⟩ := Except.bind_eq_ok hok
  split at hok
  · cases hok
  rename_i handle hhd
  split at hok
  · cases hok
  rename_i pending hfind
  split_ifs at hok with hexp hexists
  obtain ⟨rfl, hchk⟩ := persistAll_ok hok
  have hpend := mem_of_find?_eq_some hfind
  have hsame : pending.handle = handle := by simpa using find?_some hfind
  obtain ⟨hrecs, hcl⟩ := h.checked.prepared_apart hpend
  refine ⟨rfl, h.insertRecord record.sorted hchk rfl (fun _ => mem_of_mem_eraseP) rfl rfl
    ⟨(validateRecord_sorted record).trans hval, sorted_sorted record⟩ ?_, ?_⟩
  · intro other hother
    obtain rfl : handle = other := Option.some.inj (hhd.symm.trans hother)
    subst hsame
    exact ⟨fun e he _ => hrecs e he,
      fun identity hmem => ((h.identity identity hmem).2.1 pending hpend).symm,
      fun _ => hcl⟩
  · rintro other (⟨e, he, hother⟩ | ⟨other, hmem, rfl⟩ | hmem)
    · refine .inl (known_insertRecord record.sorted rfl ?_ he hother)
      exact fun _ hprev => absurd (Option.isSome_of_eq_some hprev) hexists
    · by_cases hother : other.handle = handle
      · refine .inl (.inl ⟨(record.connectorId, record.sorted),
          mem_insert.mpr (.inl rfl), ?_⟩)
        rw [hother]
        exact hhd
      · refine .inl (.inr (.inl ⟨other, ?_, rfl⟩))
        exact (mem_eraseP_of_neg (by simpa using hother)).mpr hmem
    · exact .inl (.inr (.inr hmem))

theorem cancelPreparedKey_moved {cancelled : Bool}
    (hok : i.cancelPreparedKey handle written = .ok (cancelled, saved)) :
    saved = i ∨ Moved i.registry [] saved := by
  unfold Installation.cancelPreparedKey at hok
  split at hok
  · cases hok
    exact .inl rfl
  rename_i removed hfind
  obtain ⟨rfl, rfl, hchk⟩ := persistAll_return_ok hok
  have hrem := mem_of_find?_eq_some hfind
  have hsame : removed.handle = handle := by simpa using find?_some hfind
  refine .inr ⟨rfl, h.requeue hchk rfl (fun _ => mem_of_mem_eraseP) rfl ?_, ?_⟩
  · intro other hother
    rcases mem_pushCleanup.mp hother with hother | rfl
    · exact .inl hother
    · exact .inr ⟨fun e he _ => (h.checked.prepared_apart hrem).1 e he,
        fun identity hmem => ((h.identity identity hmem).2.1 removed hrem).symm⟩
  · rintro other (hrec | ⟨pending, hpend, rfl⟩ | hcl)
    · exact .inl (.inl hrec)
    · by_cases hother : pending.handle = handle
      · exact .inl (.inr (.inr (mem_pushCleanup.mpr (.inr (hother.trans hsame.symm)))))
      · refine .inl (.inr (.inl ⟨pending, ?_, rfl⟩))
        exact (mem_eraseP_of_neg (by simpa using hother)).mpr hpend
    · exact .inl (.inr (.inr (mem_pushCleanup.mpr (.inl hcl))))

theorem expirePreparedKeys_moved {count : Nat}
    (hok : i.expirePreparedKeys now written = .ok (count, saved)) :
    saved = i ∨ Moved i.registry [] saved := by
  unfold Installation.expirePreparedKeys at hok
  dsimp only at hok
  split_ifs at hok
  · cases hok
    exact .inl rfl
  obtain ⟨rfl, rfl, hchk⟩ := persistAll_return_ok hok
  refine .inr ⟨rfl, h.requeue hchk rfl (fun _ => mem_of_mem_filter) rfl ?_, ?_⟩
  · intro other hother
    rcases mem_foldl_pushCleanup.mp hother with hother | hother
    · exact .inl hother
    · obtain ⟨pending, hpend, rfl⟩ := mem_map.mp hother
      have hmem := mem_of_mem_filter hpend
      exact .inr ⟨fun e he _ => (h.checked.prepared_apart hmem).1 e he,
        fun identity hident => ((h.identity identity hident).2.1 pending hmem).symm⟩
  · rintro other (hrec | ⟨pending, hpend, rfl⟩ | hcl)
    · exact .inl (.inl hrec)
    · by_cases hexp : pending.expiresUnixMs ≤ now
      · refine .inl (.inr (.inr (mem_foldl_pushCleanup.mpr (.inr ?_))))
        exact mem_map_of_mem (mem_filter.mpr ⟨hpend, by simpa using hexp⟩)
      · exact .inl (.inr (.inl ⟨pending, mem_filter.mpr ⟨hpend, by simpa using hexp⟩,
          rfl⟩))
    · exact .inl (.inr (.inr (mem_foldl_pushCleanup.mpr (.inl hcl))))

theorem confirmRemoteRevocation_moved
    (hok : i.confirmRemoteRevocation connectorId written = .ok (confirmed, saved)) :
    saved = i ∨ Moved i.registry [] saved := by
  unfold Installation.confirmRemoteRevocation at hok
  split at hok
  · cases hok
  rename_i record hget
  split_ifs at hok with hen
  · cases hok
    exact .inl rfl
  obtain ⟨rfl, rfl, hchk⟩ := persistAll_return_ok hok
  have he := get?_eq_some_iff.mp hget
  have hq : ∀ other, other ∈ record.secureKeyHandle.elim i.registry.keyCleanup
      (Installation.pushCleanup i.registry.keyCleanup) ↔
      other ∈ i.registry.keyCleanup ∨ record.secureKeyHandle = some other := by
    intro other
    cases record.secureKeyHandle <;> simp [mem_pushCleanup, eq_comm]
  refine .inr ⟨rfl, h.requeue hchk rfl (fun _ => id) rfl ?_, ?_⟩
  · intro other hother
    rcases (hq other).mp hother with hother | hother
    · exact .inl hother
    · refine .inr ⟨?_, ?_⟩
      · -- The handle of a disabled connector is that of no enabled one.
        intro e' he' hen' hhd
        have hid := h.unique _ he e' he' other hother hhd
        have hrec := congrArg Prod.snd (eq_of_mem_of_mem he he' hid)
        exact hen ((congrArg ConnectorRecord.enabled hrec).trans hen')
      · intro identity hmem hsame
        subst hsame
        exact (h.identity identity hmem).1 _ he hother
  · rintro other (hrec | hprep | hcl)
    · exact .inl (.inl hrec)
    · exact .inl (.inr (.inl hprep))
    · exact .inl (.inr (.inr ((hq other).mpr (.inl hcl))))

theorem confirmKeyCleanup_moved
    (hok : i.confirmKeyCleanup handle written = .ok (confirmed, saved)) :
    (saved = i ∧ confirmed = false) ∨ (Moved i.registry [handle] saved ∧ confirmed = true) := by
  unfold Installation.confirmKeyCleanup at hok
  split at hok
  · cases hok
  split at hok
  · cases hok
    exact .inl ⟨rfl, rfl⟩
  obtain ⟨rfl, rfl, hchk⟩ := persistAll_return_ok hok
  refine .inr ⟨⟨rfl, h.requeue hchk rfl (fun _ => id) rfl ?_, ?_⟩, rfl⟩
  · exact fun other hother => .inl (mem_of_mem_erase hother)
  · rintro other (hrec | hprep | hcl)
    · exact .inl (.inl hrec)
    · exact .inl (.inr (.inl hprep))
    · by_cases hother : other = handle
      · exact .inr (mem_singleton.mpr hother)
      · exact .inl (.inr (.inr ((mem_erase_of_ne hother).mpr hcl)))

theorem add_moved (hfresh : ∀ handle ∈ record.secureKeyHandle, ¬i.registry.handleIsKnown handle)
    (hok : i.add record written = .ok saved) : Moved i.registry [] saved := by
  obtain ⟨_, hval, hok⟩ := Except.bind_eq_ok hok
  split_ifs at hok with hsize hexists
  obtain ⟨rfl, hchk⟩ := persistAll_ok hok
  refine ⟨rfl, h.insertRecord record.sorted hchk rfl (fun _ => id) rfl rfl
    ⟨(validateRecord_sorted record).trans hval, sorted_sorted record⟩ ?_, ?_⟩
  · intro handle hhd
    obtain ⟨hfree, -, hcl, hident⟩ := handleIsKnown_eq_false (hfresh handle hhd)
    exact ⟨fun e he _ => hfree e he, hident, fun _ => hcl⟩
  · rintro other (⟨e, he, hother⟩ | hrest)
    · refine .inl (known_insertRecord record.sorted rfl ?_ he hother)
      exact fun _ hprev => absurd (Option.isSome_of_eq_some hprev) hexists
    · exact .inl (.inr hrest)

theorem revoke_moved {revoked : Bool} (hok : i.revoke connectorId written = .ok (revoked, saved)) :
    saved = i ∨ Moved i.registry [] saved := by
  unfold Installation.revoke at hok
  split at hok
  · cases hok
    exact .inl rfl
  rename_i record hget
  split at hok
  · cases hok
    exact .inl rfl
  obtain ⟨written', hpers, hok⟩ := Except.bind_eq_ok hok
  cases hok
  obtain ⟨rfl, hchk⟩ := persistAll_ok hpers
  have he := get?_eq_some_iff.mp hget
  obtain ⟨hkey, hval, hsort⟩ := h.stored _ he
  obtain rfl : record.connectorId = connectorId := hkey
  have hsorted := congrArg (fun sorted : ConnectorRecord => { sorted with enabled := false }) hsort
  refine .inr ⟨rfl, h.insertRecord { record with enabled := false } hchk rfl (fun _ => id) rfl rfl
    ⟨hval, hsorted⟩ ?_, ?_⟩
  · refine fun handle hhd => ⟨?_, ?_, nofun⟩
    · exact fun e he' hne hother => hne (h.unique e he' _ he handle hother hhd)
    · exact fun identity hmem heq => (h.identity identity hmem).1 _ he (heq ▸ hhd)
  · rintro other (⟨e, he', hother⟩ | hrest)
    · refine .inl (known_insertRecord { record with enabled := false } rfl ?_ he' hother)
      intro previous hprev handle hhd
      cases hget.symm.trans hprev
      exact .inl ⟨_, mem_insert.mpr (.inl rfl), hhd⟩
    · exact .inl (.inr hrest)

/-- A connector is replaced under a handle that is its own and is not to be cleaned up, or that
the registry does not know, and its old handle stays its own or was given up before. -/
structure Replaceable (i : Installation) (cleaned : List SecureKeyHandle) (record : ConnectorRecord)
    (previous : ConnectorRecord) : Prop where
  free : ∀ handle ∈ record.secureKeyHandle,
    (previous.secureKeyHandle = some handle ∧ handle ∉ i.registry.keyCleanup) ∨
      ¬i.registry.handleIsKnown handle
  kept : ∀ handle ∈ previous.secureKeyHandle,
    record.secureKeyHandle = some handle ∨ handle ∈ i.registry.keyCleanup ∨ handle ∈ cleaned

instance (i : Installation) (cleaned : List SecureKeyHandle) (record previous : ConnectorRecord) :
    Decidable (Replaceable i cleaned record previous) :=
  decidable_of_iff (_ ∧ _) ⟨fun h => ⟨h.1, h.2⟩, fun h => ⟨h.free, h.kept⟩⟩

theorem replace_moved {cleaned : List SecureKeyHandle} {replaced : ConnectorRecord}
    (hfresh : ∀ previous ∈ i.registry.records.get? record.connectorId,
      Replaceable i cleaned record previous)
    (hok : i.replace record written = .ok (replaced, saved)) : Moved i.registry cleaned saved := by
  obtain ⟨_, hval, hok⟩ := Except.bind_eq_ok hok
  split at hok
  · cases hok
  rename_i previous hget
  obtain ⟨rfl, rfl, hchk⟩ := persistAll_return_ok hok
  obtain ⟨hfree, hkept⟩ := hfresh replaced hget
  have he := get?_eq_some_iff.mp hget
  refine ⟨rfl, h.insertRecord record.sorted hchk rfl (fun _ => id) rfl rfl
    ⟨(validateRecord_sorted record).trans hval, sorted_sorted record⟩ ?_, ?_⟩
  · intro handle hhd
    rcases hfree handle hhd with ⟨hown, hcl⟩ | hunknown
    · refine ⟨?_, ?_, fun _ => hcl⟩
      · exact fun e he' hne hother => hne (h.unique e he' _ he handle hother hown)
      · intro identity hmem hsame
        exact (h.identity identity hmem).1 _ he (hsame ▸ hown)
    · obtain ⟨hother, -, hcl, hident⟩ := handleIsKnown_eq_false hunknown
      exact ⟨fun e he' _ => hother e he', hident, fun _ => hcl⟩
  · rintro other (⟨e, he', hother⟩ | hrest)
    · by_cases hid : e.1 = record.connectorId
      · have hsame : e.2 = replaced :=
          congrArg Prod.snd (eq_of_mem_of_mem he' he hid)
        rcases hkept other (hsame ▸ hother) with hown | hcl | hcleaned
        · exact .inl (.inl ⟨(record.connectorId, record.sorted),
            mem_insert.mpr (.inl rfl), hown⟩)
        · exact .inl (.inr (.inr hcl))
        · exact .inr hcleaned
      · exact .inl (.inl ⟨e, mem_insert.mpr (.inr ⟨hid, he'⟩), hother⟩)
    · exact .inl (.inr hrest)

end

/-! ### Loading -/

/-- Records that were checked and sorted are loaded as they are, one behind the other. -/
theorem loadRecords_eq {records : Records} {l : List (String × ConnectorRecord)}
    (hsort : (records.entries ++ l).Pairwise fun a b => a.1 < b.1)
    (hsto : ∀ e ∈ l, e.2.connectorId = e.1 ∧ validateRecord e.2 = .ok () ∧ e.2.sorted = e.2) :
    loadRecords records (l.map (·.2)) =
      .ok (l.foldl (fun records e => records.insert e.1 e.2) records) := by
  induction l generalizing records with
  | nil => rfl
  | cons e l ih =>
    obtain ⟨hkey, hval, hsame⟩ := hsto e mem_cons_self
    have hlast : ∀ e' ∈ records.entries, e'.1 < e.1 := fun e' he' =>
      (pairwise_append.mp hsort).2.2 e' he' e mem_cons_self
    have habs : ¬records.contains e.2.connectorId = true := by
      rw [hkey, contains_iff]
      rintro ⟨record, hmem⟩
      exact lt_irrefl _ (hlast (e.1, record) hmem)
    have hents := entries_insert_of_lt (v := e.2) hlast
    rw [map_cons, loadRecords, hval]
    show (if records.contains e.2.connectorId then _ else _) = _
    rw [if_neg habs, hsame, hkey]
    refine ih ?_ fun e' he' => hsto e' (mem_cons_of_mem _ he')
    rw [hents]
    simpa using hsort

theorem foldl_insert_entries {α : Type} (m : SortedMap String α) :
    m.entries.foldl (fun m e => m.insert e.1 e.2) .empty = m := by
  ext1
  exact entries_foldl_insert m.sorted

theorem load_document (h : Sound r) : load (some r.document) = .ok r := by
  have hrecs : loadRecords .empty r.records.values = .ok r.records := by
    have hload : loadRecords .empty (r.records.entries.map (·.2)) =
        .ok (r.records.entries.foldl (fun records e => records.insert e.1 e.2) .empty) :=
      loadRecords_eq r.records.sorted h.stored
    rwa [foldl_insert_entries] at hload
  have hrev : r.remoteRevoked.keys.foldl (fun set id => set.insert id ()) .empty =
      r.remoteRevoked := by
    rw [SortedMap.keys, foldl_map]
    exact foldl_insert_entries r.remoteRevoked
  have hsize : ¬maxConnectors < r.records.values.length := by
    have hlen : r.records.values.length = r.records.size := length_map _
    have hbd := h.checked.size
    omega
  unfold load ConnectorRegistry.document
  dsimp only
  rw [if_neg (not_not.mpr rfl), if_neg hsize, hrecs]
  show (validateKeyState r.records r.preparedKeys r.keyCleanup >>= _) = _
  rw [h.checked.keys, hrev]
  show (if mismatchedRevocation r.records r.remoteRevoked = true then _ else Except.ok r) =
    Except.ok r
  rw [h.checked.revoked]
  rfl

/-! ### Runs -/

inductive Op where
  | setInstallationIdentityOnce (identity : InstallationSigningIdentity)
  | registerPreparedKey (handle : SecureKeyHandle) (publicKey : List UInt8) (expires now : Int)
  | completePrepared (record : ConnectorRecord) (now : Int)
  | cancelPreparedKey (handle : SecureKeyHandle)
  | expirePreparedKeys (now : Int)
  | confirmRemoteRevocation (connectorId : String)
  | confirmKeyCleanup (handle : SecureKeyHandle)
  | add (record : ConnectorRecord)
  | revoke (connectorId : String)
  | replace (record : ConnectorRecord)

/-- The installation after an operation, and the handle whose clean-up it confirmed. -/
def Op.apply (i : Installation) (written : Bool) :
    Op → Except String (List SecureKeyHandle × Installation)
  | setInstallationIdentityOnce identity =>
    (i.setInstallationIdentityOnce identity written).map ([], ·)
  | registerPreparedKey handle publicKey expires now =>
    (i.registerPreparedKey handle publicKey expires now written).map ([], ·)
  | completePrepared record now => (i.completePrepared record now written).map ([], ·)
  | cancelPreparedKey handle => (i.cancelPreparedKey handle written).map ([], ·.2)
  | expirePreparedKeys now => (i.expirePreparedKeys now written).map ([], ·.2)
  | confirmRemoteRevocation connectorId =>
    (i.confirmRemoteRevocation connectorId written).map ([], ·.2)
  | confirmKeyCleanup handle =>
    (i.confirmKeyCleanup handle written).map fun done => (if done.1 then [handle] else [], done.2)
  | add record => (i.add record written).map ([], ·)
  | revoke connectorId => (i.revoke connectorId written).map ([], ·.2)
  | replace record => (i.replace record written).map ([], ·.2)

/-- An installation, with all handles its connectors ever had or that were ever prepared and those
whose clean-up was confirmed. -/
structure Trace where
  installation : Installation
  registered : List SecureKeyHandle
  cleaned : List SecureKeyHandle

def Trace.start : Trace := ⟨⟨none, .empty⟩, [], []⟩

def ConnectorRegistry.handles (r : ConnectorRegistry) : List SecureKeyHandle :=
  r.records.values.filterMap (·.secureKeyHandle) ++ r.preparedKeys.map (·.handle)

/-- One operation; an error leaves everything as it was. -/
def step (t : Trace) (op : Op × Bool) : Trace :=
  match op.1.apply t.installation op.2 with
  | .error _ => t
  | .ok (cleaned, saved) =>
    ⟨saved, saved.registry.handles ++ t.registered, cleaned ++ t.cleaned⟩

/-- A connector is added under a handle that the registry does not know, and replaced under its
own or such a handle, with its old handle kept or given up before. -/
def Fresh (t : Trace) (op : Op × Bool) : Prop :=
  match op.1 with
  | .add record =>
    ∀ handle ∈ record.secureKeyHandle, ¬t.installation.registry.handleIsKnown handle
  | .replace record =>
    ∀ previous ∈ t.installation.registry.records.get? record.connectorId,
      Replaceable t.installation t.cleaned record previous
  | _ => True

instance (t : Trace) (op : Op × Bool) : Decidable (Fresh t op) := by
  rcases op with ⟨op, written⟩
  cases op <;> unfold Fresh <;> infer_instance

variable {t : Trace}

theorem apply_moved {op : Op} {cleaned : List SecureKeyHandle} {saved : Installation}
    (h : Sound t.installation.registry) (hfresh : Fresh t (op, written))
    (hok : op.apply t.installation written = .ok (cleaned, saved)) :
    (saved = t.installation ∧ cleaned = []) ∨
      Moved t.installation.registry (cleaned ++ t.cleaned) saved := by
  have hmore : ∀ {handles}, Moved t.installation.registry [] saved →
      Moved t.installation.registry handles saved := fun hmoved =>
    ⟨hmoved.disk, hmoved.sound, fun handle hknown =>
      .inl ((hmoved.kept handle hknown).resolve_right not_mem_nil)⟩
  cases op <;> obtain ⟨result, hres, heq⟩ := Except.map_eq_ok hok <;> cases heq
  case setInstallationIdentityOnce => exact .inr (hmore (setInstallationIdentityOnce_moved h hres))
  case registerPreparedKey => exact .inr (hmore (registerPreparedKey_moved h hres))
  case completePrepared => exact .inr (hmore (completePrepared_moved h hres))
  case cancelPreparedKey =>
    exact (cancelPreparedKey_moved h hres).imp (⟨·, rfl⟩) hmore
  case expirePreparedKeys =>
    exact (expirePreparedKeys_moved h hres).imp (⟨·, rfl⟩) hmore
  case confirmRemoteRevocation =>
    exact (confirmRemoteRevocation_moved h hres).imp (⟨·, rfl⟩) hmore
  case confirmKeyCleanup handle =>
    obtain ⟨confirmed, saved⟩ := result
    rcases confirmKeyCleanup_moved h hres with ⟨rfl, rfl⟩ | ⟨hmoved, rfl⟩
    · exact .inl ⟨rfl, rfl⟩
    · refine .inr ⟨hmoved.disk, hmoved.sound, fun other hknown => ?_⟩
      exact (hmoved.kept other hknown).imp_right (mem_append_left _)
  case add => exact .inr (hmore (add_moved h hfresh hres))
  case revoke => exact (revoke_moved h hres).imp (⟨·, rfl⟩) hmore
  case replace => exact .inr (replace_moved h hfresh hres)

/-- The handles are apart, no handle was lost, and the document on disk is that of the registry. -/
structure Clean (t : Trace) : Prop where
  sound : Sound t.installation.registry
  kept : ∀ handle ∈ t.registered, Known t.installation.registry handle ∨ handle ∈ t.cleaned
  disk : load t.installation.disk = .ok t.installation.registry

theorem known_of_mem_handles (h : handle ∈ r.handles) : Known r handle := by
  rcases mem_append.mp h with h | h
  · obtain ⟨record, hrec, hhd⟩ := mem_filterMap.mp h
    obtain ⟨id, hmem⟩ := mem_values.mp hrec
    exact .inl ⟨(id, record), hmem, hhd⟩
  · obtain ⟨pending, hpend, rfl⟩ := mem_map.mp h
    exact .inr (.inl ⟨pending, hpend, rfl⟩)

theorem Clean.step {op : Op × Bool} (h : Clean t) (hfresh : Fresh t op) : Clean (step t op) := by
  unfold Connectors.step
  split
  · exact h
  rename_i cleaned saved hok
  rcases apply_moved h.sound hfresh hok with ⟨rfl, rfl⟩ | hmoved
  · exact ⟨h.sound, forall_mem_append.mpr
      ⟨fun handle hmem => .inl (known_of_mem_handles hmem), h.kept⟩, h.disk⟩
  · refine ⟨hmoved.sound, forall_mem_append.mpr
      ⟨fun handle hmem => .inl (known_of_mem_handles hmem), fun handle hmem => ?_⟩, ?_⟩
    · rcases h.kept handle hmem with hknown | hcleaned
      · exact hmoved.kept handle hknown
      · exact .inr (mem_append_right _ hcleaned)
    · rw [hmoved.disk]
      exact load_document hmoved.sound

/-- **Key clean-up**: after every run of operations, with writes that fail anywhere, whose
connectors come and go under fresh handles, no handle on the clean-up list is that of an enabled
connector, prepared or that of the installation; every handle that was ever a connector's or
prepared is one of these, on the list, or was cleaned up; and the document on disk loads as the
registry that is in memory. -/
theorem key_cleanup_safe (ops : List (Op × Bool)) (h : Run.Meets step Fresh .start ops) :
    let t := Run.exec step .start ops
    (∀ handle ∈ t.installation.registry.keyCleanup,
      (∀ record ∈ t.installation.registry.records.values,
        record.enabled = true → record.secureKeyHandle ≠ some handle) ∧
      (∀ pending ∈ t.installation.registry.preparedKeys, pending.handle ≠ handle) ∧
      ∀ identity ∈ t.installation.registry.installationIdentity, identity.handle ≠ handle) ∧
    (∀ handle ∈ t.registered, Known t.installation.registry handle ∨ handle ∈ t.cleaned) ∧
    load t.installation.disk = .ok t.installation.registry := by
  have hstart : Clean .start := ⟨.empty, forall_mem_nil _, rfl⟩
  have hclean := h.invariant (fun _ _ h hfresh => .step h hfresh) hstart
  refine ⟨?_, hclean.kept, hclean.disk⟩
  intro handle hmem
  refine ⟨?_, ?_, ?_⟩
  · intro record hrec hen hhd
    obtain ⟨id, he⟩ := mem_values.mp hrec
    exact hclean.sound.live (id, record) he handle hhd hen hmem
  · rintro pending hpend rfl
    exact (hclean.sound.checked.prepared_apart hpend).2 hmem
  · rintro identity hident rfl
    exact (hclean.sound.identity identity hident).2.2 hmem

namespace Sample

def office (handle : SecureKeyHandle) : ConnectorRecord where
  connectorId := "ncon_office"
  agentId := "agt_office"
  controlPlaneUrl := ⟨"https", some "api.example", "", none, none⟩
  manageUrl := none
  deviceKeyFile := none
  secureKeyHandle := some handle
  enabled := true
  printerGrant := .allLocalPrinters
  allowedPrinterIds := []
  nodeIdentityRevision := none
  nodeIdentityAppliedLocalRevision := none
  nodeIdentityConflictRevision := none
  nodeIdentityConflictLocalRevision := none

def enrolled : List (Op × Bool) :=
  [(.registerPreparedKey "key-1" [] 60000 0, true), (.completePrepared (office "key-1") 1, true)]

def revoked : List (Op × Bool) :=
  enrolled ++
    [(.revoke "ncon_office", true), (.confirmRemoteRevocation "ncon_office", false),
      (.confirmRemoteRevocation "ncon_office", true)]

def renewed : List (Op × Bool) :=
  revoked ++ [(.replace (office "key-2"), true)]

/-- The connector is replaced under the handle that is to be cleaned up. -/
def reused : Trace := Run.exec step .start (revoked ++ [(.replace (office "key-1"), true)])

/-- The connector is replaced under another handle while it is enabled. -/
def dropped : Trace := Run.exec step .start (enrolled ++ [(.replace (office "key-2"), true)])

end Sample

open Sample

theorem key_cleanup_safe_renewed :
    (Run.exec step .start renewed).installation.registry.keyCleanup = ["key-1"] ∧
      load (Run.exec step .start renewed).installation.disk =
        .ok (Run.exec step .start renewed).installation.registry :=
  ⟨by decide +kernel, (key_cleanup_safe renewed (by decide +kernel)).2.2⟩

/-- A connector that was revoked is replaced under its old handle, which is then both live and to be
cleaned up; and the handle of a connector that is replaced under another one is lost. -/
theorem live_key_cleaned_up :
    ("key-1" ∈ Sample.reused.installation.registry.keyCleanup ∧
      Sample.reused.installation.registry.activeHandle "key-1" = true) ∧
    "key-1" ∈ Sample.dropped.registered ∧
      Sample.dropped.installation.registry.handleIsKnown "key-1" = false ∧
      "key-1" ∉ Sample.dropped.cleaned := by
  decide +kernel

end Piqae.Connectors
