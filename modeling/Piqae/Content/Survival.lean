/-
Piqae/Content/Survival.lean

What the directory of content keys is at any time (`Intact`), through
interrupted and finished calls, and what later calls keep of it (`Extends`):
no generation file is written over, and a key that the manifest names stays
named.

A call is specified by what holds in each of its steps.  While the first key
is made this is `Created`, during a rotation `Rotating`; both imply `Intact`,
so a crash anywhere leaves an intact directory.  What can break the first is
a key file with a part of its bytes, and `Whole` says that a crash leaves
none before there is a manifest.

From an intact directory `load_or_create` succeeds.
-/
import Piqae.Content.Keyring

namespace Piqae.Content

open Durable List

variable {Key : Type} {crypto : Crypto Key} {identity : String}
  {A : Torn → Prop} {s t u : Disk} {manifest : KeyringManifest} {id : String} {key : Key}

/-! ### Intact directories -/

variable (crypto identity) in
/-- The manifest is accepted, and its generations are there. -/
structure Valid (s : Disk) (manifest : KeyringManifest) : Prop where
  version : manifest.version = manifestVersion
  hash : manifest.identityHash = crypto.identityHash identity
  active : manifest.activeKeyId ≠ ""
  length : manifest.decryptOnlyKeyIds.length + 1 ≤ maxGenerations
  nodup : manifest.ids.Nodup
  stored : ∀ id ∈ manifest.ids, ∃ key,
    s.files (.generation id) = some (crypto.encode key) ∧ crypto.keyId key = id

variable (crypto identity) in
/-- Every later start can go on from here. -/
structure Intact (s : Disk) : Prop where
  legacy : ∀ text, s.files .legacy = some text → ∃ key, text = crypto.encode key
  first : s.manifest = none → ∀ key, s.files .legacy = some (crypto.encode key) →
    ∀ text, s.files (.generation (crypto.keyId key)) = some text → text = crypto.encode key
  valid : ∀ manifest, s.manifest = some manifest → Valid crypto identity s manifest

/-- No generation is written over, and no key is dropped from the manifest. -/
structure Extends (s t : Disk) : Prop where
  files : ∀ id text, s.files (.generation id) = some text → t.files (.generation id) = some text
  named : ∀ manifest, s.manifest = some manifest →
    ∃ later, t.manifest = some later ∧ ∀ id ∈ manifest.ids, id ∈ later.ids

theorem Extends.refl (s : Disk) : Extends s s :=
  ⟨fun _ _ h => h, fun manifest h => ⟨manifest, h, fun _ => id⟩⟩

theorem Extends.trans (h : Extends s t) (h' : Extends t u) : Extends s u := by
  refine ⟨fun id text hfile => h'.files id text (h.files id text hfile), ?_⟩
  intro manifest hman
  obtain ⟨middle, hmiddle, hids⟩ := h.named manifest hman
  obtain ⟨later, hlater, hids'⟩ := h'.named middle hmiddle
  exact ⟨later, hlater, fun id hid => hids' id (hids id hid)⟩

variable (crypto) in
/-- The keyring is what the manifest names. -/
structure Describes (keyring : ContentKeyring Key) (s : Disk) (manifest : KeyringManifest) :
    Prop where
  active : keyring.activeKeyId = manifest.activeKeyId
  decryptOnly : keyring.decryptOnlyKeyIds = manifest.decryptOnlyKeyIds
  keys : ∀ id key, keyring.keys.get? id = some key ↔
    id ∈ manifest.ids ∧ s.files (.generation id) = some (crypto.encode key)

theorem loadGenerations_ok {ids : List String}
    (h : ∀ id ∈ ids, ∃ key, s.files (.generation id) = some (crypto.encode key) ∧
      crypto.keyId key = id) :
    ∃ keys, loadGenerations crypto s ids = .ok keys ∧ ∀ id key, keys.get? id = some key ↔
      id ∈ ids ∧ s.files (.generation id) = some (crypto.encode key) := by
  induction ids with
  | nil => exact ⟨.empty, rfl, by simp⟩
  | cons first ids ih =>
    obtain ⟨key, hfile, hid⟩ := h first mem_cons_self
    obtain ⟨keys, hload, hkeys⟩ := ih fun id hid => h id (mem_cons_of_mem _ hid)
    refine ⟨keys.insert first key, ?_, ?_⟩
    · simp only [loadGenerations, loadPrivateFile_eq hfile, hload, bind, Except.bind, hid]
      exact if_neg (not_not.mpr rfl)
    · intro id other
      rw [SortedMap.get?_eq_some_iff, SortedMap.mem_insert, ← SortedMap.get?_eq_some_iff, hkeys,
        Prod.mk.injEq, mem_cons]
      by_cases hfst : id = first
      · subst hfst
        simp only [true_and, ne_eq, not_true_eq_false, false_and, or_false, true_or, hfile,
          Option.some.injEq, crypto.encode_injective.eq_iff, eq_comm]
      · simp [hfst]

theorem loadManifestKeyring_ok (hman : s.manifest = some manifest)
    (h : Valid crypto identity s manifest) :
    ∃ keyring, loadManifestKeyring crypto identity s = .ok keyring ∧
      Describes crypto keyring s manifest := by
  obtain ⟨keys, hload, hkeys⟩ := loadGenerations_ok h.stored
  refine ⟨⟨manifest.activeKeyId, keys, manifest.decryptOnlyKeyIds⟩, ?_, rfl, rfl, hkeys⟩
  have hval : ¬(manifest.version ≠ manifestVersion ∨
      manifest.identityHash ≠ crypto.identityHash identity ∨ manifest.activeKeyId = "" ∨
      maxGenerations < manifest.decryptOnlyKeyIds.length + 1) := by
    rintro (hver | hhash | hact | hlen)
    · exact hver h.version
    · exact hhash h.hash
    · exact h.active hact
    · exact absurd h.length (by omega)
  simp only [loadManifestKeyring, hman]
  rw [if_neg hval, if_neg (not_not.mpr h.nodup), hload]
  rfl

/-- A keyring has a key for every identifier of its manifest. -/
theorem Describes.length_le {keyring : ContentKeyring Key} (h : Describes crypto keyring s manifest)
    (hval : Valid crypto identity s manifest) : manifest.ids.length ≤ keyring.keys.size := by
  have hsubset : manifest.ids ⊆ keyring.keys.keys := by
    intro id hid
    obtain ⟨key, hfile, -⟩ := hval.stored id hid
    exact SortedMap.mem_keys.mpr ⟨key,
      SortedMap.get?_eq_some_iff.mp ((h.keys id key).mpr ⟨hid, hfile⟩)⟩
  have hle := (subperm_of_subset hval.nodup hsubset).length_le
  rwa [SortedMap.length_keys] at hle

/-! ### The first key -/

variable (crypto identity) in
def firstManifest (key : Key) : KeyringManifest :=
  ⟨manifestVersion, crypto.identityHash identity, crypto.keyId key, []⟩

variable (crypto identity) in
/-- The directory at any time while the first key is made, from the directory `s`. -/
structure Created (s : Disk) (key : Key) (t : Disk) : Prop where
  legacy : ∀ text, t.files .legacy = some text → text = crypto.encode key
  own : ∀ text, t.files (.generation (crypto.keyId key)) = some text → text = crypto.encode key
  kept : ∀ id text, s.files (.generation id) = some text → t.files (.generation id) = some text
  others : ∀ id, id ≠ crypto.keyId key → t.files (.generation id) = s.files (.generation id)
  manifest : t.manifest = none ∨ (t.manifest = some (firstManifest crypto identity key) ∧
    t.files (.generation (crypto.keyId key)) = some (crypto.encode key))

section

variable (h : Created crypto identity s key t)

include h

theorem Created.intact : Intact crypto identity t := by
  refine ⟨fun text htext => ⟨key, h.legacy text htext⟩, ?_, ?_⟩
  · intro _ other hother text htext
    obtain rfl := crypto.encode_injective (h.legacy _ hother)
    exact h.own text htext
  · intro manifest hman
    rcases h.manifest with hnone | ⟨hfst, hfile⟩
    · rw [hnone] at hman
      cases hman
    · rw [hfst] at hman
      cases hman
      refine ⟨rfl, rfl, crypto.keyId_ne key, Nat.le_add_left 1 7, nodup_singleton _, ?_⟩
      intro id hid
      obtain rfl := mem_singleton.mp hid
      exact ⟨key, hfile, rfl⟩

theorem Created.extends (hnone : s.manifest = none) : Extends s t :=
  ⟨h.kept, fun manifest hman => by rw [hnone] at hman; cases hman⟩

/-- The generation of the key is written. -/
theorem Created.store (hnone : t.files (.generation (crypto.keyId key)) = none) :
    Created crypto identity s key
      (t.set (.generation (crypto.keyId key)) (some (crypto.encode key))) := by
  refine ⟨fun text htext => h.legacy text (by simpa using htext), ?_, ?_, ?_, ?_⟩
  · intro text htext
    rw [Disk.set_self] at htext
    exact (Option.some.inj htext).symm
  · intro id text htext
    have hkept := h.kept id text htext
    have hne : id ≠ crypto.keyId key := by
      rintro rfl
      rw [hnone] at hkept
      cases hkept
    rwa [Disk.set_other (by simpa using hne)]
  · intro id hne
    rw [Disk.set_other (by simpa using hne)]
    exact h.others id hne
  · exact h.manifest.imp_right fun hfst => ⟨hfst.1, Disk.set_self ..⟩

/-- The legacy file is written or removed. -/
theorem Created.setLegacy {text : Option (List Char)}
    (htext : ∀ found, text = some found → found = crypto.encode key) :
    Created crypto identity s key (t.set .legacy text) := by
  refine ⟨fun found hfound => htext found (by simpa using hfound), ?_, ?_, ?_, ?_⟩
  · exact fun found hfound => h.own found (by simpa using hfound)
  · exact fun id found hfound => by simpa using h.kept id found hfound
  · exact fun id hne => by simpa using h.others id hne
  · simpa using h.manifest

end

variable (crypto) in
/-- A crash leaves no file, or one with all that is written to it. -/
def Whole (torn : Torn) : Prop := ∀ n ∈ torn, ∀ key, (crypto.encode key).length ≤ n

variable (crypto) {generated : Key} in
/-- A key with the identifier would be new. -/
def Unused (s : Disk) (id : String) : Prop :=
  s.files (.generation id) = none ∧
    ∀ key, s.files .legacy = some (crypto.encode key) → crypto.keyId key ≠ id

section

variable {generated : Key} (hA : ∀ torn, A torn → Whole crypto torn)
  (hstart : Created crypto identity s key s) (hnone : s.manifest = none)
  (hkey : s.files .legacy = some (crypto.encode key) ∨ s.files .legacy = none ∧ key = generated)

include hA hstart hnone hkey

/-- A start without a manifest goes on with the key of the legacy file, or with a new one. -/
theorem legacy_spec :
    Spec A (· = s) (loadOrCreateLegacyPrivate crypto generated)
      (fun found t => found = key ∧ Created crypto identity s key t ∧ t.manifest = none ∧
        t.files .legacy = some (crypto.encode key))
      (fun _ => False) (Created crypto identity s key) := by
  rcases hkey with hfile | ⟨hfile, rfl⟩
  · refine .bind_read (a := true) (by simp [hfile]) (.read ?_)
    rintro _ rfl
    exact .inl ⟨key, loadPrivateFile_eq hfile, rfl, hstart, hnone, hfile⟩
  · have hwritten : Created crypto identity s key (s.set .legacy (some (crypto.encode key))) :=
      hstart.setLegacy (by rintro _ ⟨⟩; rfl)
    refine .bind_read (a := false) (by simp [hfile]) ?_
    refine .bind (R := fun _ t => Created crypto identity s key t ∧ t.manifest = none ∧
      t.files .legacy = some (crypto.encode key)) (writeNewSecretFile_spec ?_ ?_ ?_ ?_) fun _ => ?_
    · rintro _ rfl
      exact hfile
    · rintro _ rfl
      exact hstart
    · rintro _ n rfl hn
      rw [take_of_length_le (hA _ hn n rfl key)]
      exact hwritten
    · rintro _ rfl
      exact ⟨hwritten, hnone, by simp⟩
    · exact .pure fun t ht => ⟨rfl, ht⟩

theorem create_spec [DecidableEq Key] :
    Spec A (· = s) (create crypto identity generated)
      (fun keyring t => Created crypto identity s key t ∧
        t.manifest = some (firstManifest crypto identity key) ∧
        Describes crypto keyring t (firstManifest crypto identity key))
      (fun _ => False) (Created crypto identity s key) := by
  refine .bind (legacy_spec hA hstart hnone hkey) fun found => ?_
  refine .of_eq ?_
  rintro t ⟨rfl, hcr, -, hleg⟩
  refine .bind (persistGeneration_spec (Q := fun t => Created crypto identity s found t ∧
      t.files .legacy = some (crypto.encode found)) ?_ ?_ ?_ ?_ ?_) fun _ => ?_
  · rintro _ rfl
    exact hcr.own
  · rintro _ rfl
    exact hcr
  · rintro _ n rfl hn habs
    rw [take_of_length_le (hA _ hn n rfl found)]
    exact hcr.store habs
  · rintro _ rfl habs
    exact ⟨hcr.store habs, by simpa using hleg⟩
  · rintro _ rfl -
    exact ⟨hcr, hleg⟩
  refine .bind (writeManifestAtomic_spec (Q := fun t => Created crypto identity s found t ∧
      t.files .legacy = some (crypto.encode found)) ?_ ?_) fun _ => ?_
  · exact fun t ht => ht.1.1
  · rintro t ⟨⟨hcr, hleg⟩, hfile⟩
    exact ⟨⟨hcr.legacy, hcr.own, hcr.kept, hcr.others, .inr ⟨rfl, hfile⟩⟩, hleg⟩
  refine .bind (R := fun _ t => Created crypto identity s found t ∧
    t.manifest = some (firstManifest crypto identity found)) ?_ fun _ => ?_
  · refine .of_eq ?_
    rintro t ⟨⟨hcr, hleg⟩, hman⟩
    refine .bind_read (a := true) (by simp [hleg]) ?_
    refine .bind_read (loadPrivateFile_eq hleg) ?_
    refine .bind_read (a := ()) (by simp) ?_
    refine .effect ?_ ?_
    · rintro _ rfl
      exact ⟨hcr.setLegacy nofun, hman⟩
    · rintro _ _ - rfl
      exact hcr
  · refine .read fun t ht => .inl ?_
    obtain ⟨keyring, hload, hdesc⟩ :=
      loadManifestKeyring_ok ht.2 (ht.1.intact.valid _ ht.2)
    exact ⟨keyring, hload, ht.1, ht.2, hdesc⟩

end

/-! ### Starts -/

variable (crypto identity) in
/-- The directory is intact after a call, and extends the one before; if the active key is another
one, it is that of the call's rotation. -/
structure Kept (s : Disk) (next : Option String) (t : Disk) : Prop where
  intact : Intact crypto identity t
  extended : Extends s t
  active : ∀ manifest, s.manifest = some manifest → ∃ later, t.manifest = some later ∧
    (later.activeKeyId = manifest.activeKeyId ∨ next = some later.activeKeyId)

theorem Kept.refl (h : Intact crypto identity s) (next : Option String) :
    Kept crypto identity s next s :=
  ⟨h, .refl s, fun manifest hman => ⟨manifest, hman, .inl rfl⟩⟩

theorem Kept.trans {next : Option String} (h : Kept crypto identity s none t)
    (h' : Kept crypto identity t next u) : Kept crypto identity s next u := by
  refine ⟨h'.intact, h.extended.trans h'.extended, ?_⟩
  intro manifest hman
  obtain ⟨middle, hmiddle, hsame | hnext⟩ := h.active manifest hman
  · obtain ⟨later, hlater, hact⟩ := h'.active middle hmiddle
    exact ⟨later, hlater, hact.imp_left (·.trans hsame)⟩
  · cases hnext

variable [DecidableEq Key]

/-- The directory after a start that returned a keyring. -/
structure Started (crypto : Crypto Key) (identity : String) (s : Disk) (generated : Key)
    (keyring : ContentKeyring Key) (t : Disk) : Prop where
  kept : Kept crypto identity s none t
  described : ∃ manifest, t.manifest = some manifest ∧ Describes crypto keyring t manifest
  unused : ∀ id, Unused crypto s id → id ≠ crypto.keyId generated →
    t.files (.generation id) = none

theorem loadOrCreate_spec (h : Intact crypto identity s) (hid : blank identity = false)
    (hun : Unused crypto s (crypto.keyId generated))
    (hA : s.manifest = none → ∀ torn, A torn → Whole crypto torn) :
    Spec A (· = s) (loadOrCreate crypto identity generated)
      (Started crypto identity s generated) (fun _ => False) (Kept crypto identity s none) := by
  refine .bind_read (a := ()) (by simp [hid]) ?_
  cases hman : s.manifest with
  | some manifest =>
    refine .bind_read (a := true) (by simp [hman]) (.read ?_)
    rintro _ rfl
    obtain ⟨keyring, hload, hdesc⟩ := loadManifestKeyring_ok hman (h.valid _ hman)
    exact .inl ⟨keyring, hload, .refl h none, ⟨manifest, hman, hdesc⟩, fun id hun _ => hun.1⟩
  | none =>
    refine .bind_read (a := false) (by simp [hman]) ?_
    -- The key is that of the legacy file, if there is one.
    obtain ⟨key, hstart, hkey⟩ : ∃ key, Created crypto identity s key s ∧
        (s.files .legacy = some (crypto.encode key) ∨
          s.files .legacy = none ∧ key = generated) := by
      cases hleg : s.files .legacy with
      | some text =>
        obtain ⟨key, rfl⟩ := h.legacy text hleg
        refine ⟨key, ⟨?_, h.first hman key hleg, fun _ _ => id, fun _ _ => rfl,
          .inl hman⟩, .inl rfl⟩
        intro found hfound
        exact (Option.some.inj (hleg.symm.trans hfound)).symm
      | none =>
        refine ⟨generated, ⟨?_, ?_, fun _ _ => id, fun _ _ => rfl, .inl hman⟩, .inr ⟨rfl, rfl⟩⟩
        · intro found hfound
          rw [hleg] at hfound
          cases hfound
        · intro found hfound
          rw [hun.1] at hfound
          cases hfound
    have hkept : ∀ t, Created crypto identity s key t → Kept crypto identity s none t := by
      refine fun t ht => ⟨ht.intact, ht.extends hman, ?_⟩
      intro manifest hsome
      rw [hman] at hsome
      cases hsome
    refine (create_spec (hA hman) hstart hman hkey).consequence (fun _ => id) ?_ (fun _ => id) hkept
    rintro keyring t ⟨hcr, hfst, hdesc⟩
    refine ⟨hkept t hcr, ⟨_, hfst, hdesc⟩, ?_⟩
    intro id hun' hne
    have hother : id ≠ crypto.keyId key := by
      rcases hkey with hfile | ⟨-, rfl⟩
      · exact (hun'.2 key hfile).symm
      · exact hne
    rw [hcr.others id hother]
    exact hun'.1

/-! ### Rotations -/

variable (crypto identity) in
def nextManifest (manifest : KeyringManifest) (next : Key) : KeyringManifest :=
  ⟨manifestVersion, crypto.identityHash identity, crypto.keyId next, manifest.ids⟩

variable (crypto identity) in
/-- The directory at any time after the start of a rotation, from the directory `s`.  The new
generation may be torn, as long as the manifest does not name it. -/
structure Rotating (s : Disk) (manifest : KeyringManifest) (next : Key) (t : Disk) : Prop where
  legacy : t.files .legacy = s.files .legacy
  others : ∀ id, id ≠ crypto.keyId next → t.files (.generation id) = s.files (.generation id)
  manifest : t.manifest = some manifest ∨
    (t.manifest = some (nextManifest crypto identity manifest next) ∧
      t.files (.generation (crypto.keyId next)) = some (crypto.encode next))

omit [DecidableEq Key] in
theorem Rotating.kept {next : Key} (h : Rotating crypto identity s manifest next t)
    (hintact : Intact crypto identity s) (hman : s.manifest = some manifest)
    (hnew : s.files (.generation (crypto.keyId next)) = none)
    (hlen : manifest.ids.length < maxGenerations) :
    Kept crypto identity s (some (crypto.keyId next)) t := by
  have hval := hintact.valid manifest hman
  have hfiles : ∀ id text, s.files (.generation id) = some text →
      t.files (.generation id) = some text := by
    intro id text hfile
    have hne : id ≠ crypto.keyId next := by
      rintro rfl
      rw [hnew] at hfile
      cases hfile
    rwa [h.others id hne]
  have hsto : ∀ id ∈ manifest.ids, ∃ key,
      t.files (.generation id) = some (crypto.encode key) ∧ crypto.keyId key = id := by
    intro id hid
    obtain ⟨key, hfile, heq⟩ := hval.stored id hid
    exact ⟨key, hfiles id _ hfile, heq⟩
  have habs : crypto.keyId next ∉ manifest.ids := by
    intro hid
    obtain ⟨key, hfile, -⟩ := hval.stored _ hid
    rw [hnew] at hfile
    cases hfile
  obtain ⟨later, hlater, hval', hids, hact⟩ : ∃ later, t.manifest = some later ∧
      Valid crypto identity t later ∧ manifest.ids ⊆ later.ids ∧
      (later.activeKeyId = manifest.activeKeyId ∨
        some (crypto.keyId next) = some later.activeKeyId) := by
    rcases h.manifest with hsame | ⟨hnext, hfile⟩
    · exact ⟨manifest, hsame, { hval with stored := hsto }, fun _ => id, .inl rfl⟩
    · exact ⟨_, hnext, ⟨rfl, rfl, crypto.keyId_ne next, hlen, nodup_cons.mpr ⟨habs, hval.nodup⟩,
        forall_mem_cons.mpr ⟨⟨next, hfile, rfl⟩, hsto⟩⟩, subset_cons_self .., .inr rfl⟩
  refine ⟨⟨fun text htext => hintact.legacy text (h.legacy ▸ htext), ?_, ?_⟩, ⟨hfiles, ?_⟩, ?_⟩
  · exact fun hnone => absurd (hlater.symm.trans hnone) nofun
  · intro found hfound
    cases hlater.symm.trans hfound
    exact hval'
  · intro before hbef
    cases hman.symm.trans hbef
    exact ⟨later, hlater, hids⟩
  · intro before hbef
    cases hman.symm.trans hbef
    exact ⟨later, hlater, hact⟩

theorem rotate_spec {next : Key} (h : Intact crypto identity s) (hid : blank identity = false)
    (hun : Unused crypto s (crypto.keyId generated)) (hnext : Unused crypto s (crypto.keyId next))
    (hne : crypto.keyId next ≠ crypto.keyId generated)
    (hA : s.manifest = none → ∀ torn, A torn → Whole crypto torn) :
    Spec A (· = s) (rotate crypto identity generated next)
      (fun keyring t => Kept crypto identity s (some (crypto.keyId next)) t ∧
        ∃ manifest, t.manifest = some manifest ∧ Describes crypto keyring t manifest)
      (Kept crypto identity s (some (crypto.keyId next)))
      (Kept crypto identity s (some (crypto.keyId next))) := by
  have hmore : ∀ t, Kept crypto identity s none t →
      Kept crypto identity s (some (crypto.keyId next)) t := fun t ht =>
    ht.trans (.refl ht.intact _)
  refine .bind ((loadOrCreate_spec h hid hun hA).consequence (fun _ => id)
    (fun _ _ => id) (fun _ => False.elim) hmore) fun current => ?_
  refine .of_eq fun t ht => ?_
  obtain ⟨hkept, ⟨manifest, hman, hdesc⟩, hnew⟩ := ht
  have hval := hkept.intact.valid manifest hman
  refine .bind (R := fun _ u => u = t ∧ manifest.ids.length < maxGenerations) (.read ?_) fun _ => ?_
  · rintro u rfl
    by_cases hcap : maxGenerations ≤ current.keys.size
    · exact .inr ⟨⟨_, if_pos hcap⟩, hmore u hkept⟩
    · have hle := hdesc.length_le hval
      exact .inl ⟨(), if_neg hcap, rfl, by omega⟩
  refine .of_eq ?_
  rintro u ⟨rfl, hlen⟩
  have hfresh := hnew _ hnext hne
  have hend : ∀ v, Rotating crypto identity u manifest next v →
      Kept crypto identity s (some (crypto.keyId next)) v := fun v hv =>
    hkept.trans (hv.kept hkept.intact hman hfresh hlen)
  have hstart : ∀ text, Rotating crypto identity u manifest next
      (u.set (.generation (crypto.keyId next)) text) := fun text =>
    ⟨by simp, fun id hid => by simp [hid], .inl hman⟩
  refine .bind (persistGeneration_spec (Q := Rotating crypto identity u manifest next)
    ?_ ?_ ?_ ?_ ?_) fun _ => ?_
  · rintro _ rfl text htext
    rw [hfresh] at htext
    cases htext
  · rintro _ rfl
    exact hmore _ hkept
  · rintro _ n rfl - -
    exact hend _ (hstart _)
  · rintro _ rfl -
    exact hstart _
  · rintro _ rfl hfile
    rw [hfresh] at hfile
    cases hfile
  have hsame : current.activeKeyId :: current.decryptOnlyKeyIds = manifest.ids := by
    rw [hdesc.active, hdesc.decryptOnly]
    rfl
  rw [hsame]
  refine .bind (writeManifestAtomic_spec (Q := Rotating crypto identity u manifest next)
    (fun v hv => hend v hv.1) ?_) fun _ => ?_
  · rintro v ⟨hv, hfile⟩
    exact ⟨hv.legacy, hv.others, .inr ⟨rfl, hfile⟩⟩
  refine .read fun v hv => .inl ?_
  obtain ⟨keyring, hload, hkr⟩ :=
    loadManifestKeyring_ok hv.2 ((hend v hv.1).intact.valid _ hv.2)
  exact ⟨keyring, hload, hend v hv.1, _, hv.2, hkr⟩

/-! ### Runs -/

inductive Call (Key : Type) where
  | loadOrCreate (generated : Key)
  | rotate (generated next : Key)

namespace Call

variable (crypto identity)

def action : Call Key → Action (ContentKeyring Key)
  | loadOrCreate generated => Content.loadOrCreate crypto identity generated
  | rotate generated next => Content.rotate crypto identity generated next

/-- The key that the call would make active. -/
def next : Call Key → Option String
  | loadOrCreate _ => none
  | rotate _ next => some (crypto.keyId next)

/-- Generated keys are fresh. -/
def Fresh (s : Disk) : Call Key → Prop
  | loadOrCreate generated => Unused crypto s (crypto.keyId generated)
  | rotate generated next =>
    Unused crypto s (crypto.keyId generated) ∧ Unused crypto s (crypto.keyId next) ∧
      crypto.keyId next ≠ crypto.keyId generated

end Call

/-- The directory, the keyrings that calls returned, and the key of the last rotation whose
manifest was installed. -/
structure Trace (Key : Type) where
  disk : Disk
  returned : List (ContentKeyring Key)
  rotated : Option String

/-- A directory with nothing, or with a key of before there were generations. -/
def Trace.start (crypto : Crypto Key) (legacy : Option Key) : Trace Key :=
  ⟨⟨fun path => if path = .legacy then legacy.map crypto.encode else none, none⟩, [], none⟩

/-- A call, which is interrupted by a crash or not. -/
def step (crypto : Crypto Key) (identity : String) (t : Trace Key)
    (op : Call Key × Option (Nat × Torn)) : Trace Key :=
  let action := op.1.action crypto identity
  let disk := action.state t.disk op.2
  ⟨disk, (action.result? t.disk op.2).toList ++ t.returned,
    if op.1.next crypto ≠ none ∧ disk.manifest.map (·.activeKeyId) = op.1.next crypto then
      op.1.next crypto
    else t.rotated⟩

/-- Generated keys are fresh, and a crash before there is a manifest tears no file. -/
def Allowed (crypto : Crypto Key) (t : Trace Key) (op : Call Key × Option (Nat × Torn)) : Prop :=
  op.1.Fresh crypto t.disk ∧ (t.disk.manifest = none → ∀ p ∈ op.2, Whole crypto p.2)

/-- A call keeps the directory, whatever becomes of it. -/
theorem call_spec {call : Call Key} (h : Intact crypto identity s) (hid : blank identity = false)
    (hfresh : call.Fresh crypto s) (hA : s.manifest = none → ∀ torn, A torn → Whole crypto torn) :
    Spec A (· = s) (call.action crypto identity)
      (fun keyring t => Kept crypto identity s (call.next crypto) t ∧
        ∃ manifest, t.manifest = some manifest ∧ Describes crypto keyring t manifest)
      (Kept crypto identity s (call.next crypto)) (Kept crypto identity s (call.next crypto)) := by
  cases call with
  | loadOrCreate =>
    exact (loadOrCreate_spec h hid hfresh hA).consequence (fun _ => id)
      (fun _ _ hstart => ⟨hstart.kept, hstart.described⟩) (fun _ => False.elim) fun _ => id
  | rotate => exact rotate_spec h hid hfresh.1 hfresh.2.1 hfresh.2.2 hA

/-- The directory is intact, holds every key that was returned, and names the key of the last
rotation as the active one. -/
structure Surviving (crypto : Crypto Key) (identity : String) (t : Trace Key) : Prop where
  intact : Intact crypto identity t.disk
  returned : ∀ keyring ∈ t.returned, (∃ key, keyring.keys.get? keyring.activeKeyId = some key) ∧
    ∀ id key, keyring.keys.get? id = some key →
      ∃ manifest, t.disk.manifest = some manifest ∧ id ∈ manifest.ids ∧
        t.disk.files (.generation id) = some (crypto.encode key)
  rotated : ∀ id ∈ t.rotated, ∃ manifest, t.disk.manifest = some manifest ∧
    manifest.activeKeyId = id

theorem Surviving.step {t : Trace Key} {op : Call Key × Option (Nat × Torn)}
    (h : Surviving crypto identity t) (hid : blank identity = false) (hop : Allowed crypto t op) :
    Surviving crypto identity (step crypto identity t op) ∧
      Extends t.disk (step crypto identity t op).disk := by
  have hspec := call_spec (A := fun torn => t.disk.manifest = none → Whole crypto torn) h.intact hid
    hop.1 fun hnone torn hwhole => hwhole hnone
  have hcrash : ∀ p ∈ op.2, t.disk.manifest = none → Whole crypto p.2 := fun p hp hnone =>
    hop.2 hnone p hp
  have hkept := hspec.state (fun _ _ hend => hend.1) (fun _ => id) (fun _ => id) hcrash rfl
  refine ⟨⟨hkept.intact, ?_, ?_⟩, hkept.extended⟩
  · intro keyring hkr
    rcases mem_append.mp hkr with hnow | hbef
    · obtain ⟨-, manifest, hman, hdesc⟩ :=
        hspec.result hcrash rfl (Option.mem_toList.mp hnow)
      obtain ⟨key, hfile, -⟩ := (hkept.intact.valid manifest hman).stored _ mem_cons_self
      exact ⟨⟨key, (hdesc.keys _ key).mpr ⟨hdesc.active ▸ mem_cons_self, hdesc.active ▸ hfile⟩⟩,
        fun id key hkey => ⟨manifest, hman, (hdesc.keys id key).mp hkey⟩⟩
    · obtain ⟨hact, hkeys⟩ := h.returned keyring hbef
      refine ⟨hact, fun id key hkey => ?_⟩
      obtain ⟨manifest, hman, hmem, hfile⟩ := hkeys id key hkey
      obtain ⟨later, hlater, hids⟩ := hkept.extended.named manifest hman
      exact ⟨later, hlater, hids id hmem, hkept.extended.files id _ hfile⟩
  · intro id hrot
    simp only [Content.step] at hrot
    split_ifs at hrot with hnext
    · obtain ⟨-, hact⟩ := hnext
      rw [hrot] at hact
      exact Option.map_eq_some_iff.mp hact
    · obtain ⟨manifest, hman, rfl⟩ := h.rotated id hrot
      obtain ⟨later, hlater, hsame | hother⟩ := hkept.active manifest hman
      · exact ⟨later, hlater, hsame⟩
      · refine absurd ⟨hother ▸ nofun, ?_⟩ hnext
        rw [hlater, hother]
        rfl

omit [DecidableEq Key] in
theorem Surviving.start (legacy : Option Key) :
    Surviving crypto identity (.start crypto legacy) := by
  refine ⟨⟨?_, ?_, nofun⟩, forall_mem_nil _, nofun⟩
  · intro text htext
    obtain ⟨key, -, rfl⟩ := Option.map_eq_some_iff.mp htext
    exact ⟨key, rfl⟩
  · nofun

theorem Surviving.run {t : Trace Key} {ops : List (Call Key × Option (Nat × Torn))}
    (h : Surviving crypto identity t) (hid : blank identity = false)
    (hops : Run.Meets (Content.step crypto identity) (Allowed crypto) t ops) :
    Surviving crypto identity (Run.exec (Content.step crypto identity) t ops) ∧
      Extends t.disk (Run.exec (Content.step crypto identity) t ops).disk := by
  induction ops generalizing t with
  | nil => exact ⟨h, .refl _⟩
  | cons op ops ih =>
    obtain ⟨hop, hrest⟩ := hops
    obtain ⟨hstep, hext⟩ := h.step hid hop
    obtain ⟨hrun, hext'⟩ := ih hstep hrest
    exact ⟨hrun, hext.trans hext'⟩

/-- **The keyring survives crashes**: after every run of calls, interrupted anywhere, whose
generated keys are fresh and whose crashes tear no file before there is a manifest, a start that is
not interrupted succeeds; it returns every key of every keyring returned before, under its
identifier, and the key of the last rotation is the active one.  And no call ever writes over a
generation file. -/
theorem keyring_survives (crypto : Crypto Key) (identity : String) (hid : blank identity = false)
    (legacy : Option Key) (ops more : List (Call Key × Option (Nat × Torn)))
    (h : Run.Meets (step crypto identity) (Allowed crypto) (.start crypto legacy) (ops ++ more))
    (generated : Key) (hunused : Unused crypto
      (Run.exec (step crypto identity) (.start crypto legacy) (ops ++ more)).disk
      (crypto.keyId generated)) :
    let t := Run.exec (step crypto identity) (.start crypto legacy) ops
    let u := Run.exec (step crypto identity) (.start crypto legacy) (ops ++ more)
    (∃ keyring, (loadOrCreate crypto identity generated).result? u.disk none = some keyring ∧
      (∀ earlier ∈ u.returned, (∃ key, earlier.keys.get? earlier.activeKeyId = some key) ∧
        ∀ id key, earlier.keys.get? id = some key → keyring.keys.get? id = some key) ∧
      ∀ id ∈ u.rotated, keyring.activeKeyId = id) ∧
    ∀ id text, t.disk.files (.generation id) = some text →
      u.disk.files (.generation id) = some text := by
  intro t u
  obtain ⟨hops, hmore⟩ := Run.meets_append.mp h
  obtain ⟨ht, -⟩ := (Surviving.start legacy).run hid hops
  obtain ⟨hu, hext⟩ := ht.run hid hmore
  rw [← Run.exec_append] at hu hext
  refine ⟨?_, hext.files⟩
  -- Without a crash, what is admissible does not matter.
  have hspec := loadOrCreate_spec (A := Whole crypto) hu.intact hid hunused fun _ _ => id
  have hnone : ∀ p ∈ (none : Option (Nat × Torn)), Whole crypto p.2 := nofun
  obtain ⟨keyring, hres⟩ := hspec.succeeds rfl
  obtain ⟨hkept, ⟨manifest, hman, hdesc⟩, -⟩ := hspec.result hnone rfl hres
  refine ⟨keyring, hres, ?_, ?_⟩
  · intro earlier hearl
    obtain ⟨hact, hkeys⟩ := hu.returned earlier hearl
    refine ⟨hact, fun id key hkey => ?_⟩
    obtain ⟨before, hbef, hmem, hfile⟩ := hkeys id key hkey
    obtain ⟨later, hlater, hids⟩ := hkept.extended.named before hbef
    cases hman.symm.trans hlater
    exact (hdesc.keys id key).mpr ⟨hids id hmem, hkept.extended.files id _ hfile⟩
  · intro id hrot
    obtain ⟨before, hbef, rfl⟩ := hu.rotated id hrot
    obtain ⟨later, hlater, hsame | hnext⟩ := hkept.active before hbef
    · cases hman.symm.trans hlater
      exact hdesc.active.trans hsame
    · cases hnext

namespace Sample

/-- The private scalars 1, 2 and 3. -/
def scalars : Crypto (Fin 3) where
  encode key := List.replicate 42 'A' ++ [match key with | 0 => 'E' | 1 => 'I' | 2 => 'M']
  decode text := [0, 1, 2].find? fun key : Fin 3 => text =
    List.replicate 42 'A' ++ [match key with | 0 => 'E' | 1 => 'I' | 2 => 'M']
  keyId key := match key with | 0 => "cek_1" | 1 => "cek_2" | 2 => "cek_3"
  identityHash identity := identity
  decode_encode := by decide
  keyId_ne := by decide

instance (s : Disk) (id : String) : Decidable (Unused scalars s id) :=
  inferInstanceAs (Decidable (_ ∧ ∀ _ : Fin 3, _))

instance (torn : Torn) : Decidable (Whole scalars torn) :=
  inferInstanceAs (Decidable (∀ n ∈ torn, ∀ _ : Fin 3, _))

instance (t : Trace (Fin 3)) (op : Call (Fin 3) × Option (Nat × Torn)) :
    Decidable (Allowed scalars t op) :=
  match op with
  | (.loadOrCreate _, _) => inferInstanceAs (Decidable (Unused scalars _ _ ∧ (_ → _)))
  | (.rotate _ _, _) =>
    inferInstanceAs (Decidable ((Unused scalars _ _ ∧ Unused scalars _ _ ∧ _ ≠ _) ∧ (_ → _)))

/-- The first start crashes between the generation file and the manifest, the second one returns,
and a rotation crashes while it writes the generation of its key. -/
def ops : List (Call (Fin 3) × Option (Nat × Torn)) :=
  [(.loadOrCreate 0, some (2, none)), (.loadOrCreate 1, none), (.rotate 1 2, some (0, some 7))]

/-- The directory after a first start that crashes in its effect `n`, with a file torn. -/
def tornDisk (n : Nat) : Disk :=
  (Run.exec (step scalars "agt_stable") (.start scalars none)
    [(.loadOrCreate 0, some (n, some 7))]).disk

end Sample

open Sample

theorem keyring_survives_interrupted : ∃ keyring, (loadOrCreate scalars "agt_stable" 1).result?
      (Run.exec (step scalars "agt_stable") (.start scalars none) ops).disk none =
        some keyring := by
  obtain ⟨⟨keyring, hres, -⟩, -⟩ := keyring_survives scalars "agt_stable" (by decide) none
    ops [] (by decide +kernel) 1 (by decide +kernel)
  exact ⟨keyring, hres⟩

/-- A first start that crashes while it writes the legacy key file, or the first generation file,
leaves a file that no later start can read. -/
theorem torn_key_file :
    (∀ generated : Fin 3,
      ((loadOrCreate scalars "agt_stable" generated).result? (tornDisk 0) none).isNone) ∧
    ∀ generated : Fin 3,
      ((loadOrCreate scalars "agt_stable" generated).result? (tornDisk 1) none).isNone := by
  decide +kernel

end Piqae.Content
