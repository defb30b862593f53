/-
Piqae/Resources/Flights.lean

Calls for one missing resource make one acquisition.

A call looks the resource up and only then asks for its flight, so that it can
miss the resource in the table and the flight that has stored it meanwhile; then
it acquires the resource again.  `Quiet` excludes this: no flight ends between the
lookup of a call and the flight that it begins.
Unless the first acquisition fails, the calls then move the cache from `Idle` to
`Led` by one of them, and from there to `Stored`; each call only has to know that
the others leave a flight that it leads alone (`Rely`).
-/
import Piqae.Resources.Cache

namespace Piqae.Resources.Flight

open List

variable (sha256 : Bytes → String) (config : Config) (descriptor : NodeResourceDescriptor)

/-- The first acquisition has failed. -/
def Failed (c : Cache) : Prop := ∃ message, c.results.head? = some (some (.error message))

def Idle (c : Cache) : Prop :=
  c.results = [] ∧ c.leaders = [] ∧ c.flights descriptor.digest = none ∧ c.acquired = []

/-- A call leads the first flight. -/
def Led (k : Nat) (c : Cache) : Prop :=
  c.results = [none] ∧ c.leaders = [k] ∧ c.flights descriptor.digest = some 0

structure Stored (c : Cache) : Prop where
  results : c.results = [some (.ok (relativePath descriptor.digest))]
  rows : c.rows ≠ []
  flight : ∀ flight ∈ c.flights descriptor.digest, flight = 0
  acquired : c.acquired.length = 1

/-- The row is of the resource, and its file is there. -/
def Fits (c : Cache) (row : StoredDocumentResource) : Prop :=
  row.digest = descriptor.digest ∧ row.byteLength = descriptor.byteLength ∧
    row.mediaType = descriptor.mediaType ∧
      (c.files row.digest).any (Matches sha256 row.digest row.byteLength) = true

structure Orderly (c : Cache) : Prop where
  rows : ∀ row ∈ c.rows, Fits sha256 descriptor c row
  joined : ∀ entry ∈ c.joined, entry.2 < c.results.length
  began : c.results ≠ [] →
    validateDescriptor descriptor config.maximumResourceBytes = .ok ()
  missed : c.flights descriptor.digest = none → c.rows ≠ [] →
    ∀ entry ∈ c.missed, entry.2 ≠ descriptor.digest
  stage : Idle descriptor c ∨
    (∃ k, Led descriptor k c ∧ (c.acquired = [] ∨ c.acquired = [k])) ∨ Stored descriptor c

def Valid (c : Cache) : Prop := Failed c ∨ Orderly sha256 config descriptor c

/-- What the other calls may do. -/
structure Rely (k : Nat) (c e : Cache) : Prop where
  failed : Failed c → Failed e
  rows : c.rows ≠ [] → e.rows ≠ [] ∨ Failed e
  joined : ∀ entry ∈ c.joined, entry ∈ e.joined
  stored : Stored descriptor c → Stored descriptor e
  led : Led descriptor k c → Led descriptor k e ∧ e.acquired = c.acquired ∧
    e.rows.isEmpty = c.rows.isEmpty ∧ e.files = c.files

/-- A call enters a flight, or begins one that no other flight has ended before since the
lookup of the call.  Nothing fails outside of the acquisitions. -/
def Quiet : Label → Input → Cache → Prop
  | .plain, i, _ => i.ok = true
  | .join k digest, _, c => c.flights digest = none → (k, digest) ∈ c.missed
  | _, _, _ => True

def discipline (k : Nat) : Process.Discipline Label Input Cache where
  valid := Valid sha256 config descriptor
  rely := Rely descriptor k
  guar := fun c e => ∀ j, j ≠ k → Rely descriptor j c e
  admits := fun label i c => Quiet label i c ∧ ready label c = true
  joined := fun _ => False
  refl := fun _ => ⟨id, .inl, fun _ => id, id, fun h => ⟨h, rfl, rfl, rfl⟩⟩
  trans := by
    intro c e c'' h h'
    refine ⟨h'.failed ∘ h.failed, fun hrows => ?_, fun entry => h'.joined entry ∘ h.joined entry,
      h'.stored ∘ h.stored, fun hled => ?_⟩
    · exact (h.rows hrows).elim h'.rows fun hfailed => .inr (h'.failed hfailed)
    · obtain ⟨hled', hacquired, hrows, hfiles⟩ := h.led hled
      obtain ⟨hled'', hacquired', hrows', hfiles'⟩ := h'.led hled'
      exact ⟨hled'', hacquired'.trans hacquired, hrows'.trans hrows, hfiles'.trans hfiles⟩

/-- An action of call `k`, and what holds after it. -/
abbrev Acts (k : Nat) (c e : Cache) (Q : Prop) : Prop :=
  Valid sha256 config descriptor e ∧ (∀ j, j ≠ k → Rely descriptor j c e) ∧ Q

abbrev Does {α : Type} (k : Nat) :=
  Process.Triple (ε := ResourceCacheError) (α := α) (discipline sha256 config descriptor k)

variable {sha256 config descriptor} {c e : Cache} {k : Nat} {now : Int} {α : Type}

/-! ### Steps -/

theorem Led.not_failed (h : Led descriptor k c) : ¬Failed c := by
  rintro ⟨message, hhead⟩
  rw [h.1] at hhead
  cases hhead

theorem Stored.not_failed (h : Stored descriptor c) : ¬Failed c := by
  rintro ⟨message, hhead⟩
  rw [h.results] at hhead
  cases hhead

theorem Led.not_stored (h : Led descriptor k c) : ¬Stored descriptor c := by
  intro hsto
  have hress := h.1
  rw [hsto.results] at hress
  cases hress

theorem Led.missed (h : Led descriptor k c) (hnone : c.flights descriptor.digest = none)
    (_ : c.rows ≠ []) : ∀ entry ∈ c.missed, entry.2 ≠ descriptor.digest :=
  absurd (h.2.2.symm.trans hnone) nofun

theorem Led.unique {j : Nat} (h : Led descriptor k c) (h' : Led descriptor j c) : j = k := by
  simpa using h'.2.1.symm.trans h.2.1

/-- Once the first acquisition has failed, all that counts is that it has. -/
theorem Failed.step (h : Failed c) (hhead : e.results.head? = c.results.head?)
    (hj : ∀ entry ∈ c.joined, entry ∈ e.joined) :
    Acts sha256 config descriptor k c e (Failed e) := by
  have h' : Failed e := by
    obtain ⟨message, hmsg⟩ := h
    exact ⟨message, hhead.trans hmsg⟩
  exact ⟨.inl h', fun j _ => ⟨fun _ => h', fun _ => .inr h', hj,
    fun hsto => absurd h hsto.not_failed, fun hled => absurd h hled.not_failed⟩, h'⟩

/-- An action that leaves the flights alone. -/
theorem Rely.neutral (hress : e.results = c.results) (hlds : e.leaders = c.leaders)
    (hfls : e.flights = c.flights) (hacq : e.acquired = c.acquired)
    (hfiles : e.files = c.files) (hrows : e.rows.isEmpty = c.rows.isEmpty)
    (hj : ∀ entry ∈ c.joined, entry ∈ e.joined) (j : Nat) : Rely descriptor j c e := by
  have hne : c.rows ≠ [] → e.rows ≠ [] := by
    rw [← isEmpty_eq_false_iff, ← isEmpty_eq_false_iff, hrows]
    exact id
  refine ⟨fun hfail => ?_, fun h => .inl (hne h), hj, fun h => ?_, fun h => ?_⟩
  · unfold Failed
    rwa [hress]
  · exact ⟨hress ▸ h.results, hne h.rows, hfls ▸ h.flight, hacq ▸ h.acquired⟩
  · refine ⟨?_, hacq, hrows, hfiles⟩
    unfold Led
    rw [hress, hlds, hfls]
    exact h

/-- An action of the call that leads. -/
theorem Led.rely (h : Led descriptor k c) (hrows : c.rows ≠ [] → e.rows ≠ [])
    (hjn : ∀ entry ∈ c.joined, entry ∈ e.joined) (j : Nat) (hj : j ≠ k) : Rely descriptor j c e :=
  ⟨fun hfail => absurd hfail h.not_failed, fun hne => .inl (hrows hne), hjn,
    fun hsto => absurd hsto h.not_stored, fun hled => absurd (h.unique hled) hj⟩

/-! ### The lookup -/

/-- The resource is stored, unless the first acquisition has failed. -/
def Found (c : Cache) : Prop := Failed c ∨ c.rows ≠ []

/-- What a call for the resource may return. -/
def Resolved (descriptor : NodeResourceDescriptor) (path : String) (c : Cache) : Prop :=
  Failed c ∨ (path = relativePath descriptor.digest ∧ c.rows ≠ [])

theorem Found.stable : (discipline sha256 config descriptor k).Stable Found := by
  intro c e _ _ hrely hfound
  exact hfound.elim (fun hfail => .inl (hrely.failed hfail)) fun hrows =>
    (hrely.rows hrows).symm

theorem Failed.stable : (discipline sha256 config descriptor k).Stable Failed :=
  fun _ _ _ _ hrely => hrely.failed

/-- A row that is stored has its file. -/
theorem Orderly.verified (h : Orderly sha256 config descriptor c) (hrows : c.rows ≠ []) :
    (c.files descriptor.digest).any
      (Matches sha256 descriptor.digest descriptor.byteLength) = true := by
  obtain ⟨row, hrow⟩ := exists_mem_of_ne_nil _ hrows
  obtain ⟨hdig, hlen, -, hheld⟩ := h.rows row hrow
  rwa [hdig, hlen] at hheld

/-- A store call of a lookup, which does not fail by itself. -/
theorem triple_store {P : Cache → Prop} {Q : α → Cache → Prop}
    {E : ResourceCacheError → Cache → Prop} {f : Cache → Except ResourceCacheError α × Cache}
    (hstab : (discipline sha256 config descriptor k).Stable P)
    (h : ∀ c, Valid sha256 config descriptor c → P c → Acts sha256 config descriptor k c (f c).2
      ((∀ a, (f c).1 = .ok a → Q a (f c).2) ∧ ∀ e, (f c).1 = .error e → E e (f c).2)) :
    Does sha256 config descriptor k P (store .plain f) Q E := by
  refine .fallible (fun _ => hstab) fun c i hv hP hi => ?_
  have hok : i.ok = true := hi.1
  rw [if_pos hok]
  exact h c hv hP

theorem triple_verifyFile : Does sha256 config descriptor k Found
      (verifyFile sha256 descriptor.digest descriptor.byteLength)
      (fun verified c => Found c ∧ (verified = false → Failed c)) fun _ => Failed := by
  refine .fallible (fun _ => .stable) fun c i hv hfound hi => ?_
  have hok : i.ok = true := hi.1
  rw [if_pos hok]
  refine ⟨hv, fun _ _ => (discipline sha256 config descriptor _).refl c, ?_, nofun⟩
  rintro verified ⟨⟩
  refine ⟨hfound, fun hverified => hv.elim id fun hord => ?_⟩
  exact hfound.elim id fun hrows =>
    absurd (hord.verified hrows) (Bool.eq_false_iff.mp hverified)

theorem triple_touch : Does sha256 config descriptor k Found
      (store .plain fun c => c.update descriptor.digest (fun _ => true) fun row =>
        { row with lastAccessedUnixMs := now }) (fun _ => Found) fun _ => Failed := by
  refine triple_store Found.stable fun c hv hfound => ?_
  unfold Cache.update
  split_ifs with hany
  · set e := c.modify descriptor.digest fun row =>
      if true then { row with lastAccessedUnixMs := now } else row with hc'
    have hrely : ∀ j, Rely descriptor j c e :=
      Rely.neutral rfl rfl rfl rfl rfl isEmpty_map fun _ => id
    refine ⟨?_, fun j _ => hrely j, fun _ _ => ?_, nofun⟩
    · refine hv.imp (hrely 0).failed fun hord => ?_
      refine ⟨fun row hrow => ?_, hord.joined, hord.began,
        fun hfl hne => hord.missed hfl fun hnil =>
          hne (by rw [hc', Cache.modify, hnil, map_nil]), ?_⟩
      · obtain ⟨old, hold, rfl⟩ := mem_map.mp hrow
        split_ifs <;> exact hord.rows old hold
      · exact hord.stage.imp id (.imp id (hrely 0).stored)
    · exact hfound.elim (fun hfail => .inl ((hrely 0).failed hfail)) fun hrows =>
        ((hrely 0).rows hrows).symm
  · refine ⟨hv, fun _ _ => (discipline sha256 config descriptor _).refl c, nofun, fun _ _ => ?_⟩
    refine hv.elim id fun hord => hfound.elim id fun hrows => absurd ?_ hany
    obtain ⟨row, hrow⟩ := exists_mem_of_ne_nil _ hrows
    exact any_eq_true.mpr ⟨row, hrow, by simp [(hord.rows row hrow).1]⟩

/-- A repair is only reached after a failure. -/
theorem triple_repair : Does sha256 config descriptor k Failed (repair descriptor.digest)
      (fun cached _ => cached = none) fun _ => Failed := by
  refine .bind (R := fun _ => Failed) (.atomic (fun _ => .stable) fun c i _ hfail _ => ?_) fun _ =>
    .bind (R := fun _ => Failed) (triple_store Failed.stable fun c _ hfail => ?_) fun _ =>
      .done fun _ _ _ => rfl
  · show Acts sha256 config descriptor k c (if i.ok then _ else _) (Failed (if i.ok then _ else _))
    split_ifs
    · exact hfail.step rfl fun _ => id
    · exact hfail.step rfl fun _ => id
  · exact And.imp_right (And.imp_right fun hfail' => ⟨fun _ _ => hfail', nofun⟩)
      (hfail.step rfl fun _ => id)

theorem triple_cachedVerified : Does sha256 config descriptor k (fun _ => True)
      (cachedVerified sha256 k descriptor now)
      (fun cached c => ∀ path ∈ cached, Resolved descriptor path c) fun _ => Failed := by
  refine .bind (R := fun found c => ∀ row ∈ found, Found c ∧
      (¬(row.byteLength = descriptor.byteLength ∧ row.mediaType = descriptor.mediaType) →
        Failed c)) (triple_store (.const True) fun c hv _ => ?_) fun found => ?_
  · unfold Cache.look
    cases hfind : c.documentResource descriptor.digest with
    | none =>
      set e : Cache := { c with missed := (k, descriptor.digest) :: c.missed } with he
      have hrely : ∀ j, Rely descriptor j c e :=
        Rely.neutral rfl rfl rfl rfl rfl rfl fun _ => id
      refine ⟨hv.imp (hrely 0).failed fun hord => ?_, fun j _ => hrely j, ?_, nofun⟩
      · -- nothing is stored that the call could have found
        have hnil : c.rows = [] := eq_nil_iff_forall_not_mem.mpr fun row hrow =>
          find?_eq_none.mp hfind row hrow (by simp [(hord.rows row hrow).1])
        exact ⟨hord.rows, hord.joined, hord.began, fun _ hne => absurd hnil hne,
          hord.stage.imp id (.imp id (hrely 0).stored)⟩
      · rintro found ⟨⟩
        nofun
    | some row =>
      have hmem : row ∈ c.rows := mem_of_find?_eq_some hfind
      refine ⟨hv, fun _ _ => (discipline sha256 config descriptor _).refl c, ?_, nofun⟩
      rintro found ⟨⟩ _ ⟨⟩
      refine ⟨.inr (ne_nil_of_mem hmem), fun hne => hv.elim id fun hord => ?_⟩
      obtain ⟨-, hlen, hmedia, -⟩ := hord.rows row hmem
      exact absurd ⟨hlen, hmedia⟩ hne
  · cases found with
    | none => exact .done fun _ _ _ => nofun
    | some row =>
      refine .bind (R := fun verified c => Found c ∧ (verified = false → Failed c)) ?_
        fun verified => ?_
      · split_ifs with hsame
        · exact triple_verifyFile.before fun c _ h => (h row rfl).1
        · exact .done fun c _ h => ⟨(h row rfl).1, fun _ => (h row rfl).2 hsame⟩
      · cases verified with
        | true =>
          refine .bind (triple_touch.before fun c _ h => h.1) fun _ => .done fun c _ hfound => ?_
          rintro path ⟨⟩
          exact hfound.imp_right fun hrows => ⟨rfl, hrows⟩
        | false =>
          show Process.Triple _ _ (if row.referenceCount > 0 then _ else _) _ _
          split_ifs
          · exact .fail fun c _ h => h.2 rfl
          · refine triple_repair.consequence (fun c _ h => h.2 rfl) (fun cached c _ h => ?_)
              fun _ _ _ h => h
            rw [h]
            nofun

/-! ### The acquisition -/

/-- The call leads the first flight, or another one after a failure. -/
def Leading (descriptor : NodeResourceDescriptor) (k flight : Nat)
    (R : List Nat → Bool → (String → Option Bytes) → Prop) (c : Cache) : Prop :=
  (flight ≠ 0 ∧ Failed c) ∨
    (flight = 0 ∧ Led descriptor k c ∧ R c.acquired c.rows.isEmpty c.files)

variable {flight : Nat} {R S : List Nat → Bool → (String → Option Bytes) → Prop}
  {result : Except String String} {incoming : Nat} {eviction : String → Eviction}

theorem Leading.stable :
    (discipline sha256 config descriptor k).Stable (Leading descriptor k flight R) := by
  rintro c e _ _ hrely (⟨hfl, hfail⟩ | ⟨hfl, hled, hR⟩)
  · exact .inl ⟨hfl, hrely.failed hfail⟩
  · obtain ⟨hled', hacq, hrows, hfiles⟩ := hrely.led hled
    refine .inr ⟨hfl, hled', ?_⟩
    rwa [hacq, hrows, hfiles]

theorem Leading.mono (h : Leading descriptor k flight R c)
    (hR : ∀ acquired empty files, R acquired empty files → S acquired empty files) :
    Leading descriptor k flight S c :=
  h.imp_right fun ⟨hfl, hled, hc⟩ => ⟨hfl, hled, hR _ _ _ hc⟩

/-- An action of an acquisition, on the rows and the files. -/
theorem Leading.step (hv : Valid sha256 config descriptor c)
    (h : Leading descriptor k flight R c) (hress : e.results = c.results)
    (hlds : e.leaders = c.leaders) (hfls : e.flights = c.flights) (hj : e.joined = c.joined)
    (hled : R c.acquired c.rows.isEmpty c.files → (∀ row ∈ c.rows, Fits sha256 descriptor c row) →
      (∀ row ∈ e.rows, Fits sha256 descriptor e row) ∧ (c.rows ≠ [] → e.rows ≠ []) ∧
        (e.acquired = [] ∨ e.acquired = [k]) ∧ S e.acquired e.rows.isEmpty e.files) :
    Acts sha256 config descriptor k c e (Leading descriptor k flight S e) := by
  have hents : ∀ entry ∈ c.joined, entry ∈ e.joined := fun _ hent => hj ▸ hent
  rcases h with ⟨hfl, hfail⟩ | ⟨hfl, hk, hR⟩
  · exact And.imp_right (And.imp_right fun hfail' => .inl ⟨hfl, hfail'⟩)
      (hfail.step (by rw [hress]) hents)
  · have hord := hv.resolve_left hk.not_failed
    obtain ⟨hrows, hne, hacq, hR'⟩ := hled hR hord.rows
    have hk' : Led descriptor k e := by
      unfold Led
      rw [hress, hlds, hfls]
      exact hk
    refine ⟨.inr ⟨hrows, ?_, ?_, hk'.missed, .inr (.inl ⟨k, hk', hacq⟩)⟩, hk.rely hne hents,
      .inr ⟨hfl, hk', hR'⟩⟩
    · rw [hj, hress]
      exact hord.joined
    · rw [hress]
      exact hord.began

/-- Nothing is done. -/
theorem Leading.stay (hv : Valid sha256 config descriptor c) (h : Leading descriptor k flight R c)
    (hR : ∀ acquired empty files, R acquired empty files → S acquired empty files) :
    Acts sha256 config descriptor k c c (Leading descriptor k flight S c) :=
  ⟨hv, fun _ _ => (discipline sha256 config descriptor _).refl c, h.mono hR⟩

theorem upsert_rows (row : StoredDocumentResource) :
    ∃ rows, c.upsertDocumentResource row = { c with rows := rows } ∧
      (c.rows = [] → rows = [row]) := by
  unfold Cache.upsertDocumentResource
  cases hfind : c.documentResource row.digest with
  | none => exact ⟨_, rfl, fun hrows => by rw [hrows]; rfl⟩
  | some old =>
    refine ⟨_, rfl, fun hrows => ?_⟩
    unfold Cache.documentResource at hfind
    rw [hrows] at hfind
    cases hfind

/-- A file operation of an acquisition. -/
theorem Leading.file {label : Label} {f : Cache → α × Cache} {Q : α → Cache → Prop}
    (h : ∀ c, Valid sha256 config descriptor c → Leading descriptor k flight R c →
      Acts sha256 config descriptor k c (f c).2 (Q (f c).1 (f c).2)) :
    Does sha256 config descriptor k (Leading descriptor k flight R)
      (file label f) Q fun _ => Leading descriptor k flight fun _ _ _ => True := by
  refine .fallible (fun _ => .stable) fun c i hv hc _ => ?_
  split_ifs
  · obtain ⟨hv', hrely, hQ⟩ := h c hv hc
    refine ⟨hv', hrely, ?_, nofun⟩
    rintro _ ⟨⟩
    exact hQ
  · obtain ⟨hv', hrely, hE⟩ := hc.stay hv fun _ _ _ _ => trivial
    exact ⟨hv', hrely, nofun, fun _ _ => hE⟩

/-- The publication of the bytes, and of their row. -/
theorem triple_publish {bytes : Bytes}
    (hbytes : Matches sha256 descriptor.digest descriptor.byteLength bytes = true) :
    Does sha256 config descriptor k
      (Leading descriptor k flight fun acquired empty _ => acquired = [k] ∧ empty = true)
      (publish descriptor bytes now) (fun path c => path = relativePath descriptor.digest ∧
        Leading descriptor k flight (fun acquired empty _ => acquired = [k] ∧ empty = false) c)
      fun _ => Leading descriptor k flight fun _ _ _ => True := by
  let Published (acquired : List Nat) (empty : Bool) (files : String → Option Bytes) : Prop :=
    (acquired = [k] ∧ empty = true) ∧ (files descriptor.digest).any
      (Matches sha256 descriptor.digest descriptor.byteLength) = true
  refine .bind (R := fun _ => Leading descriptor k flight Published) (Leading.file fun c hv h => ?_)
    fun _ => .bind (R := fun _ => Leading descriptor k flight Published)
      (Leading.file fun c hv h => h.stay hv fun _ _ _ => id)
    fun _ => .bind (Process.Triple.attempt (Q := fun _ => Leading descriptor k flight
        fun acquired empty _ => acquired = [k] ∧ empty = false)
      (E := fun _ => Leading descriptor k flight fun acquired empty _ =>
        acquired = [k] ∧ empty = true)
      (.fallible (fun _ => Leading.stable) fun c i hv h _ => ?_)) fun result => ?_
  · refine h.step hv rfl rfl rfl rfl fun ⟨hacq, hemp⟩ _ => ?_
    have hnil : c.rows = [] := isEmpty_iff.mp hemp
    refine ⟨fun row hrow => ?_, id, .inr hacq, ⟨hacq, hemp⟩, ?_⟩
    · rw [show (c.setFile _ _).rows = [] from hnil] at hrow
      cases hrow
    · show (Function.update c.files descriptor.digest (some bytes) descriptor.digest).any _ = true
      rw [Function.update_self]
      exact hbytes
  · split_ifs
    · obtain ⟨rows, hupsert, hrows⟩ := upsert_rows (c := c) (newRow descriptor now)
      have hstep := h.step (e := { c with rows := rows }) hv rfl rfl rfl rfl
        (S := fun acquired empty _ => acquired = [k] ∧ empty = false)
        fun ⟨⟨hacq, hemp⟩, hfile⟩ _ => ?_
      · rw [← hupsert] at hstep
        exact And.imp_right (And.imp_right fun hQ => ⟨fun _ _ => hQ, nofun⟩) hstep
      · rw [hrows (isEmpty_iff.mp hemp)]
        refine ⟨fun row hrow => ?_, fun _ => cons_ne_nil _ _, .inr hacq, hacq, rfl⟩
        rw [mem_singleton.mp hrow]
        exact ⟨rfl, rfl, rfl, hfile⟩
    · exact And.imp_right (And.imp_right fun hE => ⟨nofun, fun _ _ => hE⟩)
        (h.stay hv fun _ _ _ hR => hR.1)
  · cases result with
    | ok _ => exact .done fun c _ h => ⟨rfl, h.1 () rfl⟩
    | error error =>
      refine .bind (R := fun _ => Leading descriptor k flight fun _ _ _ => True)
        (.before (.atomic (fun _ => Leading.stable) fun c i hv h _ => ?_)
          fun c _ h => h.2 error rfl) fun _ => .fail fun _ _ h => h
      show Acts sha256 config descriptor k c (if i.ok then _ else _)
        (Leading descriptor k flight _ (if i.ok then _ else _))
      split_ifs
      · refine h.step hv rfl rfl rfl rfl fun ⟨hacq, hemp⟩ _ => ?_
        refine ⟨fun row hrow => ?_, id, .inr hacq, trivial⟩
        rw [show (c.setFile _ _).rows = [] from isEmpty_iff.mp hemp] at hrow
        cases hrow
      · exact h.stay hv fun _ _ _ _ => trivial

theorem evict_frame (c : Cache) (digest : String) (eviction : Eviction) :
    ∃ rows files, (c.evict digest eviction).2 = { c with rows := rows, files := files } := by
  unfold Cache.evict
  split_ifs
  · exact ⟨_, _, rfl⟩
  · split
    · next hclaim =>
      obtain rfl := (Prod.mk.inj hclaim).2
      exact ⟨_, _, rfl⟩
    · next hclaim =>
      obtain rfl := (Prod.mk.inj hclaim).2
      cases eviction <;> exact ⟨_, _, rfl⟩

theorem evictLoop_frame {limit : Nat} {left : List StoredDocumentResource} {usage : Nat} :
    ∃ rows files, (evictLoop limit incoming eviction left usage c).2 =
      { c with rows := rows, files := files } := by
  induction left generalizing usage c with
  | nil => exact ⟨_, _, rfl⟩
  | cons row left ih =>
    unfold evictLoop
    split_ifs
    · exact ⟨_, _, rfl⟩
    obtain ⟨rows, files, hevict⟩ := evict_frame c row.digest (eviction row.digest)
    rcases hres : c.evict row.digest (eviction row.digest) with ⟨_ | evicted, d⟩
    · rw [hres] at hevict
      exact ⟨rows, files, hevict⟩
    · rw [hres] at hevict
      obtain rfl : d = _ := hevict
      cases evicted with
      | _ => exact ih

theorem evictFor_frame (config : Config) (c : Cache) (incoming : Nat)
    (eviction : String → Eviction) :
    ∃ rows files, (evictFor config incoming eviction c).2 =
      { c with rows := rows, files := files } := by
  unfold evictFor
  cases c.documentResourceUsage with
  | error _ => exact ⟨_, _, rfl⟩
  | ok usage => exact evictLoop_frame

/-- Nothing is evicted from an empty table. -/
theorem evictFor_nil (h : c.rows = []) : (evictFor config incoming eviction c).2 = c := by
  have hlru : c.unreferencedDocumentResourcesLru = [] := by
    simp [Cache.unreferencedDocumentResourcesLru, h]
  unfold evictFor
  cases c.documentResourceUsage with
  | error _ => rfl
  | ok usage => rw [hlru]; rfl

theorem triple_storeAcquired : Does sha256 config descriptor k
      (Leading descriptor k flight fun acquired empty _ => acquired = [] ∧ empty = true)
      (storeAcquired sha256 config k descriptor now)
      (fun path c => path = relativePath descriptor.digest ∧
        Leading descriptor k flight (fun acquired empty _ => acquired = [k] ∧ empty = false) c)
      fun _ => Leading descriptor k flight fun _ _ _ => True := by
  let Taken (acquired : List Nat) (empty : Bool) (_ : String → Option Bytes) : Prop :=
    acquired = [k] ∧ empty = true
  refine .bind (R := fun _ => Leading descriptor k flight Taken)
    (.fallible (fun _ => .stable) fun c i hv h _ => ?_) fun stream => ?_
  · have hstep : Acts sha256 config descriptor k c { c with acquired := k :: c.acquired }
        (Leading descriptor k flight Taken { c with acquired := k :: c.acquired }) := by
      refine h.step hv rfl rfl rfl rfl fun ⟨hacq, hemp⟩ hrows => ?_
      have htaken : k :: c.acquired = [k] := by rw [hacq]
      exact ⟨hrows, id, .inr htaken, htaken, hemp⟩
    exact And.imp_right (And.imp_right fun hQ => ⟨fun _ _ => hQ, fun _ _ =>
      hQ.mono fun _ _ _ _ => trivial⟩) hstep
  · show Process.Triple _ _ (if _ then _ else _) _ _
    split_ifs with hbytes
    · refine .bind (R := fun _ => Leading descriptor k flight Taken)
        (.fallible (fun _ => .stable) fun c i hv h _ => ?_) fun _ => triple_publish hbytes
      split_ifs
      · obtain ⟨rows, files, hframe⟩ :=
          evictFor_frame config c descriptor.byteLength i.eviction
        have hstep := h.step (e := (evictFor config descriptor.byteLength i.eviction c).2)
          (S := Taken) hv (by rw [hframe]) (by rw [hframe]) (by rw [hframe]) (by rw [hframe])
          fun htaken hrows => ?_
        · exact And.imp_right (And.imp_right fun hQ => ⟨fun _ _ => hQ, fun _ _ =>
            hQ.mono fun _ _ _ _ => trivial⟩) hstep
        · rw [evictFor_nil (isEmpty_iff.mp htaken.2)]
          exact ⟨hrows, id, .inr htaken.1, htaken⟩
      · exact And.imp_right (And.imp_right fun hE => ⟨nofun, fun _ _ => hE⟩)
          (h.stay hv fun _ _ _ _ => trivial)
    · exact .fail fun c _ h => h.mono fun _ _ _ _ => trivial

/-! ### The flight -/

/-- The result of a flight. -/
def Landed (descriptor : NodeResourceDescriptor) (result : Except String String) (c : Cache) :
    Prop :=
  Failed c ∨ (result = .ok (relativePath descriptor.digest) ∧ Stored descriptor c)

theorem Landed.stable : (discipline sha256 config descriptor k).Stable (Landed descriptor result) :=
  fun _ _ _ _ hrely h => h.imp hrely.failed (.imp_right hrely.stored)

theorem triple_ofExcept : Does sha256 config descriptor k (Landed descriptor result)
      (.ofExcept (result.mapError ResourceCacheError.acquisition)) (Resolved descriptor)
      fun _ => Failed := by
  cases result with
  | error message => exact .fail fun c _ hc => hc.resolve_right nofun
  | ok path =>
    refine .done fun c _ hc => hc.imp_right ?_
    rintro ⟨⟨⟩, hsto⟩
    exact ⟨rfl, hsto.rows⟩

/-- The result of the flight is set. -/
theorem Leading.land (hv : Valid sha256 config descriptor c)
    (h : Leading descriptor k flight (fun acquired empty _ => ∀ path, result = .ok path →
        path = relativePath descriptor.digest ∧ acquired = [k] ∧ empty = false) c) :
    Acts sha256 config descriptor k c { c with results := c.results.set flight (some result) }
      (Landed descriptor result { c with results := c.results.set flight (some result) }) := by
  rcases h with ⟨hfl, hfail⟩ | ⟨rfl, hled, hres⟩
  · have hhead : (c.results.set flight (some result)).head? = c.results.head? := by
      obtain ⟨n, rfl⟩ := Nat.exists_eq_succ_of_ne_zero hfl
      cases c.results <;> rfl
    exact And.imp_right (And.imp_right .inl) (hfail.step hhead fun _ => id)
  · have hset : c.results.set 0 (some result) = [some result] := by rw [hled.1]; rfl
    rw [hset]
    have hrely := hled.rely (e := { c with results := [some result] }) id fun _ => id
    cases result with
    | error message =>
      have hfail : Failed { c with results := [some (.error message)] } := ⟨message, rfl⟩
      exact ⟨.inl hfail, hrely, .inl hfail⟩
    | ok path =>
      obtain ⟨rfl, hacq, hemp⟩ := hres path rfl
      have hord := hv.resolve_left hled.not_failed
      have hsto : Stored descriptor
          { c with results := [some (.ok (relativePath descriptor.digest))] } := by
        refine ⟨rfl, isEmpty_eq_false_iff.mp hemp, fun flight hfl => ?_, ?_⟩
        · exact (Option.some.inj (hled.2.2.symm.trans hfl)).symm
        · show c.acquired.length = 1
          rw [hacq]
          rfl
      refine ⟨.inr ⟨hord.rows, ?_, fun _ => hord.began ?_, hled.missed, .inr (.inr hsto)⟩, hrely,
        .inr ⟨rfl, hsto⟩⟩
      · have hj := hord.joined
        rw [hled.1] at hj
        exact hj
      · rw [hled.1]
        exact cons_ne_nil _ _

/-- The flight is removed. -/
theorem Landed.leave (hv : Valid sha256 config descriptor c) (h : Landed descriptor result c) :
    Acts sha256 config descriptor k c (c.endFlight descriptor.digest)
      (Landed descriptor result (c.endFlight descriptor.digest)) := by
  rcases h with hfail | ⟨hres, hsto⟩
  · exact And.imp_right (And.imp_right .inl) (hfail.step rfl fun _ => id)
  · have hord := hv.resolve_left hsto.not_failed
    have hsto' : Stored descriptor (c.endFlight descriptor.digest) := by
      refine ⟨hsto.results, hsto.rows, fun flight hfl => ?_, hsto.acquired⟩
      have hnone : Function.update c.flights descriptor.digest none descriptor.digest = none :=
        Function.update_self ..
      exact absurd (hnone.symm.trans hfl) nofun
    refine ⟨.inr ⟨hord.rows, hord.joined, hord.began, fun _ _ entry hent => ?_, .inr (.inr hsto')⟩,
      fun j _ => ?_, .inr ⟨hres, hsto'⟩⟩
    · exact of_decide_eq_true (mem_filter.mp hent).2
    · exact ⟨fun hfail => absurd hfail hsto.not_failed, .inl, fun _ => id, fun _ => hsto',
        fun hled => absurd hsto hled.not_stored⟩

theorem triple_lead : Does sha256 config descriptor k
      (Leading descriptor k flight fun acquired empty _ => acquired = [] ∧ empty = true)
      (lead sha256 config k flight descriptor now) (Resolved descriptor) fun _ => Failed := by
  refine .bind triple_storeAcquired.attempt fun result => ?_
  refine .bind (R := fun _ => Landed descriptor (result.mapError ResourceCacheError.toText))
    (.before (.atomic (fun _ => Leading.stable) fun c i hv h _ => h.land hv)
      fun c _ h => ?_) fun _ =>
    .bind (R := fun _ => Landed descriptor (result.mapError ResourceCacheError.toText))
      (.atomic (fun _ => Landed.stable) fun c i hv h _ => h.leave hv) fun _ => triple_ofExcept
  cases result with
  | error e =>
    refine (h.2 e rfl).mono fun _ _ _ _ path hpath => ?_
    cases hpath
  | ok path =>
    obtain ⟨rfl, hleading⟩ := h.1 path rfl
    refine hleading.mono fun acquired empty _ hR path hpath => ?_
    cases hpath
    exact ⟨rfl, hR⟩

theorem triple_follow : Does sha256 config descriptor k (fun c => (k, flight) ∈ c.joined)
      (follow k flight) (Resolved descriptor) fun _ => Failed := by
  refine .bind (R := fun result c => (result = none → Failed c) ∧
      ∀ r, result = some r → Landed descriptor r c)
    (.atomic (fun _ _ _ _ _ hrely h => hrely.joined _ h) fun c i hv h hi => ?_) fun result => ?_
  · refine ⟨hv, fun _ _ => (discipline sha256 config descriptor _).refl c, ?_⟩
    rcases hv with hfail | hord
    · exact ⟨fun _ => hfail, fun _ _ => .inl hfail⟩
    -- the flight that was entered is the first one, and it has its result
    have hsome : (c.results[flight]?.join).isSome = true := by
      simpa using all_eq_true.mp hi.2 _ h
    have hlt := hord.joined _ h
    rcases hord.stage with hidle | ⟨j, hled, -⟩ | hsto
    · rw [hidle.1] at hlt
      cases hlt
    · rw [hled.1] at hlt hsome
      obtain rfl : flight = 0 := Nat.lt_one_iff.mp hlt
      cases hsome
    · rw [hsto.results] at hlt
      obtain rfl : flight = 0 := Nat.lt_one_iff.mp hlt
      refine ⟨fun hnone => ?_, fun r hr => .inr ⟨?_, hsto⟩⟩
      · rw [show c.results[0]?.join = none from hnone] at hsome
        cases hsome
      · replace hr : c.results[0]?.join = some r := hr
        rw [hsto.results] at hr
        exact (Option.some.inj hr).symm
  · cases result with
    | none => exact .fail fun c _ h => h.1 rfl
    | some result =>
      exact triple_ofExcept.before fun c _ h => h.2 result rfl

/-- A call enters the flight or begins one. -/
theorem triple_joinFlight
    (hval : validateDescriptor descriptor config.maximumResourceBytes = .ok ()) :
    Does sha256 config descriptor k (fun _ => True) (joinFlight k descriptor.digest)
      (fun joined c => (joined.2 = true → Leading descriptor k joined.1
          (fun acquired empty _ => acquired = [] ∧ empty = true) c) ∧
        (joined.2 = false → (k, joined.1) ∈ c.joined)) fun _ => Failed := by
  refine .atomic (fun _ => .const True) fun c i hv _ hi => ?_
  have hquiet : c.flights descriptor.digest = none → (k, descriptor.digest) ∈ c.missed := hi.1
  cases hfl : c.flights descriptor.digest with
  | some flight =>
    have hrely : ∀ j, Rely descriptor j c { c with joined := (k, flight) :: c.joined } :=
      Rely.neutral rfl rfl rfl rfl rfl rfl fun _ => mem_cons_of_mem _
    refine ⟨hv.imp (hrely 0).failed fun hord => ?_, fun j _ => hrely j, nofun,
      fun _ => mem_cons_self⟩
    refine ⟨hord.rows, fun entry hent => ?_, hord.began, hord.missed,
      hord.stage.imp id (.imp id (hrely 0).stored)⟩
    rcases mem_cons.mp hent with rfl | hent
    · show flight < c.results.length
      rcases hord.stage with hidle | ⟨j, hled, -⟩ | hsto
      · rw [hidle.2.2.1] at hfl
        cases hfl
      · rw [hled.2.2] at hfl
        rw [hled.1, ← Option.some.inj hfl]
        exact Nat.one_pos
      · rw [hsto.results, hsto.flight flight hfl]
        exact Nat.one_pos
    · exact hord.joined entry hent
  | none =>
    rcases hv with hfail | hord
    · obtain ⟨message, hmsg⟩ := hfail
      have hne : c.results ≠ [] := fun hnil => by
        rw [hnil] at hmsg
        cases hmsg
      have hhead : (c.results ++ [none]).head? = c.results.head? :=
        List.head?_append_of_ne_nil _ hne
      have hlen : c.results.length ≠ 0 := fun hzero => hne (length_eq_zero_iff.mp hzero)
      exact And.imp_right (And.imp_right fun hfail => ⟨fun _ => .inl ⟨hlen, hfail⟩, nofun⟩)
        (Failed.step ⟨message, hmsg⟩ hhead fun _ => id)
    · have hnil : c.rows = [] := by_contra fun hne => hord.missed hfl hne _ (hquiet hfl) rfl
      rcases hord.stage with ⟨hress, hlds, -, hacq⟩ | ⟨j, hled, -⟩ | hsto
      · set e : Cache := { c with
          flights := Function.update c.flights descriptor.digest (some c.results.length)
          results := c.results ++ [none]
          leaders := c.leaders ++ [k] } with hc'
        have hled : Led descriptor k e := by
          refine ⟨?_, ?_, ?_⟩
          · show c.results ++ [none] = [none]
            rw [hress]
            rfl
          · show c.leaders ++ [k] = [k]
            rw [hlds]
            rfl
          · show Function.update c.flights _ (some c.results.length) _ = some 0
            rw [Function.update_self, hress]
            rfl
        have hents : ∀ entry ∈ c.joined, entry.2 < 0 := by
          have hj := hord.joined
          rwa [hress] at hj
        refine ⟨.inr ⟨hord.rows, fun entry hent => ?_, fun _ => hval, hled.missed,
          .inr (.inl ⟨k, hled, .inl hacq⟩)⟩, fun j _ => ?_, fun _ => .inr ⟨?_, hled, ?_⟩, nofun⟩
        · exact absurd (hents entry hent) (Nat.not_lt_zero _)
        · refine ⟨?_, .inl, fun _ => id, fun hsto => ?_, fun hled => ?_⟩
          · rintro ⟨message, hmsg⟩
            rw [hress] at hmsg
            cases hmsg
          · exact absurd (hress.symm.trans hsto.results) nofun
          · exact absurd (hress.symm.trans hled.1) nofun
        · show c.results.length = 0
          rw [hress]
          rfl
        · exact ⟨hacq, isEmpty_iff.mpr hnil⟩
      · rw [hled.2.2] at hfl
        cases hfl
      · exact absurd hnil hsto.rows

/-! ### Runs -/

theorem triple_resolve : Does sha256 config descriptor k (fun _ => True)
      (resolve sha256 config k descriptor now) (Resolved descriptor) fun _ c => Failed c ∨
        validateDescriptor descriptor config.maximumResourceBytes ≠ .ok () := by
  unfold resolve
  cases hval : validateDescriptor descriptor config.maximumResourceBytes with
  | error e => exact .fail fun _ _ _ => .inr nofun
  | ok _ =>
    refine .consequence (E := fun _ => Failed) (.bind triple_cachedVerified fun cached => ?_)
      (fun _ _ h => h) (fun _ _ _ h => h) fun _ _ _ h => .inl h
    cases cached with
    | some path => exact .done fun c _ h => h path rfl
    | none =>
      refine .bind ((triple_joinFlight hval).before fun _ _ _ => trivial) fun joined => ?_
      obtain ⟨flight, leader⟩ := joined
      cases leader with
      | true =>
        exact triple_lead.before fun c _ h => h.1 rfl
      | false =>
        exact triple_follow.before fun c _ h => h.2 rfl

/-- Nothing is in flight, and what is stored is the resource. -/
structure Clean (sha256 : Bytes → String) (descriptor : NodeResourceDescriptor) (c : Cache) :
    Prop where
  rows : ∀ row ∈ c.rows, Fits sha256 descriptor c row
  idle : Idle descriptor c
  joined : c.joined = []
  missed : c.missed = []

/-- The calls are for the resource, and their next actions are quiet. -/
def Calm (descriptor : NodeResourceDescriptor)
    (m : Pool Label Input Cache ResourceCacheError (List String)) : Pool.Op Call Input → Prop
  | .start (.resolve other _) => other = descriptor
  | .start _ => False
  | .act k i => ∀ label ∈ m.threads[k]?.bind (·.label?), Quiet label i m.shared

/-- One acquisition, one verified path. -/
structure Collapsed (sha256 : Bytes → String) (descriptor : NodeResourceDescriptor) (path : String)
    (m : Pool Label Input Cache ResourceCacheError (List String)) : Prop where
  path_eq : path = relativePath descriptor.digest
  verified : (m.shared.files descriptor.digest).any
    (Matches sha256 descriptor.digest descriptor.byteLength) = true
  /-- The callback was called once. -/
  acquired : m.shared.acquired.length = 1
  returned : ∀ p ∈ m.threads,
    (∀ paths, p = .done paths → paths = [path]) ∧ ∀ error, p ≠ .fail error
  /-- No call waits. -/
  proceeds : ∀ p ∈ m.threads, p.label?.all (ready · m.shared) = true

/-- **Concurrent misses are collapsed**, once the first acquisition has succeeded. -/
theorem misses_collapsed (hc : Clean sha256 descriptor c) {ops : List (Pool.Op Call Input)}
    (h : Run.Meets (Pool.step (program sha256 config) ready) (Calm descriptor) ⟨c, []⟩ ops)
    {path : String} (hfirst : (Pool.run (program sha256 config) ready c ops).shared.results.head? =
      some (some (.ok path))) :
    Collapsed sha256 descriptor path (Pool.run (program sha256 config) ready c ops) := by
  have hstart : Orderly sha256 config descriptor c := by
    refine ⟨hc.rows, ?_, fun hne => absurd hc.idle.1 hne, fun _ _ => ?_, .inl hc.idle⟩
    · rw [hc.joined]
      exact nofun
    · rw [hc.missed]
      exact nofun
  have hD : Pool.Compatible (discipline sha256 config descriptor)
      (fun _ paths c => Failed c ∨ (paths = [relativePath descriptor.digest] ∧ c.rows ≠ []))
      fun _ (_ : ResourceCacheError) c => Failed c ∨
        validateDescriptor descriptor config.maximumResourceBytes ≠ .ok () := by
    refine ⟨fun _ _ _ hv => hv, fun j k c e hjk _ hguar => hguar j hjk,
      fun k c j _ => (discipline sha256 config descriptor j).refl c, fun _ _ => id,
      fun _ paths c e _ _ hrely hpaths => ?_, fun _ _ c e _ _ hrely => Or.imp_left hrely.failed⟩
    rcases hpaths with hfail | ⟨hpaths, hrows⟩
    · exact .inl (hrely.failed hfail)
    · exact (hrely.rows hrows).symm.imp_right fun hrows' => ⟨hpaths, hrows'⟩
  have hcall : ∀ k call (s : Cache), Valid sha256 config descriptor s →
      (∃ now, call = .resolve descriptor now) → Process.Safe (discipline sha256 config descriptor k)
        (fun paths c => Failed c ∨ (paths = [relativePath descriptor.digest] ∧ c.rows ≠ []))
        (fun _ c => Failed c ∨ validateDescriptor descriptor config.maximumResourceBytes ≠ .ok ())
        (program sha256 config k call) s := by
    rintro k call s hs ⟨now, rfl⟩
    refine (triple_resolve.bind fun path => .done fun c _ hpath => ?_) s hs trivial
    exact hpath.imp_right fun ⟨hpath, hrows⟩ => ⟨by rw [hpath], hrows⟩
  obtain ⟨hval, hthreads⟩ := Pool.Sound.run hD
    (fun m call hop hm => hcall _ call m.shared (hm 0) (by
      cases call with
      | resolve other now => exact ⟨now, by rw [show other = descriptor from hop]⟩
      | _ => cases hop))
    (fun m k i hi _ p hp label hlab hready => ⟨hi label (by rw [hp]; exact hlab), hready⟩)
    (fun _ => .inr hstart) h
  set m := Pool.run (program sha256 config) ready c ops
  have hnot : ¬Failed m.shared := by
    rintro ⟨message, hmsg⟩
    exact absurd (hfirst.symm.trans hmsg) nofun
  have hord : Orderly sha256 config descriptor m.shared := (hval 0).resolve_left hnot
  have hne : m.shared.results ≠ [] := fun hnil => by
    rw [hnil] at hfirst
    cases hfirst
  have hsto : Stored descriptor m.shared := by
    rcases hord.stage with hidle | ⟨j, hled, -⟩ | hsto
    · exact absurd hidle.1 hne
    · rw [hled.1] at hfirst
      cases hfirst
    · exact hsto
  obtain rfl : relativePath descriptor.digest = path := by
    rw [hsto.results] at hfirst
    simpa using hfirst
  refine ⟨rfl, hord.verified hsto.rows, hsto.acquired, fun p hp => ?_, fun p hp => ?_⟩
  · obtain ⟨k, hk⟩ := List.mem_iff_getElem?.mp hp
    have hsafe := hthreads k p hk
    refine ⟨fun paths hpaths => ?_, fun error herr => ?_⟩
    · subst hpaths
      exact (Or.resolve_left hsafe hnot).1
    · subst herr
      exact Or.resolve_left hsafe hnot (hord.began hne)
  · cases hlab : p.label? with
    | none => rfl
    | some label =>
      cases label with
      | wait k =>
        -- every flight that was entered is the first one
        refine List.all_eq_true.mpr fun entry hent => ?_
        have hlt := hord.joined entry hent
        rw [hsto.results] at hlt ⊢
        rw [Nat.lt_one_iff.mp hlt]
        simp
      | _ => rfl

namespace Sample

/-- The digest of the byte 0. -/
def zero : String := "6e340b9cffb37a989ca544e6bb780a2c78901d3fb33738768511a30617afa01d"

def hash (bytes : Bytes) : String := if bytes = [0] then zero else "-"

/-- A cache with room for two bytes. -/
def room : Config := ⟨2, 1⟩

def empty : Cache := ⟨[], fun _ => none, fun _ => none, [], [], [], [], []⟩

/-- The next actions of a call. -/
def acts (k : Nat) (bytes : Bytes) (n : Nat) : List (Pool.Op Call Input) :=
  List.replicate n (.act k ⟨true, .ok bytes, fun _ => .finished⟩)

def resource : NodeResourceDescriptor := ⟨zero, "image/png", 1⟩

/-- The second call enters the flight of the first one and waits for it. -/
def waiting : List (Pool.Op Call Input) :=
  .start (.resolve resource 0) :: .start (.resolve resource 0) ::
    acts 0 [0] 2 ++ acts 1 [] 3 ++ acts 0 [0] 7 ++ acts 1 [] 1

/-- The second call misses the row before the first one stores it, and the flight after that. -/
def late : List (Pool.Op Call Input) :=
  .start (.resolve resource 0) :: .start (.resolve resource 0) ::
    acts 1 [0] 1 ++ acts 0 [0] 9 ++ acts 1 [0] 8

end Sample

open Flight.Sample

instance (label : Label) (i : Input) (c : Cache) : Decidable (Quiet label i c) := by
  apply @Label.casesOn (Decidable <| Quiet · i c) label <;> intros <;> dsimp only [Quiet] <;>
    infer_instance

instance (m : Pool Label Input Cache ResourceCacheError (List String)) (op : Pool.Op Call Input) :
    Decidable (Calm descriptor m op) := by
  rcases op with ⟨_ | _ | _ | _ | _⟩ | _ <;> unfold Calm <;> infer_instance

theorem misses_collapsed_waiting : Collapsed hash resource (relativePath zero)
      (Pool.run (program hash room) ready empty waiting) :=
  misses_collapsed ⟨List.forall_mem_nil _, ⟨rfl, rfl, rfl, rfl⟩, rfl, rfl⟩ (by decide +kernel)
    (by decide +kernel)

/-- The first acquisition succeeds, and there is another one. -/
theorem resource_acquired_twice : (Pool.run (program hash room) ready empty
        late).shared.results.head? = some (some (.ok (relativePath zero))) ∧
    (Pool.run (program hash room) ready empty late).shared.acquired = [1, 0] := by
  decide +kernel

end Piqae.Resources.Flight
