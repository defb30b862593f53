/-
Piqae/Server/Stranded.lean

No render is stranded.

A worker may call for work it has claimed at any time, in any order, or never
again.  A printable render that is claimed for its last attempt can be claimed by
nobody else, and does not expire while it is rendering: if its worker dies, it
stays there (`Spare` excludes such claims).  Every other render is claimed again
or expires.
-/
import Piqae.Server.Renders
import Piqae.Lib.Run

namespace Piqae.Server.Renders

open List

/-- The store, and all work that was ever claimed. -/
structure Queue where
  store : Store
  works : List DocumentRenderWork
  expired : List ExpiredDocumentArtifactWork

namespace Queue

inductive Op
  | register (id : String) (purpose : Purpose) (expiresInSeconds : Int)
  | claim (limit leaseSeconds : Int)
  | complete (work : Nat) (key : ObjectKey)
  | fail (work : Nat) (retryable : Bool)
  | claimExpired (limit leaseSeconds : Int)
  | completeExpiry (work : Nat)
  | createPreview (id renderId : String) (expiresAt : Int)
  | movePreview (id : String) (before after : PreviewState)
  | createUpload
  | completeUpload (id : Nat)
  | deleteUpload (id : Nat)
  | acquireUpload (renderId : String) (key : ObjectKey) (acquisition : String)
  | createJob (idempotencyKey : Option String) (uploadId : Nat) (expiresAt : Int)
  | finalizeJob (id : Nat)
  | wait (seconds : Nat)

variable (m : Queue)

/-- A call of a worker or of a request, or time passes. -/
def step : Op → Queue
  | .register id purpose expiresIn =>
    { m with store := (m.store.registerDocumentRender id purpose expiresIn).2 }
  | .claim limit leaseSeconds =>
    { m with
      store := (m.store.claimDocumentRenders limit leaseSeconds).2
      works := m.works ++ (m.store.claimDocumentRenders limit leaseSeconds).1 }
  | .complete k key =>
    match m.works[k]? with
    | none => m
    | some work =>
      { m with store := (m.store.completeClaimedDocumentRender work.renderId work.token key).2 }
  | .fail k retryable =>
    match m.works[k]? with
    | none => m
    | some work => { m with store := (m.store.failClaimedDocumentRender work retryable).2 }
  | .claimExpired limit leaseSeconds =>
    { m with
      store := (m.store.claimExpiredDocumentArtifacts limit leaseSeconds).2
      expired := m.expired ++ (m.store.claimExpiredDocumentArtifacts limit leaseSeconds).1 }
  | .completeExpiry k =>
    match m.expired[k]? with
    | none => m
    | some work => { m with store := (m.store.completeDocumentArtifactExpiry work).2 }
  | .createPreview id renderId expiresAt =>
    { m with store := (m.store.createDocumentPreview id renderId expiresAt).2 }
  | .movePreview id before after => { m with store := m.store.movePreview id before after }
  | .createUpload => { m with store := m.store.createUpload.2 }
  | .completeUpload id => { m with store := m.store.completeUpload id }
  | .deleteUpload id => { m with store := (m.store.deleteUpload id).2 }
  | .acquireUpload renderId key acquisition =>
    { m with store := (m.store.acquireDocumentArtifactUpload renderId key acquisition).2 }
  | .createJob idempotencyKey uploadId expiresAt =>
    { m with store := (m.store.createCloudJob idempotencyKey uploadId expiresAt).2 }
  | .finalizeJob id => { m with store := m.store.finalizeJob id }
  | .wait seconds => { m with store := { m.store with now := m.store.now + seconds } }

/-- No printable render is claimed for its last attempt. -/
def Spare : Op → Prop
  | .claim limit _ => ∀ row ∈ m.store.claimedRenders limit, row.purpose = .printable →
      row.attempt + 1 < row.maxAttempts
  | _ => True

instance (op : Op) : Decidable (m.Spare op) := by
  cases op <;> unfold Spare <;> infer_instance

end Queue

/-- A render whose work is not done has an attempt left, if it is printable. -/
def Render.Continues (row : Render) : Prop :=
  row.purpose = .printable → row.state = .registered ∨ row.state = .rendering →
    row.attempt < row.maxAttempts

structure Queue.Live (m : Queue) : Prop where
  continues : ∀ row ∈ m.store.renders, row.Continues
  leases : ∀ row ∈ m.store.renders, ∀ lease ∈ row.lease, lease.token < m.store.tokens
  /-- Work is as the row of its lease. -/
  works : ∀ work ∈ m.works, work.token < m.store.tokens ∧
    ∀ row ∈ m.store.renders, ∀ lease ∈ row.lease, lease.token = work.token →
      row.attempt = work.attempt ∧ row.maxAttempts = work.maxAttempts
  unique : (m.store.renders.map (·.id)).Nodup
  /-- Jobs and approvals need printable renders. -/
  references : ∀ reference ∈ m.store.references, ∃ row ∈ m.store.renders,
    row.id = reference.renderId ∧ row.purpose = .printable
  previews : ∀ preview ∈ m.store.previews, ∃ row ∈ m.store.renders,
    row.id = preview.renderId ∧ row.purpose = .printable

namespace Queue

variable {m : Queue} {where_ : Render → Bool} {f : Render → Render} {s : Store} {id : String}
  {leaseSeconds limit : Int} {row : Render}

/-! ### Steps -/

theorem update_ids (hf : ∀ row, (f row).id = row.id) :
    (s.updateRenders where_ f).renders.map (·.id) = s.renders.map (·.id) := by
  rw [Store.updateRenders, map_map]
  refine map_congr_left fun row _ => ?_
  show (if where_ row then f row else row).id = row.id
  split_ifs
  · exact hf row
  · rfl

theorem update_printable (hf : ∀ row, (f row).id = row.id ∧ (f row).purpose = row.purpose)
    (h : ∃ row ∈ s.renders, row.id = id ∧ row.purpose = .printable) :
    ∃ row ∈ (s.updateRenders where_ f).renders, row.id = id ∧ row.purpose = .printable := by
  obtain ⟨row, hrow, hid, hpur⟩ := h
  refine ⟨_, mem_map_of_mem hrow, ?_⟩
  split_ifs
  · exact ⟨(hf row).1.trans hid, (hf row).2.trans hpur⟩
  · exact ⟨hid, hpur⟩

/-- Rows are changed that have no lease then, or keep theirs. -/
theorem Live.update (h : m.Live) (hf : ∀ row, (f row).id = row.id ∧ (f row).purpose = row.purpose)
    (hrow : ∀ row ∈ m.store.renders, where_ row = true → (f row).Continues ∧
      ((f row).lease = none ∨ (f row).lease = row.lease ∧ (f row).attempt = row.attempt ∧
        (f row).maxAttempts = row.maxAttempts)) :
    Live { m with store := m.store.updateRenders where_ f } := by
  have hlease : ∀ row ∈ (m.store.updateRenders where_ f).renders, ∀ lease ∈ row.lease,
      ∃ old ∈ m.store.renders, lease ∈ old.lease ∧ row.attempt = old.attempt ∧
        row.maxAttempts = old.maxAttempts := by
    intro row hmem lease hl
    obtain ⟨old, hold, rfl⟩ := mem_map.mp hmem
    split_ifs at hl ⊢ with hw
    · rcases (hrow old hold hw).2 with hnone | ⟨hsame, hatt, hmax⟩
      · rw [hnone] at hl
        cases hl
      · exact ⟨old, hold, hsame ▸ hl, hatt, hmax⟩
    · exact ⟨old, hold, hl, rfl, rfl⟩
  refine ⟨fun row hmem => ?_, fun row hmem lease hl => ?_, fun work hwork => ?_, ?_,
    fun reference href => update_printable hf (h.references reference href),
    fun preview hprev => update_printable hf (h.previews preview hprev)⟩
  · obtain ⟨old, hold, rfl⟩ := mem_map.mp hmem
    split_ifs with hw
    · exact (hrow old hold hw).1
    · exact h.continues old hold
  · obtain ⟨old, hold, hl', -⟩ := hlease row hmem lease hl
    exact h.leases old hold lease hl'
  · refine ⟨(h.works work hwork).1, fun row hmem lease hl htok => ?_⟩
    obtain ⟨old, hold, hl', hatt, hmax⟩ := hlease row hmem lease hl
    rw [hatt, hmax]
    exact (h.works work hwork).2 old hold lease hl' htok
  · rw [update_ids fun row => (hf row).1]
    exact h.unique

theorem Live.updateRender (h : m.Live)
    (hf : ∀ row, (f row).id = row.id ∧ (f row).purpose = row.purpose)
    (hrow : ∀ row ∈ m.store.renders, where_ row = true → (f row).Continues ∧ (f row).lease = none) :
    Live { m with store := (m.store.updateRender where_ f).2 } := by
  unfold Store.updateRender
  split_ifs
  · exact h.update hf fun row hmem hw => ⟨(hrow row hmem hw).1, .inl (hrow row hmem hw).2⟩
  · exact h

/-- The statements on uploads, jobs and previews. -/
theorem Live.of_renders (h : m.Live) (hrend : s.renders = m.store.renders)
    (htokens : s.tokens = m.store.tokens)
    (hrefs : ∀ reference ∈ s.references, ∃ row ∈ m.store.renders,
      row.id = reference.renderId ∧ row.purpose = .printable)
    (hpreviews : ∀ preview ∈ s.previews, ∃ row ∈ m.store.renders,
      row.id = preview.renderId ∧ row.purpose = .printable) : Live { m with store := s } := by
  refine ⟨?_, ?_, ?_, ?_, ?_, ?_⟩
  · rw [hrend]
    exact h.continues
  · rw [hrend, htokens]
    exact h.leases
  · rw [hrend, htokens]
    exact h.works
  · rw [hrend]
    exact h.unique
  · rw [hrend]
    exact hrefs
  · rw [hrend]
    exact hpreviews

/-- Rows are claimed, with the work that their workers get. -/
theorem Live.lease {claimed : List Render} {works : List DocumentRenderWork} (h : m.Live)
    (hcl : ∀ row ∈ claimed, row ∈ m.store.renders)
    (hf : ∀ row, (f row).id = row.id ∧ (f row).purpose = row.purpose)
    (hcont : ∀ row ∈ claimed, (f row).Continues)
    (hworks : ∀ work ∈ works, ∃ i row, claimed[i]? = some row ∧
      work.token = m.store.tokens + i ∧ work.attempt = (f row).attempt ∧
        work.maxAttempts = (f row).maxAttempts) : Live { m with
      store := m.store.lease claimed leaseSeconds f
      works := m.works ++ works } := by
  -- the row of a claimed number is the one that was claimed
  have hsame : ∀ row ∈ m.store.renders, ∀ i old, claimed[i]? = some old → old.id = row.id →
      old = row := fun row hrow i old hold hid =>
    inj_on_of_nodup_map h.unique (hcl old (mem_of_getElem? hold)) hrow hid
  have hany : ∀ row ∈ m.store.renders, claimed.any (·.id = row.id) = true → row ∈ claimed := by
    intro row hrow hmem
    obtain ⟨old, hold, hid⟩ := any_eq_true.mp hmem
    obtain ⟨i, hi⟩ := mem_iff_getElem?.mp hold
    exact hsame row hrow i old hi (of_decide_eq_true hid) ▸ hold
  have hcases : ∀ row ∈ (m.store.lease claimed leaseSeconds f).renders, ∀ lease ∈ row.lease,
      (row ∈ m.store.renders ∧ lease.token < m.store.tokens) ∨
        ∃ i old, claimed[i]? = some old ∧ lease.token = m.store.tokens + i ∧
          row.attempt = (f old).attempt ∧ row.maxAttempts = (f old).maxAttempts := by
    intro row hrow lease hlease
    obtain ⟨old, hold, rfl⟩ := mem_map.mp hrow
    split_ifs at hlease ⊢ with hmem
    · cases hlease
      have hin : old.id ∈ claimed.map (·.id) := mem_map_of_mem (hany old hold hmem)
      refine .inr ⟨(claimed.map (·.id)).idxOf old.id, old, ?_, rfl, rfl, rfl⟩
      have hget := List.getElem?_idxOf hin
      rw [List.getElem?_map] at hget
      obtain ⟨found, hfound, hid⟩ := Option.map_eq_some_iff.mp hget
      rw [hfound, hsame old hold _ found hfound hid]
    · exact .inl ⟨hold, h.leases old hold lease hlease⟩
  have hbd : ∀ {i old}, claimed[i]? = some old → i < claimed.length := fun hi =>
    (List.getElem?_eq_some_iff.mp hi).1
  refine ⟨fun row hrow => ?_, fun row hrow lease hlease => ?_, fun work hwork => ?_, ?_,
    fun reference href => ?_, fun preview hprev => ?_⟩
  · obtain ⟨old, hold, rfl⟩ := mem_map.mp hrow
    split_ifs with hmem
    · exact hcont old (hany old hold hmem)
    · exact h.continues old hold
  · show lease.token < m.store.tokens + claimed.length
    rcases hcases row hrow lease hlease with ⟨-, hlt⟩ | ⟨i, old, hi, htok, -⟩
    · omega
    · have hlt := hbd hi
      omega
  · show work.token < m.store.tokens + claimed.length ∧ _
    rcases mem_append.mp hwork with hwork | hwork
    · obtain ⟨hlt, hold⟩ := h.works work hwork
      refine ⟨by omega, fun row hrow lease hlease htok => ?_⟩
      rcases hcases row hrow lease hlease with ⟨hrow', -⟩ | ⟨i, old, hi, htok', -⟩
      · exact hold row hrow' lease hlease htok
      · omega
    · obtain ⟨i, old, hi, hwork', hatt, hmax⟩ := hworks work hwork
      have hlt := hbd hi
      refine ⟨by omega, fun row hrow lease hlease htok => ?_⟩
      rcases hcases row hrow lease hlease with ⟨-, hlt'⟩ | ⟨j, old', hj, htok', hrow', hmax'⟩
      · omega
      · obtain rfl : j = i := by omega
        cases hi.symm.trans hj
        exact ⟨hrow'.trans hatt.symm, hmax'.trans hmax.symm⟩
  · show ((m.store.updateRenders _ _).renders.map (·.id)).Nodup
    rw [update_ids]
    · exact h.unique
    · exact fun row => (hf row).1
  · exact update_printable hf (h.references reference href)
  · exact update_printable hf (h.previews preview hprev)

theorem printed_printable (h : s.printed id = true) :
    ∃ row ∈ s.renders, row.id = id ∧ row.purpose = .printable := by
  obtain ⟨row, hrow, hprt⟩ := any_eq_true.mp h
  simp only [Bool.and_eq_true, decide_eq_true_eq] at hprt
  exact ⟨row, hrow, hprt.1⟩

theorem mem_claimedRenders (h : row ∈ s.claimedRenders limit) : row ∈ s.renders :=
  (mem_filter.mp (mem_mergeSort.mp (mem_of_mem_take h))).1

theorem mem_expiredRenders (h : row ∈ s.expiredRenders limit) : row ∈ s.renders :=
  (mem_filter.mp (mem_mergeSort.mp (mem_of_mem_take h))).1

theorem Live.register {purpose : Purpose} {expiresIn : Int} (h : m.Live) :
    (m.step (.register id purpose expiresIn)).Live := by
  show Live { m with store := (m.store.registerDocumentRender id purpose expiresIn).2 }
  by_cases hany : m.store.renders.any (·.id = id)
      ∨ purpose = .preview ∧ ¬(60 ≤ expiresIn ∧ expiresIn ≤ 1800)
  · rw [Store.registerDocumentRender, if_pos hany]
    exact h
  rw [Store.registerDocumentRender, if_neg hany]
  obtain ⟨hfresh, -⟩ := not_or.mp hany
  refine ⟨?_, ?_, fun work hwork => ⟨(h.works work hwork).1, ?_⟩, ?_,
    fun reference href => ?_, fun preview hprev => ?_⟩
  · rw [forall_mem_append, forall_mem_singleton]
    exact ⟨h.continues, fun _ _ => Nat.zero_lt_succ 4⟩
  · rw [forall_mem_append, forall_mem_singleton]
    exact ⟨h.leases, nofun⟩
  · rw [forall_mem_append, forall_mem_singleton]
    exact ⟨(h.works work hwork).2, nofun⟩
  · rw [map_append, nodup_append]
    refine ⟨h.unique, nodup_singleton _, fun old hold new hnew heq => hfresh ?_⟩
    obtain ⟨row, hrow, rfl⟩ := mem_map.mp hold
    obtain rfl := mem_singleton.mp hnew
    exact any_eq_true.mpr ⟨row, hrow, decide_eq_true heq⟩
  · obtain ⟨row, hrow, hprt⟩ := h.references reference href
    exact ⟨row, mem_append_left _ hrow, hprt⟩
  · obtain ⟨row, hrow, hprt⟩ := h.previews preview hprev
    exact ⟨row, mem_append_left _ hrow, hprt⟩

theorem Live.claim (h : m.Live) (hspare : m.Spare (.claim limit leaseSeconds)) :
    (m.step (.claim limit leaseSeconds)).Live := by
  refine h.lease (fun row hrow => mem_claimedRenders hrow) (fun _ => ⟨rfl, rfl⟩)
    (fun row hrow hpur _ => hspare row hrow hpur) fun work hwork => ?_
  obtain ⟨⟨row, i⟩, hi, rfl⟩ := mem_map.mp hwork
  exact ⟨i, row, mem_zipIdx_iff_getElem?.mp hi, rfl, rfl, rfl⟩

theorem Live.claimExpired (h : m.Live) : (m.step (.claimExpired limit leaseSeconds)).Live := by
  have hlease : Live { m with
      store := m.store.lease (m.store.expiredRenders limit) leaseSeconds fun row =>
        { row with state := .expiring }
      works := m.works ++ [] } :=
    h.lease (fun row hrow => mem_expiredRenders hrow) (fun _ => ⟨rfl, rfl⟩)
      (fun row hrow hpur hst => by simp at hst) nofun
  rw [append_nil] at hlease
  exact { hlease with }

/-- Work that may be tried again is on a row with an attempt left. -/
theorem Live.fail {k : Nat} {retryable : Bool} (h : m.Live) :
    (m.step (.fail k retryable)).Live := by
  simp only [step]
  cases hk : m.works[k]? with
  | none => exact h
  | some work =>
    refine h.updateRender (fun _ => ⟨rfl, rfl⟩) fun row hrow hwhere => ⟨fun _ hst => ?_, rfl⟩
    simp only [Bool.and_eq_true, decide_eq_true_eq, Option.any_eq_true] at hwhere
    obtain ⟨-, lease, hlease, htok⟩ := hwhere
    have hsame := (h.works work (mem_of_getElem? hk)).2 row hrow lease hlease htok
    show row.attempt < row.maxAttempts
    split_ifs at hst with hterm
    · simp at hst
    · simp only [ge_iff_le, Bool.or_eq_true, Bool.not_eq_eq_eq_not, Bool.not_true,
        decide_eq_true_eq, not_or, Nat.not_le] at hterm
      omega

theorem Live.createJob {idempotencyKey : Option String} {uploadId : Nat} {expiresAt : Int}
    (h : m.Live) : (m.step (.createJob idempotencyKey uploadId expiresAt)).Live := by
  show Live { m with store := (m.store.createCloudJob idempotencyKey uploadId expiresAt).2 }
  unfold Store.createCloudJob
  split
  · exact h
  split
  · exact h.of_renders rfl rfl h.references h.previews
  rename_i renderId _
  split_ifs with hprt
  · -- the row of the render is kept longer
    have hupdate : Live { m with store := m.store.updateRenders (·.id = renderId) fun row =>
        { row with expiresAt := max row.expiresAt expiresAt } } :=
      h.update (fun _ => ⟨rfl, rfl⟩) fun row hrow _ =>
        ⟨h.continues row hrow, .inr ⟨rfl, rfl, rfl⟩⟩
    refine hupdate.of_renders rfl rfl ?_ hupdate.previews
    rw [forall_mem_append, forall_mem_singleton]
    exact ⟨hupdate.references, update_printable (fun _ => ⟨rfl, rfl⟩) (printed_printable hprt.1)⟩
  · exact h

/-- A step keeps every render going, if it does not claim one for its last attempt. -/
theorem Live.step {op : Op} (h : m.Live) (hspare : m.Spare op) : (m.step op).Live := by
  cases op with
  | register => exact h.register
  | claim => exact h.claim hspare
  | complete k key =>
    simp only [Queue.step]
    cases m.works[k]? with
    | none => exact h
    | some work =>
      exact h.updateRender (fun _ => ⟨rfl, rfl⟩) fun _ _ _ => ⟨fun _ hst => by simp at hst, rfl⟩
  | fail => exact h.fail
  | claimExpired => exact h.claimExpired
  | completeExpiry k =>
    simp only [Queue.step]
    cases m.expired[k]? with
    | none => exact h
    | some work =>
      exact h.updateRender (fun _ => ⟨rfl, rfl⟩) fun _ _ _ => ⟨fun _ hst => by simp at hst, rfl⟩
  | createPreview id renderId expiresAt =>
    show Live { m with store := (m.store.createDocumentPreview id renderId expiresAt).2 }
    unfold Store.createDocumentPreview
    split_ifs with hprt
    · refine h.of_renders rfl rfl h.references ?_
      rw [forall_mem_append, forall_mem_singleton]
      exact ⟨h.previews, printed_printable hprt.1⟩
    · exact h
  | movePreview =>
    refine h.of_renders rfl rfl h.references fun preview hprev => ?_
    obtain ⟨old, hold, rfl⟩ := mem_map.mp hprev
    split_ifs
    · exact h.previews old hold
    · exact h.previews old hold
  | deleteUpload id =>
    show Live { m with store := (m.store.deleteUpload id).2 }
    unfold Store.deleteUpload
    split_ifs
    · exact h.of_renders rfl rfl h.references h.previews
    · exact h
  | acquireUpload renderId key acquisition =>
    show Live { m with store := (m.store.acquireDocumentArtifactUpload renderId key acquisition).2 }
    unfold Store.acquireDocumentArtifactUpload
    split_ifs
    · exact h
    · split
      · exact h
      · exact h.of_renders rfl rfl h.references h.previews
  | createJob => exact h.createJob
  | finalizeJob id =>
    refine h.of_renders rfl rfl (fun reference href => ?_) h.previews
    obtain ⟨old, hold, rfl⟩ := mem_map.mp href
    split_ifs
    · exact h.references old hold
    · exact h.references old hold
  | _ => exact h.of_renders rfl rfl h.references h.previews

/-! ### Runs -/

theorem leaseOver_later (row : Render) (now : Int) :
    ∃ t, now ≤ t ∧ ∀ t', t ≤ t' → Store.leaseOver t' row = true := by
  cases hlease : row.lease with
  | none => exact ⟨now, Int.le_refl now, fun t' _ => by simp [Store.leaseOver, hlease]⟩
  | some lease =>
    refine ⟨max now lease.expiresAt, Int.le_max_left _ _, fun t' ht => ?_⟩
    simp only [Store.leaseOver, hlease, Option.all_some, decide_eq_true_eq]
    exact Int.le_trans (Int.le_max_right _ _) ht

/-- A render that is only a preview is not needed by jobs or approvals. -/
theorem Live.not_retained (h : m.Live) (hrow : row ∈ m.store.renders)
    (hpur : row.purpose = .preview) (t : Int) : m.store.retained t row.id = false := by
  have hother : ∀ id, (∃ other ∈ m.store.renders, other.id = id ∧ other.purpose = .printable) →
      id ≠ row.id := by
    rintro id ⟨other, hmem, hid, hprt⟩ rfl
    obtain rfl := inj_on_of_nodup_map h.unique hmem hrow hid
    exact Purpose.noConfusion (hpur.symm.trans hprt)
  rw [Store.retained, Bool.or_eq_false_iff, any_eq_false, any_eq_false]
  constructor
  · intro reference href
    simp [hother _ (h.references reference href)]
  · intro preview hprev
    simp [hother _ (h.previews preview hprev)]

/-- A worker can claim the render at a later time, or a clean-up can expire it. -/
theorem Live.taken_up (h : m.Live) (hrow : row ∈ m.store.renders)
    (hst : row.state = .registered ∨ row.state = .rendering) : ∃ t, m.store.now ≤ t ∧
      (Store.claimable t row = true ∨ m.store.expirable t row = true) := by
  obtain ⟨later, hnow, hover⟩ := leaseOver_later row m.store.now
  cases hpur : row.purpose with
  | printable =>
    refine ⟨max later row.availableAt, by omega, .inl ?_⟩
    have hatt := h.continues row hrow hpur hst
    have havailable : row.availableAt ≤ max later row.availableAt := Int.le_max_right _ _
    have hlease := hover _ (Int.le_max_left later row.availableAt)
    rcases hst with hst | hst <;>
      simp [Store.claimable, hst, havailable, hpur, hlease, hatt]
  | preview =>
    refine ⟨max later row.expiresAt, by omega, .inr ?_⟩
    have hexpires : row.expiresAt ≤ max later row.expiresAt := Int.le_max_right _ _
    have hlease := hover _ (Int.le_max_left later row.expiresAt)
    rcases hst with hst | hst <;>
      simp [Store.expirable, hst, hexpires, hpur, hlease, h.not_retained hrow hpur]

theorem Live.start (now : Int) : Live ⟨Store.empty now, [], []⟩ where
  continues := forall_mem_nil _
  leases := forall_mem_nil _
  works := forall_mem_nil _
  unique := nodup_nil
  references := forall_mem_nil _
  previews := forall_mem_nil _

/-- **No render is stranded**, whatever workers claim, complete, fail or never report, when no
printable render is claimed for its last attempt: one that is not done is claimed or expires at
some later time, if nothing else happens to it. -/
theorem renders_taken_up (now : Int) (ops : List Op)
    (hspare : Run.Meets Queue.step Spare ⟨Store.empty now, [], []⟩ ops) :
    ∀ row ∈ (Run.exec Queue.step ⟨Store.empty now, [], []⟩ ops).store.renders,
      row.state ∉ [RenderState.completed, .failedTerminal, .expiring, .expired] →
      ∃ t, (Run.exec Queue.step ⟨Store.empty now, [], []⟩ ops).store.now ≤ t ∧
        (Store.claimable t row = true ∨
          (Run.exec Queue.step ⟨Store.empty now, [], []⟩ ops).store.expirable t row = true) := by
  have hlive := hspare.invariant (fun _ _ h hC => Live.step h hC) (Live.start now)
  intro row hrow hst
  refine hlive.taken_up hrow ?_
  cases hs : row.state <;> simp [hs] at hst ⊢

/-- A render that is registered, claimed by a worker that dies, and claimed again. -/
def reclaimed : List Op :=
  [.register "render" .printable 0, .claim 10 60, .wait 60, .claim 10 60]

theorem renders_taken_up_reclaimed :
    ((Run.exec Queue.step ⟨Store.empty 0, [], []⟩ reclaimed).store.renders.map
        fun row => (row.state, row.attempt)) = [(.rendering, 2)] ∧
      ∀ row ∈ (Run.exec Queue.step ⟨Store.empty 0, [], []⟩ reclaimed).store.renders,
        row.state ∉ [RenderState.completed, .failedTerminal, .expiring, .expired] →
        ∃ t, (Run.exec Queue.step ⟨Store.empty 0, [], []⟩ reclaimed).store.now ≤ t ∧
          (Store.claimable t row = true ∨
            (Run.exec Queue.step ⟨Store.empty 0, [], []⟩ reclaimed).store.expirable t row = true) :=
  ⟨by decide +kernel, renders_taken_up 0 reclaimed (by decide +kernel)⟩

/-- A worker dies with each of the five attempts. -/
def abandoned : List Op :=
  [.register "render" .printable 0, .claim 10 60, .wait 60, .claim 10 60, .wait 60, .claim 10 60,
    .wait 60, .claim 10 60, .wait 60, .claim 10 60]

/-- The render is then rendering for ever. -/
theorem render_abandoned :
    ∃ row ∈ (Run.exec Queue.step ⟨Store.empty 0, [], []⟩ abandoned).store.renders,
      row.state = .rendering ∧ ∀ t, Store.claimable t row = false ∧
        (Run.exec Queue.step ⟨Store.empty 0, [], []⟩ abandoned).store.expirable t row = false := by
  have hrun : (Run.exec Queue.step ⟨.empty 0, [], []⟩ abandoned).store.renders =
      [⟨"render", .printable, .rendering, 5, 5, 0, 0, some ⟨4, 300⟩, 2592000, none⟩] := by
    decide +kernel
  rw [hrun]
  refine ⟨_, List.mem_singleton_self _, rfl, fun t => ⟨?_, ?_⟩⟩
  · simp [Store.claimable]
  · simp [Store.expirable]

end Queue

end Piqae.Server.Renders
