/-
Piqae/Queue/Reclaim.lean

Retiring the documents of terminal jobs (`claim_reclaimable_terminal_content`
and `mark_terminal_content_reclaimed` of `agent-storage`).

`jobs.content_sha256` refers to the row of a content file.  Retiring a file
rewrites the path of its jobs and not their digest, so the reference stays: the
row can be deleted only if no job at all has the digest.
-/
import Piqae.Queue.Store

namespace Piqae.Reclaim

open SortedMap

structure ContentFile where
  path : String
  verifiedUnixMs : Int
  reclaiming : Bool
deriving DecidableEq, Repr

structure ReclaimableContent where
  sha256 : String
  path : String
deriving DecidableEq, Repr

/-- The queue with its table of content files, by digest. -/
structure ContentStore where
  contentFiles : SortedMap String ContentFile
  jobs : SortedMap String LocalJob
deriving DecidableEq

def truthfulTerminal : List LocalState :=
  [.known .completedReported, .known .failedTerminal, .known .cancelled, .known .expired]

namespace ContentStore

variable (s : ContentStore) (sha256 path : String)

def uses (job : LocalJob) : Bool :=
  job.accepted.contentSha256 == sha256 && job.accepted.contentPath == path

/-- Does a job that is not truthfully terminal use the file? -/
def retained : Bool :=
  s.jobs.values.any fun job => uses sha256 path job && job.state ∉ truthfulTerminal

def claim (candidate : ReclaimableContent) : Option ContentStore :=
  (s.contentFiles.get? candidate.sha256).bind fun file =>
    if file.path = candidate.path ∧ file.reclaiming = false ∧
        s.retained candidate.sha256 candidate.path = false then
      some { s with contentFiles :=
        s.contentFiles.insert candidate.sha256 { file with reclaiming := true } }
    else none

def claimAll : List ReclaimableContent → ContentStore → List ReclaimableContent × ContentStore
  | [], s => ([], s)
  | candidate :: candidates, s =>
    match s.claim candidate with
    | some s => ((claimAll candidates s).1.cons candidate, (claimAll candidates s).2)
    | none => claimAll candidates s

def claimReclaimableTerminalContent (limit : Nat) : List ReclaimableContent × ContentStore :=
  let candidates := s.contentFiles.entries.filter fun entry =>
    !entry.2.reclaiming && !s.retained entry.1 entry.2.path
  claimAll (((candidates.insertionSort fun a b => a.2.verifiedUnixMs < b.2.verifiedUnixMs ∨
    a.2.verifiedUnixMs = b.2.verifiedUnixMs ∧ a.1 ≤ b.1).take (max 1 (min limit 256))).map
      fun entry => ⟨entry.1, entry.2.path⟩) s

def retirePaths : ContentStore :=
  { s with jobs := s.jobs.mapValues fun _ job =>
      if uses sha256 path job ∧ job.state ∈ truthfulTerminal then
        { job with accepted := { job.accepted with
          contentPath := "retired:" ++ job.accepted.contentSha256 } }
      else job }

/-- `DELETE FROM content_files`, with the foreign key of `jobs`. -/
def deleteFile : Except StorageError ContentStore :=
  if (s.contentFiles.get? sha256).any fun file => file.path == path && file.reclaiming then
    if s.jobs.values.any (·.accepted.contentSha256 == sha256) then .error .database
    else .ok { s with contentFiles := s.contentFiles.erase sha256 }
  else .ok s

def releaseClaim : ContentStore :=
  { s with contentFiles := s.contentFiles.modify sha256 fun file =>
      if file.path = path then { file with reclaiming := false } else file }

def markTerminalContentReclaimed : Except StorageError (Bool × ContentStore) :=
  if s.retained sha256 path then .ok (false, s.releaseClaim sha256 path)
  else ((s.retirePaths sha256 path).deleteFile sha256 path).map fun s => (true, s)

end ContentStore

variable {s t : ContentStore} {sha256 path : String}

open ContentStore

/-- The file is retired: its row is gone, exactly the terminal jobs that used it
have the new path, and the other jobs keep theirs and their files. -/
def Retires (sha256 path : String) (t : ContentStore) : Prop :=
  ∃ t', t.markTerminalContentReclaimed sha256 path = .ok (true, t') ∧
    t'.contentFiles.get? sha256 = none ∧
    t'.jobs = (t.retirePaths sha256 path).jobs ∧
    ∀ job ∈ t.jobs.values, job.state ∉ truthfulTerminal → job ∈ t'.jobs.values ∧
      t'.contentFiles.get? job.accepted.contentSha256 =
        t.contentFiles.get? job.accepted.contentSha256

/-- The rows of the claimed files are marked. -/
theorem claimAll_spec (candidates : List ReclaimableContent) (s : ContentStore) :
    (∀ sha256 file, s.contentFiles.get? sha256 = some file → file.reclaiming = true →
        (claimAll candidates s).2.contentFiles.get? sha256 = some file) ∧
      ∀ content ∈ (claimAll candidates s).1,
        ∃ file, (claimAll candidates s).2.contentFiles.get? content.sha256 = some file ∧
          file.path = content.path ∧ file.reclaiming = true := by
  induction candidates generalizing s with
  | nil => exact ⟨fun _ _ h _ => h, nofun⟩
  | cons candidate candidates ih =>
    unfold claimAll
    rcases hclaim : s.claim candidate with - | s'
    · exact ih s
    obtain ⟨hkept, hcl⟩ := ih s'
    obtain ⟨file, hfile, hguard⟩ := Option.bind_eq_some_iff.mp hclaim
    split_ifs at hguard with hfree
    cases hguard
    refine ⟨fun sha256 other hother hrecl => hkept sha256 other ?_ hrecl, ?_⟩
    · rw [get?_insert_ne, hother]
      rintro rfl
      rw [Option.some.inj (hfile.symm.trans hother), hrecl] at hfree
      exact absurd hfree.2.1 nofun
    · exact List.forall_mem_cons.mpr ⟨⟨_, hkept _ _ get?_insert_self rfl, hfree.1, rfl⟩, hcl⟩

/-- The foreign key decides about a claimed file that is not retained. -/
theorem markTerminalContentReclaimed_eq (hret : t.retained sha256 path = false)
    (hrow : (t.contentFiles.get? sha256).any
      (fun file => file.path == path && file.reclaiming) = true) :
    t.markTerminalContentReclaimed sha256 path =
      if t.jobs.values.any (·.accepted.contentSha256 == sha256) then .error .database
      else .ok (true, { t.retirePaths sha256 path with
        contentFiles := t.contentFiles.erase sha256 }) := by
  -- the digests are what they were when the row is deleted
  have hdigs : (t.retirePaths sha256 path).jobs.values.any (·.accepted.contentSha256 == sha256) =
      t.jobs.values.any (·.accepted.contentSha256 == sha256) := by
    simp only [retirePaths, values, mapValues, List.map_map, List.any_map]
    congr 1
    funext entry
    show ((if _ then _ else _ : LocalJob).accepted.contentSha256 == sha256) = _
    split <;> rfl
  rw [markTerminalContentReclaimed, hret, deleteFile, ← hdigs]
  simp only [show (t.retirePaths sha256 path).contentFiles = t.contentFiles from rfl, hrow,
    Bool.false_eq_true, if_false, if_true]
  split <;> rfl

/-- **Terminal content is retired** exactly if no job has its digest any more, whatever was
done to the jobs since the claim. -/
theorem content_retired_iff_unreferenced (s t : ContentStore) (limit : Nat)
    (content : ReclaimableContent)
    (hclaimed : content ∈ (s.claimReclaimableTerminalContent limit).1)
    (hsince : t.contentFiles.get? content.sha256 =
      (s.claimReclaimableTerminalContent limit).2.contentFiles.get? content.sha256) :
    Retires content.sha256 content.path t ↔
      ∀ job ∈ t.jobs.values, job.accepted.contentSha256 ≠ content.sha256 := by
  obtain ⟨file, hfile, hpath, hrecl⟩ := (claimAll_spec _ s).2 content hclaimed
  have hrow : (t.contentFiles.get? content.sha256).any
      (fun file => file.path == content.path && file.reclaiming) = true := by
    rw [hsince.trans hfile]
    simp [hpath, hrecl]
  constructor
  · rintro ⟨t', hok, -⟩ job hjob hsha
    rcases hret : t.retained content.sha256 content.path with - | -
    · rw [markTerminalContentReclaimed_eq hret hrow,
        if_pos (List.any_eq_true.mpr ⟨job, hjob, by simp [hsha]⟩)] at hok
      cases hok
    · -- the claim is released, and nothing is retired
      rw [markTerminalContentReclaimed, if_pos hret] at hok
      cases hok
  · intro hnone
    have hunref : ¬t.jobs.values.any (·.accepted.contentSha256 == content.sha256) := by
      simpa using hnone
    have hret : t.retained content.sha256 content.path = false := by
      simp only [retained, uses, List.any_eq_false, Bool.and_eq_true, beq_iff_eq]
      exact fun job hjob huses => hnone job hjob huses.1.1
    refine ⟨_, (markTerminalContentReclaimed_eq hret hrow).trans (if_neg hunref),
      get?_erase_self, rfl, ?_⟩
    intro job hjob hst
    refine ⟨?_, get?_erase_ne (hnone job hjob)⟩
    obtain ⟨jobId, hent⟩ := mem_values.mp hjob
    refine mem_values.mpr ⟨jobId, mem_mapValues.mpr ⟨job, hent, ?_⟩⟩
    rw [if_neg fun h => hst h.2]

namespace Sample

/-- A completed job and its document. -/
def completed : LocalJob where
  accepted := ⟨"job-1", "sub-1", "prn-1", "office", "Invoice", "digest", "/content/digest", .pdf,
    "\x7b\x7d", none, 0, false⟩
  pinned := ⟨none, none, none, none, none, none, none, none⟩
  routeConnectorId := none
  printerSequence := 1
  state := .known .completedReported
  nextAttemptUnixMs := none
  attemptCount := 0
  nativeJobId := some "native-1"

def document : ContentFile := ⟨"/content/digest", 0, false⟩

def store : ContentStore :=
  ⟨SortedMap.empty.insert "digest" document, SortedMap.empty.insert "job-1" completed⟩

/-- A document that no job ever used, and another one in use. -/
def unused : ContentStore where
  contentFiles := (SortedMap.empty.insert "digest" document).insert "other"
    ⟨"/content/other", 0, false⟩
  jobs := SortedMap.empty.insert "job-1" { completed with
    accepted := { completed.accepted with
      contentSha256 := "other", contentPath := "/content/other" }
    state := .known .printing }

end Sample

open Sample

theorem content_retired_iff_unreferenced_unused :
    Retires "digest" "/content/digest" (unused.claimReclaimableTerminalContent 256).2 :=
  (content_retired_iff_unreferenced unused _ 256 ⟨"digest", "/content/digest"⟩ (by decide +kernel)
    rfl).mpr (by decide +kernel)

/-- The document of one completed job is claimed and cannot be retired. -/
theorem content_not_retired :
    (store.claimReclaimableTerminalContent 256).1 = [⟨"digest", "/content/digest"⟩] ∧
      (store.claimReclaimableTerminalContent 256).2.markTerminalContentReclaimed "digest"
        "/content/digest" = .error .database := by
  decide +kernel

end Piqae.Reclaim
