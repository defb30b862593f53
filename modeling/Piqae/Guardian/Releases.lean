/-
Piqae/Guardian/Releases.lean

What the journal keeps of appends that are cut short, and the releases that the
guardian accepts.

`open` does not look at the release it is given when there is a journal, so that
the release a request is compared with is the one of the journal, which is older
than the installed one if that was installed by other means.
-/
import Piqae.Guardian.Agreement

namespace Piqae.Guardian

open Machine

variable {V : Type} {size : GuardianState V → Nat} {w : World V} {state : GuardianState V}
  {file : JournalFile V} {trace : List (Event V)}

/-! ### Torn writes -/

/-- The journal after appends that may each fail or be cut short by a crash. -/
def appended (size : GuardianState V → Nat)
    (calls : List (GuardianState V × Option IoFault)) : JournalFile V :=
  calls.foldl (fun file call => (append size call.2 call.1 file).2) ⟨[], 0⟩

theorem Appends.readable {fault : Option IoFault}
    {r : Except (GuardianError V) Unit × JournalFile V} (h : Appends size fault state file r)
    (hread : Readable size file) : Readable size r.2 := by
  cases h with
  | recorded hread' | unacknowledged _ hread' => exact hread'
  | refused _ htorn => exact htorn hread

namespace Sample

/-- The state of a sequence number. -/
def numbered (n : Nat) : GuardianState Nat := { GuardianState.initial 1 0 with sequence := n }

end Sample

open Sample

theorem sorted_of_readRecords {records : List (GuardianState V)}
    {first latest : Option (GuardianState V)} (h : readRecords size first records = .ok latest) :
    (∀ prior ∈ first, ∀ state ∈ records,
      prior.trustedMetadataVersion ≤ state.trustedMetadataVersion) ∧
    records.Pairwise fun state state' =>
      state.trustedMetadataVersion ≤ state'.trustedMetadataVersion := by
  induction records generalizing first with
  | nil => exact ⟨fun _ _ _ => nofun, .nil⟩
  | cons head records ih =>
    simp only [readRecords] at h
    split_ifs at h
    split at h
    · cases h
    next hval =>
    obtain ⟨hhead, hsort⟩ := ih h
    refine ⟨fun prior hprior state hst => ?_, .cons (hhead head rfl) hsort⟩
    have hle : prior.trustedMetadataVersion ≤ head.trustedMetadataVersion := by
      rw [Option.mem_def.mp hprior] at hval
      simp only [validateLoadedState] at hval
      split_ifs at hval
      omega
    rcases List.mem_cons.mp hst with rfl | hst
    · exact hle
    · exact Nat.le_trans hle (hhead head rfl state hst)

theorem Readable.sorted (h : Readable size file) :
    file.records.Pairwise fun state state' =>
      state.trustedMetadataVersion ≤ state'.trustedMetadataVersion := by
  unfold Readable readJournal at h
  split_ifs at h
  exact (sorted_of_readRecords h).2

/-- Does the record complete an update? -/
def GuardianState.Completes (state : GuardianState V) : Prop :=
  ∃ slot rollback, state.phase = .completed slot rollback

theorem Leads.not_completed {phase : GuardianPhase V} {slot rollback : RuntimeSlot V} :
    ¬ Leads trace phase (.completed slot rollback) := nofun

theorem Follows.completes (h : Follows w state) :
    state.Completes → ∀ done ∈ state.command,
      done.candidate.metadataVersion = state.trustedMetadataVersion := by
  rintro ⟨slot, rollback, hph⟩ done hdone
  cases h with
  | completed _ hcmd _ =>
    cases hcmd.symm.trans hdone
    rfl
  | @moved phase now hleads =>
    rw [show phase = .completed slot rollback from hph] at hleads
    exact absurd hleads Leads.not_completed

/-! ### Installed releases -/

/-- The release that is installed: the one given to the last `open`, or that of an
update completed since. -/
def installed : List (Event V) → Option V
  | [] => none
  | .opened release _ :: _ => some release
  | .recorded state true :: trace =>
    match state.phase with
    | .completed slot _ => some slot.version
    | _ => installed trace
  | _ :: trace => installed trace

variable [LinearOrder V]

/-- A request is accepted only for a release newer than the installed one, with
metadata newer than that of every completed update. -/
def Upgrades (trace : List (Event V)) : Event V → Prop
  | .accepted command => (∀ release ∈ installed trace, release < command.candidate.release) ∧
      ∀ state ∈ recorded trace, state.Completes → ∀ done ∈ state.command,
        done.candidate.metadataVersion < command.candidate.metadataVersion
  | _ => True

/-- `open` on a journal is given a release no newer than the recorded one. -/
def Known (m : Machine V) : Op V → Prop
  | .open _ release _ => ∀ latest ∈ m.file.records.getLast?, release ≤ latest.installedRelease
  | _ => True

/-- What holds of the file and the trace. -/
structure Dated (size : GuardianState V → Nat) (file : JournalFile V) (trace : List (Event V)) :
    Prop where
  readable : Readable size file
  every : Every Upgrades trace
  records : file.records = (recorded trace).reverse
  /-- A completed update is trusted with the metadata of its command. -/
  completed : ∀ state ∈ file.records, state.Completes → ∀ done ∈ state.command,
    done.candidate.metadataVersion = state.trustedMetadataVersion

structure UpToDate (size : GuardianState V → Nat) (w : World V) : Prop
    extends Dated size w.file w.trace where
  release : ∀ release ∈ installed w.trace, release ≤ w.state.installedRelease

theorem Dated.record (h : Dated size file trace)
    (hread : Readable size ⟨file.records ++ [state], 0⟩)
    (hdone : state.Completes → ∀ done ∈ state.command,
      done.candidate.metadataVersion = state.trustedMetadataVersion) (acknowledged : Bool) :
    Dated size ⟨file.records ++ [state], 0⟩ (.recorded state acknowledged :: trace) where
  readable := hread
  every := ⟨trivial, h.every⟩
  records := by
    show file.records ++ [state] = (state :: recorded trace).reverse
    rw [h.records, List.reverse_cons]
  completed := forall_mem_concat h.completed hdone

/-- An event that records nothing. -/
theorem UpToDate.note {event : Event V} (h : UpToDate size w) (hupgrades : Upgrades w.trace event)
    (hrec : recorded (event :: w.trace) = recorded w.trace)
    (hinstalled : installed (event :: w.trace) = installed w.trace) :
    UpToDate size (w.note event) where
  readable := h.readable
  every := ⟨hupgrades, h.every⟩
  records := h.records.trans (congrArg List.reverse hrec.symm)
  completed := h.completed
  release release hrel := h.release release (hinstalled ▸ hrel)

theorem Follows.release (h : Follows w state)
    (hw : ∀ release ∈ installed w.trace, release ≤ w.state.installedRelease) :
    ∀ release ∈ installed (.recorded state true :: w.trace), release ≤ state.installedRelease := by
  intro release hrel
  cases h with
  | completed =>
    cases hrel
    exact le_refl _
  | @moved phase now hleads =>
    refine hw release ?_
    cases phase with
    | completed => exact absurd hleads Leads.not_completed
    | _ => exact hrel

theorem UpToDate.move {w' : World V} {A : Answer V → Prop}
    {R : GuardianState V → UpdateCommand V → Prop} (h : UpToDate size w)
    (hmove : Move size A R w w') : UpToDate size w' := by
  cases hmove with
  | stay => exact h
  | refused hkeep => exact ⟨⟨hkeep h.readable, h.every, h.records, h.completed⟩, h.release⟩
  | rejected _ _ hkeep => exact ⟨⟨hkeep h.readable, h.every, h.records, h.completed⟩, h.release⟩
  | staged | activated | restored | healthy => exact h.note trivial rfl rfl
  | recorded hfol hread =>
    exact ⟨h.record hread hfol.completes true, hfol.release h.release⟩
  | unacknowledged hfol _ _ hread =>
    exact ⟨h.record hread hfol.completes false, h.release⟩
  | unanswered _ _ _ _ hread => exact ⟨h.record hread nofun false, h.release⟩
  | @accepted command b now hadm hread =>
    have hrec := h.record hread nofun true
    refine ⟨⟨hread, ⟨⟨fun release hrel => ?_, ?_⟩, hrec.every⟩, hrec.records,
      hrec.completed⟩, h.release⟩
    · exact lt_of_le_of_lt (h.release release hrel) hadm.release
    · -- the records are trusted with no more than the request is compared with
      intro state hst hcompletes done hdone
      have hmem := List.mem_reverse.mpr hst
      rw [← hrec.records] at hmem
      rw [hrec.completed state hmem hcompletes done hdone]
      refine Nat.lt_of_le_of_lt ?_ hadm.metadata
      rcases List.mem_append.mp hmem with hold | hnew
      · exact (List.pairwise_append.mp hread.sorted).2.2 state hold
          (w.state.requested command b now) (List.mem_singleton.mpr rfl)
      · rw [List.mem_singleton.mp hnew]
        exact Nat.le_refl _

/-- **No downgrade.**  If no `open` on a journal is given a release newer than the
recorded one, then a request is accepted only for a release newer than the installed
one, with metadata newer than that of every completed update; and the records trust
no older metadata than the ones before them. -/
theorem no_downgrade (size : GuardianState V → Nat) (ops : List (Op V))
    (h : Run.Meets (step size) Known initial ops) :
    Every Upgrades (run size ops).trace ∧
      (run size ops).file.records = (recorded (run size ops).trace).reverse ∧
      (run size ops).file.records.Pairwise fun state state' =>
        state.trustedMetadataVersion ≤ state'.trustedMetadataVersion := by
  have hholds : (run size ops).Holds (UpToDate size) (Dated size) := by
    refine invariant (A := fun _ => True) (R := fun _ _ => True)
      ⟨readable_nil, trivial, rfl, nofun⟩ (fun w hw => hw.toDated) ?_ (fun _ _ _ _ _ => trivial)
      (fun _ _ _ _ _ _ _ _ _ _ _ _ => trivial) (fun _ _ w w' hw hmove => hw.move hmove) h
    rintro m config release now hknown - hm state rfl
    refine ⟨⟨hm.readable, ⟨trivial, hm.every⟩, hm.records, hm.completed⟩, fun given hgiven => ?_⟩
    cases hgiven
    show release ≤ (m.file.records.getLast?.getD _).installedRelease
    cases hlatest : m.file.records.getLast? with
    | none => exact le_refl _
    | some latest => exact hknown latest hlatest
  exact ⟨hholds.1.every, hholds.1.records, hholds.1.readable.sorted⟩

instance (m : Machine V) : DecidablePred (Known m)
  | .open _ _ _ => inferInstanceAs (Decidable (∀ latest ∈ _, _))
  | .request _ _ _ _ => isTrue trivial
  | .advance _ _ _ => isTrue trivial

/-- An update from release 1 to release 2, and one to release 3 after a restart. -/
theorem no_downgrade_restarted :
    let ops := requested answer ++
      [.advance idle 2 (.replicate 3 answer),
        .advance idle 3 (.replicate 3 answer),
        .advance idle 4 (.replicate 2 answer), .open config 2 5,
        .request (command 3 8) idle 6 (some answer)]
    (Run.Meets (step lineBytes) Known initial ops ∧
      (run lineBytes ops).trace.head? = some (.accepted (command 3 8))) ∧
    Every Upgrades (run lineBytes ops).trace ∧
      (run lineBytes ops).file.records =
        (recorded (run lineBytes ops).trace).reverse ∧
      (run lineBytes ops).file.records.Pairwise fun state state' =>
        state.trustedMetadataVersion ≤ state'.trustedMetadataVersion := by
  intro ops
  have hmeets : Run.Meets (step lineBytes) Known initial ops ∧
      (run lineBytes ops).trace.head? = some (.accepted (command 3 8)) := by
    decide +kernel
  exact ⟨hmeets, no_downgrade _ _ hmeets.1⟩

/-- The journal has release 1 when release 5 is found installed, and an update to
release 3 is accepted. -/
theorem downgrade_after_install :
    let m := run lineBytes (requested answer ++
      [.advance idle 2 [answer, { answer with stage := .error "disk full" },
          answer], .open config 5 3,
        .request (command 3 8) idle 4 (some answer)])
    m.trace.head? = some (.accepted (command 3 8)) ∧ installed m.trace = some 5 := by
  decide +kernel

/-! ### What the journal holds -/

/-- The file reads as the records that were completely written. -/
def Faithful (size : GuardianState V → Nat) (file : JournalFile V) (trace : List (Event V)) :
    Prop :=
  Readable size file ∧ file.records = (recorded trace).reverse

theorem Faithful.move {w' : World V} {A : Answer V → Prop}
    {R : GuardianState V → UpdateCommand V → Prop} (h : Faithful size w.file w.trace)
    (hmove : Move size A R w w') : Faithful size w'.file w'.trace := by
  refine ⟨hmove.readable h.1, ?_⟩
  cases hmove with
  | stay | refused | rejected | staged | activated | restored | healthy => exact h.2
  | recorded | unacknowledged | accepted | unanswered =>
    -- one record more, in the file and in the trace
    simp only [h.2]
    exact List.reverse_cons.symm

end Piqae.Guardian
