/-
Piqae/Guardian/Agreement.lean

What the memory of the guardian and its journal agree on.

An append that fails leaves the guardian in the state it was in, but for the
command of a request, which is put into the state before the copy is taken to
which the guardian goes back.
-/
import Piqae.Guardian.Intents

namespace Piqae.Guardian

open Machine

variable {V : Type} {size : GuardianState V → Nat} {w : World V} {file : JournalFile V}
  {state : GuardianState V} {now : Int}

/-! ### Memory and journal -/

/-- The state that the guardian began with. -/
def lastOpened : List (Event V) → Option (GuardianState V)
  | [] => none
  | .opened _ state :: _ => some state
  | _ :: trace => lastOpened trace

/-- An append fails, if it does, before it has written anything. -/
def Answer.FailsEarly (answer : Answer V) : Prop :=
  answer.fault = none ∨ answer.fault = some .early

/-- The guardian has the state that the journal ends with, or an initial one. -/
def Agrees (w : World V) : Prop :=
  w.file.records.getLast? = some w.state ∨
    w.file.records = [] ∧ ∃ release now, w.state = GuardianState.initial release now

/-- Without a journal the guardian has the state it began with. -/
def Began (w : World V) : Prop :=
  w.file.records = [] → lastOpened w.trace = some w.state

theorem schema_of_readRecords {records : List (GuardianState V)}
    {first latest : Option (GuardianState V)} (h : readRecords size first records = .ok latest) :
    ∀ state ∈ records, state.schemaVersion = stateSchemaVersion := by
  induction records generalizing first with
  | nil => nofun
  | cons head records ih =>
    simp only [readRecords] at h
    split_ifs at h
    split at h
    · cases h
    next hval =>
    have hhead : head.schemaVersion = stateSchemaVersion := by
      simp only [validateLoadedState] at hval
      split_ifs at hval with hschema
      exact not_not.mp hschema
    exact List.forall_mem_cons.mpr ⟨hhead, ih h⟩

theorem Readable.schema (h : Readable size file) :
    ∀ state ∈ file.records, state.schemaVersion = stateSchemaVersion := by
  unfold Readable readJournal at h
  split_ifs at h
  exact schema_of_readRecords h

/-- A later state of a guardian that agrees with its journal can be recorded. -/
theorem Agrees.validate (h : Agrees w) (hread : Readable size w.file)
    (hschema : state.schemaVersion = w.state.schemaVersion)
    (hseq : w.state.sequence < state.sequence)
    (hmeta : w.state.trustedMetadataVersion ≤ state.trustedMetadataVersion) :
    validateLoadedState state w.file.records.getLast? = .ok () := by
  have hver : state.schemaVersion = stateSchemaVersion := by
    rw [hschema]
    rcases h with hlatest | ⟨-, release, now, hinit⟩
    · exact hread.schema w.state (List.mem_of_getLast? hlatest)
    · rw [hinit]
      rfl
  rcases h with hlatest | ⟨hnone, -⟩
  · rw [hlatest, validateLoadedState, if_neg (not_not.mpr hver)]
    exact (if_neg (Nat.not_le.mpr hseq)).trans (if_neg (Nat.not_lt.mpr hmeta))
  · simp [validateLoadedState, hver, hnone]

/-- An append without a fault of the file system fails only for want of room. -/
theorem append_none (hread : Readable size file)
    (hval : validateLoadedState state file.records.getLast? = .ok ())
    (hsize : size state + 1 ≤ maxJournalRecordBytes) : append size none state file =
      if file.completeBytes size + (size state + 1) > maxJournalBytes then
        (.error .journalTooLarge, { file with torn := 0 })
      else (.ok (), ⟨file.records ++ [state], 0⟩) := by
  unfold append
  rw [hread]
  dsimp only
  rw [hval]
  rw [if_neg (Nat.not_lt.mpr hsize), if_neg nofun]

theorem transition_none {phase : GuardianPhase V} (hread : Readable size w.file)
    (hseq : w.state.sequence < u64Max)
    (hval : validateLoadedState (w.state.next phase now) w.file.records.getLast? = .ok ())
    (hfits : w.file.Fits size (w.state.next phase now)) : transition size phase now none w =
      (.ok (), { w.putState (w.state.next phase now) with
        file := ⟨w.file.records ++ [w.state.next phase now], 0⟩
        trace := .recorded (w.state.next phase now) true :: w.trace }) := by
  unfold transition
  dsimp only
  rw [if_neg (by omega), append_none hread hval hfits.1, if_neg (Nat.not_lt.mpr hfits.2)]

/-- A request that fits is accepted. -/
theorem Agrees.accept {command : UpdateCommand V} {activity : RuntimeActivity} (h : Agrees w)
    (hread : Readable size w.file) (hseq : w.state.sequence < u64Max)
    (hfits : w.file.Fits size (w.state.requested command activity.admission.blockedBy now)) :
    (accept size command activity now none w).1 = .ok () := by
  have hval : validateLoadedState
      (w.state.requested command activity.admission.blockedBy now) w.file.records.getLast? =
        .ok () :=
    h.validate hread rfl (Nat.lt_succ_self _) (Nat.le_refl _)
  have htr := transition_none (w := w.putState { w.state with command := some command })
    hread hseq hval hfits
  unfold Guardian.accept
  dsimp only at htr ⊢
  rw [htr]

variable [LinearOrder V]

/-- A request that passes its checks can be recorded, or is for the command that is
pending. -/
def Kept (size : GuardianState V → Nat) (m : Machine V) : Op V → Prop
  | .request command activity now (some answer) =>
    ∀ guardian ∈ m.running, command.validate = .ok () → Admits guardian.state command →
      answer.fault = none ∧ guardian.state.sequence < u64Max ∧
          m.file.Fits size
            (guardian.state.requested command activity.admission.blockedBy now) ∨
        guardian.state.command = some command
  | _ => True

theorem Agrees.move {w' : World V} {A : Answer V → Prop} (hearly : ∀ a, A a → a.FailsEarly)
    (h : Agrees w) (hbegan : Began w)
    (hmove : Move size A (fun state command => state.command = some command) w w') :
    Agrees w' ∧ Began w' := by
  have hlate : ∀ {answer : Answer V}, A answer → answer.fault ≠ some .unsynced := by
    intro answer ha hfault
    rcases hearly answer ha with hnone | hsome
    · rw [hnone] at hfault
      cases hfault
    · rw [hsome] at hfault
      cases hfault
  cases hmove with
  | unacknowledged _ ha hfault => exact absurd hfault (hlate ha)
  | unanswered _ _ ha hfault => exact absurd hfault (hlate ha)
  | @rejected command _ _ hpend =>
    -- the command that is left in the memory was there
    have hsame : { w.state with command := some command } = w.state := by rw [← hpend]
    rw [hsame]
    exact ⟨h, hbegan⟩
  | stay | refused | staged | activated | restored | healthy => exact ⟨h, hbegan⟩
  | _ => exact ⟨.inl List.getLast?_concat, fun hnone => absurd hnone (by simp)⟩

/-- **Memory equals the journal.**  If appends fail only before they write, and every
request that passes its checks is recorded or already pending, then the guardian has
the state that `load` would return, or its initial state if there is none. -/
theorem memory_equals_journal (size : GuardianState V → Nat) (ops : List (Op V))
    (h : Run.Meets (step size)
      (fun m op => (∀ answer ∈ op.answers, answer.FailsEarly) ∧ Kept size m op) initial ops) :
    ∀ guardian ∈ (run size ops).running,
      ∃ loaded, readJournal size (run size ops).file = .ok loaded ∧
        (loaded = some guardian.state ∨ loaded = none ∧
          lastOpened (run size ops).trace = some guardian.state ∧
            ∃ release now, guardian.state = GuardianState.initial release now) := by
  have hholds : (run size ops).Holds
      (fun w => (Agrees w ∧ Began w) ∧ Readable size w.file) fun file _ => Readable size file := by
    refine invariant (A := Answer.FailsEarly)
      (R := fun state command => state.command = some command) readable_nil
      (fun w hw => hw.2) ?_ (fun m op hop => hop.1) ?_ ?_ h
    · rintro m config release now - - hread state rfl
      refine ⟨⟨?_, fun _ => rfl⟩, hread⟩
      cases hlatest : m.file.records.getLast? with
      | some latest => exact .inl hlatest
      | none => exact .inr ⟨List.getLast?_eq_none_iff.mp hlatest, release, now, rfl⟩
    · intro m command activity now answer hop guardian hgd hI hval hadm hfails
      refine (hop.2 guardian hgd hval hadm).resolve_left ?_
      rintro ⟨hfault, hseq, hfits⟩
      rw [hfault] at hfails
      exact hfails (hI.1.1.accept hI.2 hseq hfits)
    · rintro A' hA' w w' ⟨⟨hagrees, hbegan⟩, hread⟩ hmove
      exact ⟨hagrees.move hA' hbegan hmove, hmove.readable hread⟩
  intro guardian hgd
  obtain ⟨⟨hagrees, hbegan⟩, hread⟩ := hholds.2 guardian hgd
  refine ⟨_, hread, ?_⟩
  rcases hagrees with hlatest | ⟨hnone, hinit⟩
  · exact .inl hlatest
  · exact .inr ⟨by rw [hnone]; rfl, hbegan hnone, hinit⟩

/-! ### A run -/

open Sample

instance (state : GuardianState V) (command : UpdateCommand V) :
    Decidable (Admits state command) :=
  decidable_of_iff (state.phase.isResting = true ∧
      state.installedRelease < command.candidate.release ∧
        state.trustedMetadataVersion < command.candidate.metadataVersion)
    ⟨fun h => ⟨h.1, h.2.1, h.2.2⟩, fun h => ⟨h.resting, h.release, h.metadata⟩⟩

instance (file : JournalFile V) (state : GuardianState V) : Decidable (file.Fits size state) :=
  inferInstanceAs (Decidable (_ ∧ _))

instance (answer : Answer V) : Decidable answer.FailsEarly :=
  inferInstanceAs (Decidable (_ ∨ _))

instance (m : Machine V) : DecidablePred (Kept size m)
  | .request _ _ _ (some _) => inferInstanceAs (Decidable (∀ guardian ∈ _, _ → _ → _))
  | .request _ _ _ none => isTrue trivial
  | .advance _ _ _ => isTrue trivial
  | .open _ _ _ => isTrue trivial

/-- The request is recorded, and the record of the next phase is not. -/
theorem memory_equals_journal_staging :
    let ops := requested answer ++ [.advance idle 2 [{ answer with fault := some .early }]]
    Run.Meets (.step lineBytes)
      (fun m op => (∀ answer ∈ op.answers, answer.FailsEarly) ∧ Kept lineBytes m op) initial ops ∧
    ∀ guardian ∈ (run lineBytes ops).running,
      ∃ loaded, readJournal lineBytes (run lineBytes ops).file = .ok loaded ∧
        (loaded = some guardian.state ∨ loaded = none ∧
          lastOpened (run lineBytes ops).trace = some guardian.state ∧
            ∃ release now, guardian.state = GuardianState.initial release now) := by
  have hmeets : Run.Meets (.step lineBytes)
      (fun m op => (∀ answer ∈ op.answers, answer.FailsEarly) ∧ Kept lineBytes m op)
      initial (requested answer ++ [.advance idle 2 [{ answer with fault := some .early }]]) := by
    decide +kernel
  exact ⟨hmeets, memory_equals_journal _ _ hmeets⟩

/-- A request whose append fails leaves its command in the memory; nothing was written. -/
theorem command_left_in_memory :
    let m := run lineBytes (requested { answer with fault := some .early })
    m.running.map (·.state.command) = some (some (command 2 7)) ∧
      readJournal lineBytes m.file = .ok none ∧ m.result = some (.error .io) := by
  decide +kernel

end Piqae.Guardian
