/-
Piqae/Guardian/Limits.lean

The limits of the journal.

The journal is only ever appended to, and every call in `AwaitingIdle` that may
not begin appends a record, so that waiting long enough makes every later append
fail.  A call appends at most two records.  As long as the journal has room for
two of the largest size before each call, and the texts that the records are
made of are short enough for one record, no call fails at the limits.
-/
import Piqae.Guardian.Health

namespace Piqae.Guardian

open List Machine

variable {V : Type} {size : GuardianState V → Nat}

/-! ### Short texts -/

/-- The releases, commands and plans whose texts are short. -/
structure Bounds (V : Type) where
  release : V → Prop
  command : UpdateCommand V → Prop
  plan : RuntimePlan V → Prop
  staged : ∀ p, plan p → release p.staged.version

def GuardianPhase.Within (B : Bounds V) : GuardianPhase V → Prop
  | .idle | .awaitingIdle _ | .staging => True
  | .staged plan | .activating plan | .healthChecking plan _ _ _ => B.plan plan
  | .rollingBack plan cause => B.plan plan ∧ cause.length ≤ 512
  | .completed installed rollback => B.plan ⟨installed, rollback⟩
  | .rolledBack restored failedRelease cause =>
    (∃ plan, B.plan plan ∧ restored = plan.previous ∧ failedRelease = plan.staged.version) ∧
      cause.length ≤ 512
  | .failed code detail => code.length ≤ 32 ∧ detail.length ≤ 512

/-- The state is made of short texts. -/
structure GuardianState.Within (B : Bounds V) (state : GuardianState V) : Prop where
  release : B.release state.installedRelease
  command : ∀ command ∈ state.command, B.command command
  phase : state.phase.Within B

/-- The encoding of a state of short texts is short enough for a record. -/
def Encodes (B : Bounds V) (size : GuardianState V → Nat) : Prop :=
  ∀ state : GuardianState V, state.Within B → size state + 1 ≤ maxJournalRecordBytes

theorem length_boundedDetail (detail : String) : (boundedDetail detail).length ≤ 512 := by
  rw [boundedDetail, prefixText, String.length_ofList, length_take]
  exact Nat.min_le_left 512 detail.toList.length

/-! ### Room -/

/-- The journal has room for `n` records of the largest size. -/
def JournalFile.Room (size : GuardianState V → Nat) (n : Nat) (file : JournalFile V) : Prop :=
  file.completeBytes size + n * maxJournalRecordBytes ≤ maxJournalBytes

instance (n : Nat) (file : JournalFile V) : Decidable (file.Room size n) :=
  inferInstanceAs (Decidable (_ ≤ _))

structure Sound (B : Bounds V) (size : GuardianState V → Nat) (w : World V) : Prop where
  agrees : Agrees w
  readable : Readable size w.file
  within : w.state.Within B
  pending : Pending w.state
  sequence : w.state.sequence = w.file.records.length

variable {B : Bounds V} {n : Nat} {w : World V} {state : GuardianState V} {file : JournalFile V}
  {phase : GuardianPhase V}

theorem length_le_completeBytes (size : GuardianState V → Nat) (file : JournalFile V) :
    file.records.length ≤ file.completeBytes size := by
  unfold JournalFile.completeBytes
  induction file.records with
  | nil => exact Nat.le_refl 0
  | cons head records ih =>
    rw [length_cons, map_cons, sum_cons]
    omega

theorem Readable.length_le (h : Readable size file) : file.records.length ≤ maxJournalBytes := by
  have hlen := length_le_completeBytes size file
  unfold Readable readJournal at h
  split_ifs at h
  omega

theorem Sound.sequence_lt (h : Sound B size w) : w.state.sequence < u64Max := by
  rw [h.sequence]
  exact Nat.lt_of_le_of_lt h.readable.length_le (by decide)

/-- A transition that does not fit fails at the limit of the journal. -/
theorem Sound.transition_full (now : Int) (h : Sound B size w) (henc : Encodes B size)
    (hph : phase.Within B) (hfull : ¬ w.file.Fits size (w.state.next phase now)) :
    (transition size phase now none w).1 = .error .journalTooLarge := by
  have hval : validateLoadedState (w.state.next phase now) w.file.records.getLast? = .ok () :=
    h.agrees.validate h.readable rfl (Nat.lt_succ_self _) (Nat.le_refl _)
  have hsize := henc (w.state.next phase now) ⟨h.within.release, h.within.command, hph⟩
  have htotal := Nat.not_le.mp fun htotal => hfull ⟨hsize, htotal⟩
  unfold transition
  dsimp only
  rw [if_neg (Nat.not_lt.mpr h.sequence_lt), append_none h.readable hval hsize, if_pos htotal]

/-- The world after an append is sound again. -/
theorem Sound.appended (h : Sound B size w) (hfits : w.file.Fits size state)
    (hst : state.Within B) (hpend : Pending state)
    (hval : validateLoadedState state w.file.records.getLast? = .ok ())
    (hseq : state.sequence = w.state.sequence + 1) (trace : List (Event V)) :
    Sound B size ⟨⟨w.file.records ++ [state], 0⟩, ⟨w.guardian.config, state⟩, trace⟩ := by
  refine ⟨.inl List.getLast?_concat, readable_concat h.readable hval hfits.1 hfits.2, hst,
    hpend, ?_⟩
  show state.sequence = (w.file.records ++ [state]).length
  rw [hseq, h.sequence, length_append, length_singleton]

/-- There is room for one record, and for one fewer after it. -/
theorem JournalFile.Room.append (h : file.Room size (n + 1)) (henc : Encodes B size)
    (hst : state.Within B) :
    file.Fits size state ∧ JournalFile.Room size n ⟨file.records ++ [state], 0⟩ := by
  have hsize := henc state hst
  rw [JournalFile.Room, Nat.add_mul, Nat.one_mul] at h
  refine ⟨⟨hsize, by omega⟩, ?_⟩
  unfold JournalFile.Room
  unfold JournalFile.completeBytes at h ⊢
  rw [map_append, sum_append, map_singleton, sum_singleton]
  omega

/-! ### Calls within the limits -/

/-- An answer without a fault, with a plan of short texts. -/
structure Answer.Short (B : Bounds V) (answer : Answer V) : Prop where
  fault : answer.fault = none
  plan : ∀ plan, answer.stage = .ok plan → B.plan plan

/-- Is it one of the limits? -/
def GuardianError.isLimit : GuardianError V → Bool
  | journalTooLarge | journalRecordTooLarge => true
  | _ => false

/-- A program with at most `n` appends does not fail at the limits. -/
structure Fitting {α : Type} (B : Bounds V) (size : GuardianState V → Nat) (n : Nat)
    (P : World V → Prop) (p : Prog V α) (k : Nat) (Q : α → World V → Prop) : Prop where
  triple : Process.Triple (.exclusive (Sound B size) fun _ answer _ => answer.Short B)
    (fun w => w.file.Room size n ∧ P w) p (fun a w => w.file.Room size k ∧ Q a w)
    fun error _ => error.isLimit = false

variable {α β : Type} {P : World V → Prop} {k : Nat} {p : Prog V α} {Q : α → World V → Prop}
  {now : Int}

theorem JournalFile.Room.weaken (h : file.Room size n) (hk : k ≤ n) : file.Room size k :=
  Nat.le_trans (Nat.add_le_add_left (Nat.mul_le_mul_right _ hk) _) h

theorem Fitting.bind {f : α → Prog V β} {R : α → World V → Prop} {m : Nat}
    {Q : β → World V → Prop} (hp : Fitting B size n P p m R)
    (hf : ∀ a, Fitting B size m (R a) (f a) k Q) : Fitting B size n P (p.bind f) k Q :=
  ⟨hp.triple.bind fun a => (hf a).triple⟩

/-- What the assertion says of the inputs may be used for the program. -/
theorem fitting_pure {fact : Prop} (hfact : ∀ w, P w → fact) (h : fact → Fitting B size n P p k Q) :
    Fitting B size n P p k Q :=
  ⟨fun w hsound hw => (h (hfact w hw.2)).triple w hsound hw⟩

theorem fitting_done : Fitting B size n P (.done ()) 0 fun _ _ => True :=
  ⟨.done fun _ _ hw => ⟨hw.1.weaken (Nat.zero_le n), trivial⟩⟩

theorem fitting_fail {error : GuardianError V} (h : error.isLimit = false) :
    Fitting B size n P (.fail error) k Q :=
  ⟨.fail fun _ _ _ => h⟩

theorem fitting_platform {f : Answer V → α} {event : Answer V → Option (Event V)}
    (h : ∀ answer w, answer.Short B → P w →
      Q (f answer) ((event answer).elim w w.note)) : Fitting B size n P (platform f event) n Q := by
  refine ⟨.atomic_alone ?_⟩
  rintro w answer hsound ⟨hroom, hw⟩ hshort
  refine ⟨?_, ?_, h answer w hshort hw⟩
  · cases event answer with
    | none => exact hsound
    | some event => exact { hsound with }
  · cases event answer <;> exact hroom

theorem fitting_record {f : Option IoFault → World V → Except (GuardianError V) Unit × World V}
    {Q : World V → Prop} (h : ∀ w, Sound B size w → w.file.Room size (n + 1) → P w →
      Sound B size (f none w).2 ∧
        ((f none w).1 = .ok () ∧ (f none w).2.file.Room size n ∧ Q (f none w).2 ∨
          ∃ error, (f none w).1 = .error error ∧ error.isLimit = false)) :
    Fitting B size (n + 1) P (record f) n fun _ => Q := by
  refine ⟨.fallible_alone ?_⟩
  rintro w answer hsound ⟨hroom, hw⟩ hshort
  rw [hshort.fault]
  obtain ⟨hsound', ⟨hok, hdone⟩ | ⟨error, herr, hlimit⟩⟩ := h w hsound hroom hw
  · refine ⟨hsound', fun _ _ => hdone, fun error herr => ?_⟩
    rw [hok] at herr
    cases herr
  · refine ⟨hsound', fun _ hok => ?_, fun error' herr' => ?_⟩
    · rw [herr] at hok
      cases hok
    · rw [herr] at herr'
      cases herr'
      exact hlimit

theorem Sound.transition_ok (now : Int) (h : Sound B size w)
    (hfits : w.file.Fits size (w.state.next phase now))
    (hleads : Leads w.trace w.state.phase phase) (hph : phase.Within B) :
    transition size phase now none w =
        (.ok (), { w.putState (w.state.next phase now) with
          file := ⟨w.file.records ++ [w.state.next phase now], 0⟩
          trace := .recorded (w.state.next phase now) true :: w.trace }) ∧
      Sound B size (transition size phase now none w).2 := by
  have hval : validateLoadedState (w.state.next phase now) w.file.records.getLast? = .ok () :=
    h.agrees.validate h.readable rfl (Nat.lt_succ_self _) (Nat.le_refl _)
  rw [transition_none h.readable h.sequence_lt hval hfits]
  exact ⟨rfl, h.appended hfits ⟨h.within.release, h.within.command, hph⟩
    (Follows.pending (.moved hleads) h.pending) hval rfl _⟩

/-- With room for it, a transition is recorded. -/
theorem Sound.recorded (now : Int) (h : Sound B size w) (henc : Encodes B size)
    (hroom : w.file.Room size (n + 1)) (hleads : Leads w.trace w.state.phase phase)
    (hph : phase.Within B) :
    Sound B size (transition size phase now none w).2 ∧
      (transition size phase now none w).1 = .ok () ∧
        (transition size phase now none w).2.file.Room size n ∧
          (transition size phase now none w).2.state.phase = phase := by
  have hwin : (w.state.next phase now).Within B := ⟨h.within.release, h.within.command, hph⟩
  obtain ⟨hfits, hroom'⟩ := hroom.append henc hwin
  obtain ⟨htr, hsound'⟩ := h.transition_ok now hfits hleads hph
  rw [htr] at hsound' ⊢
  exact ⟨hsound', rfl, hroom', rfl⟩

theorem fitting_transition (henc : Encodes B size)
    (h : ∀ w, P w → Leads w.trace w.state.phase phase) (hph : phase.Within B) :
    Fitting B size (n + 1) P (record (transition size phase now)) n
      fun _ w => w.state.phase = phase := by
  apply fitting_record
  intro w hsound hroom hw
  obtain ⟨hsound', hdone⟩ := hsound.recorded now henc hroom (h w hw) hph
  exact ⟨hsound', .inl hdone⟩

theorem fitting_beginHealth {plan : RuntimePlan V} (henc : Encodes B size)
    (hplan : B.plan plan) :
    Fitting B size (n + 1) (fun w => w.state.phase = .activating plan)
      (record (beginHealth size plan now)) n fun _ _ => True := by
  apply fitting_record
  intro w hsound hroom hph
  unfold beginHealth
  dsimp only
  split_ifs
  · exact ⟨hsound, .inr ⟨_, rfl, rfl⟩⟩
  · obtain ⟨hsound', hok, hroom', -⟩ :=
      hsound.recorded now henc hroom (show Leads w.trace w.state.phase (.healthChecking plan
        now (now + w.guardian.config.healthTimeoutMs) 0) from hph ▸ .beginHealth) hplan
    exact ⟨hsound', .inl ⟨hok, hroom', trivial⟩⟩

theorem fitting_complete {plan : RuntimePlan V} {command : UpdateCommand V}
    (henc : Encodes B size) (hplan : B.plan plan) :
    Fitting B size (n + 1)
      (fun w => w.state.command = some command ∧ w.state.phase.isResting = false)
      (record (complete size plan command.candidate.metadataVersion now)) n fun _ _ => True := by
  apply fitting_record
  rintro w hsound hroom ⟨hcmd, hph⟩
  obtain ⟨command', hcmd', hmeta⟩ := hsound.pending hph
  cases hcmd.symm.trans hcmd'
  let done : GuardianState V := { w.state with
    installedRelease := plan.staged.version
    trustedMetadataVersion := command.candidate.metadataVersion }
  have hwin : (done.next (.completed plan.staged plan.previous) now).Within B :=
    ⟨B.staged plan hplan, hsound.within.command, hplan⟩
  have hval : validateLoadedState (done.next (.completed plan.staged plan.previous) now)
      w.file.records.getLast? = .ok () :=
    hsound.agrees.validate hsound.readable rfl (Nat.lt_succ_self _) (Nat.le_of_lt hmeta)
  obtain ⟨hfits, hroom'⟩ := hroom.append henc hwin
  have htr :=
    transition_none (w := w.putState done) hsound.readable hsound.sequence_lt hval hfits
  have hsound' := hsound.appended hfits hwin nofun hval rfl
    (.recorded (done.next (.completed plan.staged plan.previous) now) true :: w.trace)
  unfold complete
  dsimp only
  rw [htr]
  exact ⟨hsound', .inl ⟨rfl, hroom', trivial⟩⟩

theorem Fitting.weaken {P' : World V → Prop} {m : Nat} (h : Fitting B size n P p k Q) (hm : n ≤ m)
    (hP : ∀ w, P' w → P w) : Fitting B size m P' p 0 fun _ _ => True :=
  ⟨h.triple.consequence (fun w _ hw => ⟨hw.1.weaken hm, hP w hw.2⟩)
    (fun _ _ _ hw => ⟨hw.1.weaken (Nat.zero_le k), trivial⟩) fun _ _ _ herr => herr⟩

/-- A transition that ends the call. -/
theorem fitting_last (henc : Encodes B size) (hn : 1 ≤ n) (hph : phase.Within B)
    (h : ∀ w, P w → Leads w.trace w.state.phase phase) :
    Fitting B size n P (record (transition size phase now)) 0 fun _ _ => True :=
  (fitting_transition (n := 0) henc h hph).weaken hn fun _ hw => hw

theorem fitting_activate {plan : RuntimePlan V} {activity : RuntimeActivity} {message : String}
    (henc : Encodes B size) (hplan : B.plan plan) :
    Fitting B size 1 (fun w => w.state.phase = .activating plan)
      ((activate plan activity).bind (afterActivate size plan message now)) 0 fun _ _ => True := by
  refine .bind (fitting_platform (Q := fun _ w => w.state.phase = .activating plan)
    fun answer w _ hph => hph) fun result => ?_
  cases result with
  | ok => exact fitting_beginHealth henc hplan
  | error detail =>
    exact fitting_last henc (Nat.le_refl 1) ⟨hplan, length_boundedDetail _⟩
      fun w hph => hph ▸ .giveUp

/-- What holds of the file. -/
def Tidy (B : Bounds V) (size : GuardianState V → Nat) (file : JournalFile V) : Prop :=
  Readable size file ∧ ∀ state ∈ file.records.getLast?, state.Within B ∧ Pending state ∧
    state.sequence = file.records.length

theorem Sound.tidy (h : Sound B size w) : Tidy B size w.file := by
  refine ⟨h.readable, fun state hst => ?_⟩
  rcases h.agrees with hlatest | ⟨hnone, -⟩
  · cases hlatest.symm.trans hst
    exact ⟨h.within, h.pending, h.sequence⟩
  · rw [hnone] at hst
    cases hst

/-- What a program leaves that runs alone. -/
theorem Fitting.run {p : Prog V Unit} {Q : Unit → World V → Prop} (h : Fitting B size n P p k Q)
    (answers : List (Answer V)) (hsound : Sound B size w) (hroom : w.file.Room size n) (hw : P w)
    (hshort : ∀ answer ∈ answers, answer.Short B) :
    Sound B size (p.run answers w).2 ∧
      ((p.run answers w).1 = some (.ok ()) → Q () (p.run answers w).2) ∧
        ∀ error, (p.run answers w).1 = some (.error error) → error.isLimit = false := by
  obtain ⟨⟨hsound', -⟩, hdone, herr⟩ := (h.triple w hsound ⟨hroom, hw⟩).run answers hsound
    fun answer hans _ _ => hshort answer hans
  exact ⟨hsound', fun hok => (hdone () hok).2, herr⟩

/-- A call keeps the guardian sound and does not fail at the limits. -/
theorem call_sound {m : Machine V} {program : UpdateGuardian V → Prog V Unit}
    {answers : List (Answer V)} (hm : m.Holds (Sound B size) fun file _ => Tidy B size file)
    (hres : ∀ error, m.result = some (.error error) → error.isLimit = false)
    (hroom : m.file.Room size 2) (hshort : ∀ answer ∈ answers, answer.Short B)
    (hprog : ∀ guardian ∈ m.running, Fitting B size 2 (fun w => w.state = guardian.state)
      (program guardian) 0 fun _ _ => True) :
    (m.call program answers).Holds (Sound B size) (fun file _ => Tidy B size file) ∧
      ∀ error, (m.call program answers).result = some (.error error) → error.isLimit = false := by
  unfold call
  cases hrun : m.running with
  | none => exact ⟨hm, hres⟩
  | some guardian =>
    have hsound := hm.2 guardian hrun
    obtain ⟨hsound', -, herr⟩ := (hprog guardian hrun).run answers hsound hroom rfl hshort
    refine ⟨⟨hsound'.tidy, fun guardian' hgd' => ?_⟩, herr⟩
    obtain ⟨-, -, rfl⟩ := Option.map_eq_some_iff.mp hgd'
    exact hsound'

variable [LinearOrder V]

theorem fitting_advance (henc : Encodes B size) (config : GuardianConfig)
    (hst : state.Within B) (activity : RuntimeActivity) (now : Int) :
    Fitting B size 2 (fun w => w.state = state) (advance size config state activity now) 0
      fun _ _ => True := by
  have hwin := hst.phase
  unfold advance
  split
  case h_1 b hph =>
    split
    · exact fitting_last henc (by decide) trivial fun w hw => phase_eq hw hph ▸ .wait
    · refine .bind (fitting_transition henc (fun w hw => phase_eq hw hph ▸ .stage) trivial)
        fun _ => ?_
      split
      · exact fitting_fail rfl
      next command _ =>
      refine .bind (fitting_platform (Q := fun result w =>
          (∀ plan, result = .ok plan → B.plan plan) ∧ w.state.phase = .staging)
        fun answer w hshort hph => ⟨hshort.plan, hph⟩) fun result => ?_
      split
      next plan =>
        split_ifs
        · refine fitting_pure (fun w hw => hw.1 plan rfl) fun hplan => ?_
          exact fitting_last henc (Nat.le_refl 1) hplan fun w hw => hw.2 ▸ .staged
        · exact fitting_last henc (Nat.le_refl 1) ⟨by decide, length_boundedDetail _⟩
            fun w hw => hw.2 ▸ .stageFailed
      · exact fitting_last henc (Nat.le_refl 1) ⟨by decide, length_boundedDetail _⟩
          fun w hw => hw.2 ▸ .stageFailed
  case h_2 hph =>
    exact fitting_last henc (by decide) ⟨by decide, length_boundedDetail _⟩
      fun w hw => phase_eq hw hph ▸ .stageFailed
  case h_3 plan hph =>
    rw [hph] at hwin
    split_ifs
    · exact fitting_done
    exact .bind (fitting_transition henc (fun w hw => phase_eq hw hph ▸ .activate) hwin)
      fun _ => fitting_activate henc hwin
  case h_4 plan hph =>
    rw [hph] at hwin
    refine .bind (fitting_platform (Q := fun _ w => w.state.phase = .activating plan)
      fun answer w _ hw => phase_eq hw hph) fun result => ?_
    split
    · exact fitting_fail rfl
    · exact (fitting_beginHealth (n := 0) henc hwin).weaken (by decide) fun _ hw => hw
    · split_ifs
      · exact fitting_done
      · exact (fitting_activate henc hwin).weaken (by decide) fun _ hw => hw
    · exact fitting_last henc (by decide) ⟨hwin, length_boundedDetail _⟩
        fun w hw => hw ▸ .giveUp
  case h_5 hph =>
    rw [hph] at hwin
    refine .bind (fitting_platform (Q := fun _ w => w.state = state) ?_) fun result => ?_
    · rintro answer w - rfl
      split_ifs <;> rfl
    split
    · exact fitting_fail rfl
    · split
      · exact fitting_fail rfl
      next command hcmd =>
      refine (fitting_complete (n := 1) henc hwin).weaken (by decide) ?_
      rintro w rfl
      exact ⟨hcmd, by rw [hph]; rfl⟩
    · exact fitting_last henc (by decide) ⟨hwin, length_boundedDetail _⟩
        fun w hw => phase_eq hw hph ▸ .unhealthy
    · split_ifs
      · exact fitting_last henc (by decide) ⟨hwin, length_boundedDetail _⟩
          fun w hw => phase_eq hw hph ▸ .unhealthy
      · exact fitting_last henc (by decide) hwin fun w hw => phase_eq hw hph ▸ .pending
  case h_6 plan cause hph =>
    rw [hph] at hwin
    refine .bind (fitting_platform (Q := fun result w => w.state.phase = .rollingBack plan cause ∧
      (result = .ok () → w.trace.head? = some (.restored plan true))) ?_) fun result => ?_
    · rintro answer w - rfl
      refine ⟨hph, fun hok => ?_⟩
      rw [hok]
      rfl
    split
    · exact fitting_last henc (by decide) ⟨⟨plan, hwin.1, rfl, rfl⟩, hwin.2⟩
        fun w hw => hw.1 ▸ .rolledBack (hw.2 rfl)
    · exact fitting_last henc (by decide) ⟨by decide, length_boundedDetail _⟩
        fun w hw => hw.1 ▸ .rollbackFailed
  all_goals exact fitting_done

theorem fitting_request (state : GuardianState V) (henc : Encodes B size)
    {command : UpdateCommand V}
    (hcmd : B.command command) (activity : RuntimeActivity) (now : Int) :
    Fitting B size 1 (fun w => w.state = state) (request size state command activity now) 0
      fun _ w => w.file.records ≠ [] ∧ ∃ b, w.state.phase = .awaitingIdle b := by
  unfold request
  split
  next error hval =>
    refine fitting_fail ?_
    unfold UpdateCommand.validate at hval
    split_ifs at hval
    cases hval
    rfl
  split_ifs with hrel hmeta hrest
  iterate 3 exact fitting_fail rfl
  apply fitting_record
  rintro w hsound hroom rfl
  let asked : GuardianState V := { w.state with command := some command }
  let next := w.state.requested command activity.admission.blockedBy now
  have hwin : next.Within B := by
    refine ⟨hsound.within.release, fun other hother => ?_, trivial⟩
    cases hother
    exact hcmd
  have hval : validateLoadedState next w.file.records.getLast? = .ok () :=
    hsound.agrees.validate hsound.readable rfl (Nat.lt_succ_self _) (Nat.le_refl _)
  obtain ⟨hfits, hroom'⟩ := hroom.append henc hwin
  have htr :=
    transition_none (w := w.putState asked) hsound.readable hsound.sequence_lt hval hfits
  have hsound' := hsound.appended hfits hwin
    (fun _ => ⟨command, rfl, Nat.lt_of_not_le hmeta⟩) hval rfl
    (.accepted command :: .recorded next true :: w.trace)
  unfold accept
  dsimp only
  rw [htr]
  exact ⟨hsound', .inl ⟨rfl, hroom', concat_ne_nil _ _, _, rfl⟩⟩

/-! ### Runs within the limits -/

/-- The texts of the operation are short, the file system does not fail, and the
journal has room for the records of a call. -/
def Affordable (B : Bounds V) (size : GuardianState V → Nat) (m : Machine V) : Op V → Prop
  | .open _ release _ => B.release release
  | .request command _ _ answer => B.command command ∧ (∀ a ∈ answer, a.Short B) ∧
      m.file.Room size 2
  | .advance _ _ answers => (∀ a ∈ answers, a.Short B) ∧ m.file.Room size 2

/-- **The journal does not block the guardian.**  In a run whose calls find room for
two records in the journal, with short texts and without faults of the file system,
no call fails at the limits, and `load` returns the state of the guardian unless
nothing was written. -/
theorem limits_not_reached (size : GuardianState V → Nat) (B : Bounds V)
    (hencodes : Encodes B size) (ops : List (Op V))
    (h : Run.Meets (step size) (Affordable B size) initial ops) :
    (∀ error, (run size ops).result = some (.error error) → error.isLimit = false) ∧
      ∀ guardian ∈ (run size ops).running,
        readJournal size (run size ops).file = .ok (some guardian.state) ∨
          (run size ops).file.records = [] := by
  have hruns : (run size ops).Holds (Sound B size) (fun file _ => Tidy B size file) ∧
      ∀ error, (run size ops).result = some (.error error) → error.isLimit = false := by
    refine Run.Meets.invariant (P := fun m => m.Holds (Sound B size)
      (fun file _ => Tidy B size file) ∧ ∀ error, m.result = some (.error error) →
        error.isLimit = false) ?_ ⟨.stopped ⟨readable_nil, fun _ hl => by cases hl⟩ rfl,
          fun _ herr => by cases herr⟩ h
    rintro m op ⟨hm, hres⟩ hop
    cases op with
    | «open» config release now =>
      simp only [step]
      split
      next loaded hval hread =>
        refine ⟨⟨hm.1, fun guardian hgd => ?_⟩, fun _ herr => by cases herr⟩
        cases hgd
        rw [readJournal_ok hread]
        cases hlatest : m.file.records.getLast? with
        | some latest =>
          obtain ⟨hwin, hpend, hseq⟩ := hm.1.2 latest hlatest
          exact ⟨.inl hlatest, hm.1.1, hwin, hpend, hseq⟩
        | none =>
          have hnone := List.getLast?_eq_none_iff.mp hlatest
          refine ⟨.inr ⟨hnone, release, now, rfl⟩, hm.1.1,
            ⟨hop, fun _ hc => (by cases hc), trivial⟩,
            fun hrest => (by cases hrest), ?_⟩
          show 0 = m.file.records.length
          rw [hnone, List.length_nil]
      next error _ hval =>
        refine ⟨.stopped hm.1 rfl, fun error' herr' => ?_⟩
        cases herr'
        unfold GuardianConfig.validate at hval
        split_ifs at hval <;> · cases hval; rfl
      next error hread =>
        rw [hm.1.1] at hread
        cases hread
    | request command activity now answer =>
      rw [step]
      refine call_sound hm hres hop.2.2 (fun a ha => hop.2.1 a (Option.mem_toList.mp ha)) ?_
      exact fun guardian _ => (fitting_request guardian.state hencodes hop.1 activity now).weaken
        (by decide) fun _ hw => hw
    | advance activity now answers =>
      rw [step]
      refine call_sound hm hres hop.2 hop.1 fun guardian hgd => ?_
      exact fitting_advance hencodes guardian.config (hm.2 guardian hgd).within activity now
  refine ⟨hruns.2, fun guardian hgd => ?_⟩
  have hsound := hruns.1.2 guardian hgd
  rcases hsound.agrees with hlatest | ⟨hnone, -⟩
  · exact .inl (hsound.readable.trans (congrArg _ hlatest))
  · exact .inr hnone

namespace Sample

def plan : RuntimePlan Nat := ⟨⟨2, "b"⟩, ⟨1, "a"⟩⟩

def bounds : Bounds Nat where
  release r := r ≤ 2
  command c := c = command 2 7
  plan p := p = plan
  staged p hp := by rw [hp]; decide

/-- A node with a job to print. -/
def busy : RuntimeActivity := ⟨true, 1, 0, false, false⟩

/-- An update that waits for so many calls. -/
def waiting (n : Nat) : List (Op Nat) :=
  requested answer ++ .replicate n (.advance busy 2 [answer])

theorem answer_short : answer.Short bounds := by
  refine ⟨rfl, fun p hp => ?_⟩
  exact (Except.ok.inj hp).symm

end Sample

open Sample

/-- A whole update. -/
theorem limits_not_reached_update :
    let ops := requested answer ++
      [.advance idle 2 (.replicate 3 answer),
        .advance idle 3 (.replicate 3 answer),
        .advance idle 4 (.replicate 2 answer)]
    (Encodes bounds lineBytes ∧
      Run.Meets (step lineBytes) (Affordable bounds lineBytes)
        initial ops) ∧
    (∀ error, (run lineBytes ops).result = some (.error error) →
      error.isLimit = false) ∧
      ∀ guardian ∈ (run lineBytes ops).running,
        readJournal lineBytes (run lineBytes ops).file =
            .ok (some guardian.state) ∨
          (run lineBytes ops).file.records = [] := by
  intro ops
  have henc : Encodes bounds lineBytes := fun _ _ =>
    show 400 + 1 ≤ maxJournalRecordBytes by decide
  have hshort : ∀ n, ∀ a ∈ List.replicate n answer, a.Short bounds := by
    intro n a ha
    rw [List.eq_of_mem_replicate ha]
    exact answer_short
  have hmeets : Run.Meets (step lineBytes)
      (Affordable bounds lineBytes) initial ops := by
    refine ⟨show 1 ≤ 2 by decide, ⟨rfl, fun a ha => ?_, ?_⟩, ⟨hshort 3, ?_⟩, ⟨hshort 3, ?_⟩,
      ⟨hshort 2, ?_⟩, trivial⟩
    case refine_1 =>
      cases ha
      exact answer_short
    all_goals decide +kernel
  exact ⟨⟨henc, hmeets⟩, limits_not_reached _ _ henc _ hmeets⟩

/-- Each call that waits fills the journal a bit more, or finds it full. -/
theorem waiting_step {size : GuardianState Nat → Nat} (henc : Encodes bounds size)
    {m : Machine Nat} {guardian : UpdateGuardian Nat} {b : Option AdmissionBlock}
    (hrun : m.running = some guardian)
    (hsound : Sound bounds size ⟨m.file, guardian, m.trace⟩)
    (hph : guardian.state.phase = .awaitingIdle b) :
    let m' := m.step size (.advance busy 2 [answer])
    m'.result = some (.error .journalTooLarge) ∨
      ∃ guardian' b', m'.running = some guardian' ∧
        Sound bounds size ⟨m'.file, guardian', m'.trace⟩ ∧
        guardian'.state.phase = .awaitingIdle b' ∧
          m'.file.records.length = m.file.records.length + 1 := by
  have hleads : Leads m.trace guardian.state.phase (.awaitingIdle (some .queuedJobs)) :=
    hph ▸ .wait
  have hadmission : busy.admission = .blocked .queuedJobs := by decide
  simp only [step, call, hrun, advance, hph, hadmission]
  rw [run_record, show answer.fault = none from rfl]
  by_cases hfits : m.file.Fits size (guardian.state.next (.awaitingIdle (some .queuedJobs)) 2)
  · obtain ⟨htr, hsound'⟩ := hsound.transition_ok 2 hfits hleads trivial
    rw [htr] at hsound' ⊢
    exact .inr ⟨_, _, rfl, hsound', rfl, length_append⟩
  · exact .inl (congrArg some (hsound.transition_full 2 henc trivial hfits))

theorem requested_run {size : GuardianState Nat → Nat} (henc : Encodes bounds size) :
    ∃ guardian b, (run size (requested answer)).running = some guardian ∧
      Sound bounds size ⟨(run size (requested answer)).file, guardian,
        (run size (requested answer)).trace⟩ ∧
      guardian.state.phase = .awaitingIdle b ∧
        0 < (run size (requested answer)).file.records.length := by
  let initial : GuardianState Nat := .initial 1 0
  let w : World Nat := ⟨⟨[], 0⟩, ⟨config, initial⟩, [.opened 1 initial]⟩
  have hsound : Sound bounds size w :=
    ⟨.inr ⟨rfl, 1, 0, rfl⟩, readable_nil, ⟨show 1 ≤ 2 by decide, nofun, trivial⟩, nofun, rfl⟩
  have hroom : w.file.Room size 1 := show 0 + 1 * maxJournalRecordBytes ≤ maxJournalBytes by decide
  have hcmd : bounds.command (command 2 7) := rfl
  have hwin : (w.state.requested (command 2 7) none 1).Within bounds := by
    refine ⟨hsound.within.release, fun other hother => ?_, trivial⟩
    cases hother
    exact hcmd
  have hok : ((request size w.state (command 2 7) idle 1).run
      [answer] w).1 = some (.ok ()) := by
    show ((record (accept size (command 2 7) idle 1)).run [answer] w).1 = _
    rw [run_record]
    exact congrArg some (hsound.agrees.accept hsound.readable hsound.sequence_lt
      (hroom.append henc hwin).1)
  obtain ⟨hsound', hdone, -⟩ := (fitting_request w.state henc hcmd idle 1).run
    [answer] hsound hroom rfl fun a ha =>
      mem_singleton.mp ha ▸ answer_short
  obtain ⟨hrecs, b, hph⟩ := hdone hok
  refine ⟨_, b, ?_, hsound', hph, length_pos_iff.mpr hrecs⟩
  show ((request size w.state (command 2 7) idle 1).run [answer] w).1.map _ = _
  rw [hok]
  rfl

/-- Waiting long enough fills the journal, with no fault of the file system. -/
theorem waiting_fills_journal : Encodes bounds lineBytes ∧
    ∀ size : GuardianState Nat → Nat, Encodes bounds size →
      ∃ n, (run size (waiting n)).result = some (.error .journalTooLarge) := by
  refine ⟨fun _ _ => show 400 + 1 ≤ maxJournalRecordBytes by decide, ?_⟩
  intro size henc
  by_contra hnever
  have hfilled : ∀ n, ∃ guardian b, (run size (waiting n)).running = some guardian ∧
      Sound bounds size ⟨(run size (waiting n)).file, guardian,
        (run size (waiting n)).trace⟩ ∧
      guardian.state.phase = .awaitingIdle b ∧
        n < (run size (waiting n)).file.records.length := by
    intro n
    induction n with
    | zero => exact requested_run henc
    | succ n ih =>
      obtain ⟨guardian, b, hrunning, hsound, hph, hlen⟩ := ih
      have hrun : run size (waiting (n + 1)) =
          (run size (waiting n)).step size (.advance busy 2 [answer]) := by
        unfold run waiting
        rw [List.replicate_succ', ← List.append_assoc, Run.exec_append]
        rfl
      rw [hrun]
      rcases waiting_step henc hrunning hsound hph with hfull | hwaits
      · exact absurd ⟨n + 1, hrun ▸ hfull⟩ hnever
      · obtain ⟨guardian', b', hrun', hsound', hph', hlen'⟩ := hwaits
        exact ⟨guardian', b', hrun', hsound', hph', by omega⟩
  have hbd : ∀ n, n < maxJournalBytes := by
    intro n
    obtain ⟨guardian, b, -, hsound, -, hlen⟩ := hfilled n
    exact Nat.lt_of_lt_of_le hlen hsound.readable.length_le
  exact Nat.lt_irrefl maxJournalBytes (hbd maxJournalBytes)

end Piqae.Guardian
