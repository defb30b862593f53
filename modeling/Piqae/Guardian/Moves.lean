/-
Piqae/Guardian/Moves.lean

What one action of the guardian can do.

`Follows` lists the states that the guardian may record next, with what must
have happened before; `Move` lists the actions: a record that is appended, one
that is refused, one that is in the file although the append has failed, and
the calls of the platform.  Every call of the guardian is a sequence of such
moves, wherever the process dies in it, so that an invariant of the guardian is
a property that each move keeps.
-/
import Piqae.Guardian.Machine

namespace Piqae.Guardian

variable {V : Type} {size : GuardianState V → Nat} {latest : Option (GuardianState V)}
  {file : JournalFile V} {records : List (GuardianState V)} {first : Option (GuardianState V)}
  {state : GuardianState V}

/-! ### Appends -/

theorem readRecords_ok (h : readRecords size first records = .ok latest) :
    latest = records.getLast?.or first := by
  induction records generalizing first with
  | nil => exact (Except.ok.inj h).symm
  | cons state states ih =>
    simp only [readRecords] at h
    split_ifs at h
    split at h
    · cases h
    · rw [ih h, List.getLast?_cons]
      cases states.getLast? <;> simp

theorem readJournal_ok (h : readJournal size file = .ok latest) :
    latest = file.records.getLast? := by
  unfold readJournal at h
  split_ifs at h
  rw [readRecords_ok h, Option.or_none]

/-- The file can be read, and ends with its last record. -/
def Readable (size : GuardianState V → Nat) (file : JournalFile V) : Prop :=
  readJournal size file = .ok file.records.getLast?

theorem readable_nil : Readable size (⟨[], 0⟩ : JournalFile V) := rfl

theorem readRecords_concat (h : readRecords size first records = .ok latest)
    (hsize : size state ≤ maxJournalRecordBytes)
    (hval : validateLoadedState state latest = .ok ()) :
    readRecords size first (records ++ [state]) = .ok (some state) := by
  induction records generalizing first with
  | nil =>
    cases h
    simp [readRecords, hsize, hval]
  | cons head records ih =>
    simp only [List.cons_append, readRecords] at h ⊢
    split_ifs at h ⊢
    split at h
    · cases h
    · exact ih h

theorem readable_concat (hread : readJournal size file = .ok latest)
    (hval : validateLoadedState state latest = .ok ())
    (hsize : size state + 1 ≤ maxJournalRecordBytes)
    (htotal : file.completeBytes size + (size state + 1) ≤ maxJournalBytes) :
    Readable size ⟨file.records ++ [state], 0⟩ := by
  unfold readJournal at hread
  split_ifs at hread
  have hbytes : JournalFile.completeBytes size ⟨file.records ++ [state], 0⟩ + 0 ≤
      maxJournalBytes := by
    simpa [JournalFile.completeBytes] using htotal
  rw [Readable, readJournal, if_neg (Nat.not_lt.mpr hbytes), List.getLast?_concat]
  exact readRecords_concat hread (by omega) hval

/-- The bytes of a torn write do not matter while the file is not too large. -/
theorem readable_torn {torn : Nat} (h : Readable size file)
    (htorn : file.completeBytes size + torn ≤ maxJournalBytes) :
    Readable size ⟨file.records, torn⟩ := by
  unfold Readable readJournal at h ⊢
  split_ifs at h
  exact (if_neg (Nat.not_lt.mpr htorn)).trans h

/-- How an append ends. -/
inductive Appends (size : GuardianState V → Nat) (fault : Option IoFault)
    (state : GuardianState V) (file : JournalFile V) :
    Except (GuardianError V) Unit × JournalFile V → Prop
  | recorded (hread : Readable size ⟨file.records ++ [state], 0⟩) :
      Appends size fault state file (.ok (), ⟨file.records ++ [state], 0⟩)
  | refused (error : GuardianError V) {torn : Nat}
      (hread : Readable size file → Readable size ⟨file.records, torn⟩) :
      Appends size fault state file (.error error, ⟨file.records, torn⟩)
  | unacknowledged (error : GuardianError V)
      (hread : Readable size ⟨file.records ++ [state], 0⟩) (hfault : fault = some .unsynced) :
      Appends size fault state file (.error error, ⟨file.records ++ [state], 0⟩)

theorem appends_append (size : GuardianState V → Nat) (fault : Option IoFault)
    (state : GuardianState V) (file : JournalFile V) :
    Appends size fault state file (append size fault state file) := by
  unfold append
  split
  · exact .refused _ id
  next latest hread =>
  split
  · exact .refused _ id
  next hval =>
  have hbytes : file.completeBytes size + file.torn ≤ maxJournalBytes := by
    unfold readJournal at hread
    split_ifs at hread
    omega
  split_ifs with hsize _ htotal
  · exact .refused _ id
  · exact .refused _ id
  · exact .refused _ fun h => readable_torn h (by omega)
  have hconcat : Readable size ⟨file.records ++ [state], 0⟩ :=
    readable_concat hread hval (Nat.not_lt.mp hsize) (Nat.not_lt.mp htotal)
  split
  · exact .refused _ fun h => readable_torn h (by omega)
  · exact .unacknowledged _ hconcat rfl
  · exact .recorded hconcat

/-- The outcomes of a transition. -/
theorem transition_cases (size : GuardianState V → Nat) (phase : GuardianPhase V) (now : Int)
    (fault : Option IoFault) (w : World V) :
    (∃ error torn, (Readable size w.file → Readable size ⟨w.file.records, torn⟩) ∧
      transition size phase now fault w =
        (.error error, { w with file := ⟨w.file.records, torn⟩ })) ∨
    (Readable size ⟨w.file.records ++ [w.state.next phase now], 0⟩ ∧
      transition size phase now fault w = (.ok (), { w.putState (w.state.next phase now) with
        file := ⟨w.file.records ++ [w.state.next phase now], 0⟩
        trace := .recorded (w.state.next phase now) true :: w.trace })) ∨
    (∃ error, fault = some .unsynced ∧
      Readable size ⟨w.file.records ++ [w.state.next phase now], 0⟩ ∧
      transition size phase now fault w = (.error error, { w with
        file := ⟨w.file.records ++ [w.state.next phase now], 0⟩
        trace := .recorded (w.state.next phase now) false :: w.trace })) := by
  unfold transition
  dsimp only
  split_ifs
  · exact .inl ⟨_, w.file.torn, id, rfl⟩
  have happend := appends_append size fault (w.state.next phase now) w.file
  generalize append size fault (w.state.next phase now) w.file = outcome at happend
  cases happend with
  | recorded hread => exact .inr (.inl ⟨hread, rfl⟩)
  | refused error hread =>
    exact .inl ⟨error, _, hread, by simp [World.putState, World.state]⟩
  | unacknowledged error hread hfault =>
    exact .inr (.inr ⟨error, hfault, hread, by simp [World.putState, World.state]⟩)

/-! ### Moves -/

section Moves

variable [LinearOrder V] {w : World V}

/-- The phases that may follow a phase, by what was done last. -/
inductive Leads (trace : List (Event V)) : GuardianPhase V → GuardianPhase V → Prop
  | wait {b b' : Option AdmissionBlock} : Leads trace (.awaitingIdle b) (.awaitingIdle b')
  | stage {b : Option AdmissionBlock} : Leads trace (.awaitingIdle b) .staging
  | staged {plan : RuntimePlan V} : Leads trace .staging (.staged plan)
  | stageFailed {code detail : String} : Leads trace .staging (.failed code detail)
  | activate {plan : RuntimePlan V} : Leads trace (.staged plan) (.activating plan)
  | beginHealth {plan : RuntimePlan V} {startedAt deadline : Int} :
      Leads trace (.activating plan) (.healthChecking plan startedAt deadline 0)
  | giveUp {plan : RuntimePlan V} {cause : String} :
      Leads trace (.activating plan) (.rollingBack plan cause)
  | pending {plan : RuntimePlan V} {startedAt deadline : Int} {attempts attempts' : Nat} :
      Leads trace (.healthChecking plan startedAt deadline attempts)
        (.healthChecking plan startedAt deadline attempts')
  | unhealthy {plan : RuntimePlan V} {startedAt deadline : Int} {attempts : Nat} {cause : String} :
      Leads trace (.healthChecking plan startedAt deadline attempts) (.rollingBack plan cause)
  | rolledBack {plan : RuntimePlan V} {cause : String}
      (h : trace.head? = some (.restored plan true)) :
      Leads trace (.rollingBack plan cause) (.rolledBack plan.previous plan.staged.version cause)
  | rollbackFailed {plan : RuntimePlan V} {cause detail : String} :
      Leads trace (.rollingBack plan cause) (.failed "rollback_failed" detail)

/-- The states that may be recorded next. -/
inductive Follows (w : World V) : GuardianState V → Prop
  | moved {phase : GuardianPhase V} {now : Int} (h : Leads w.trace w.state.phase phase) :
      Follows w (w.state.next phase now)
  | completed {plan : RuntimePlan V} {startedAt deadline now : Int} {attempts : Nat}
      {command : UpdateCommand V}
      (h : w.state.phase = .healthChecking plan startedAt deadline attempts)
      (hcommand : w.state.command = some command)
      (hhealthy : w.trace.head? = some (.healthy plan.staged)) :
      Follows w (GuardianState.next { w.state with
        installedRelease := plan.staged.version
        trustedMetadataVersion := command.candidate.metadataVersion }
        (.completed plan.staged plan.previous) now)

/-- A request for an update to a newer release, when none is in progress. -/
structure Admits (state : GuardianState V) (command : UpdateCommand V) : Prop where
  resting : state.phase.isResting = true
  release : state.installedRelease < command.candidate.release
  metadata : state.trustedMetadataVersion < command.candidate.metadataVersion

/-- The state that is recorded for a request. -/
def GuardianState.requested (state : GuardianState V) (command : UpdateCommand V)
    (blockedBy : Option AdmissionBlock) (now : Int) : GuardianState V :=
  GuardianState.next { state with command := some command } (.awaitingIdle blockedBy) now

/-- One action of the guardian, with answers as `A` says and with requests that are
refused as `R` says. -/
inductive Move (size : GuardianState V → Nat) (A : Answer V → Prop)
    (R : GuardianState V → UpdateCommand V → Prop) (w : World V) : World V → Prop
  | stay : Move size A R w w
  | recorded {state : GuardianState V} (h : Follows w state)
      (hread : Readable size ⟨w.file.records ++ [state], 0⟩) :
      Move size A R w { w.putState state with
        file := ⟨w.file.records ++ [state], 0⟩, trace := .recorded state true :: w.trace }
  | refused {torn : Nat} (hread : Readable size w.file → Readable size ⟨w.file.records, torn⟩) :
      Move size A R w { w with file := ⟨w.file.records, torn⟩ }
  | unacknowledged {state : GuardianState V} {answer : Answer V}
      (h : Follows w state) (ha : A answer) (hfault : answer.fault = some .unsynced)
      (hread : Readable size ⟨w.file.records ++ [state], 0⟩) :
      Move size A R w { w with
        file := ⟨w.file.records ++ [state], 0⟩, trace := .recorded state false :: w.trace }
  | accepted {command : UpdateCommand V} {b : Option AdmissionBlock} {now : Int}
      (h : Admits w.state command)
      (hread : Readable size ⟨w.file.records ++ [w.state.requested command b now], 0⟩) :
      Move size A R w { w.putState (w.state.requested command b now) with
        file := ⟨w.file.records ++ [w.state.requested command b now], 0⟩
        trace := .accepted command :: .recorded (w.state.requested command b now) true :: w.trace }
  | rejected {command : UpdateCommand V} {torn : Nat} (h : Admits w.state command)
      (hr : R w.state command)
      (hread : Readable size w.file → Readable size ⟨w.file.records, torn⟩) :
      Move size A R w { w.putState { w.state with command := some command } with
        file := ⟨w.file.records, torn⟩ }
  | unanswered {command : UpdateCommand V} {b : Option AdmissionBlock} {now : Int}
      {answer : Answer V} (h : Admits w.state command) (hr : R w.state command)
      (ha : A answer) (hfault : answer.fault = some .unsynced)
      (hread : Readable size ⟨w.file.records ++ [w.state.requested command b now], 0⟩) :
      Move size A R w { w.putState { w.state with command := some command } with
        file := ⟨w.file.records ++ [w.state.requested command b now], 0⟩
        trace := .recorded (w.state.requested command b now) false :: w.trace }
  | staged {candidate : VerifiedCandidate V} (h : w.state.phase = .staging) :
      Move size A R w (w.note (.staged candidate))
  | activated {plan : RuntimePlan V} {activity : RuntimeActivity}
      (h : w.state.phase = .activating plan) (hready : activity.admission = .ready) :
      Move size A R w (w.note (.activated plan activity))
  | restored {plan : RuntimePlan V} {cause : String} (succeeded : Bool)
      (h : w.state.phase = .rollingBack plan cause) :
      Move size A R w (w.note (.restored plan succeeded))
  | healthy (slot : RuntimeSlot V) : Move size A R w (w.note (.healthy slot))

theorem Move.readable {A : Answer V → Prop} {R : GuardianState V → UpdateCommand V → Prop}
    {w' : World V} (h : Move size A R w w') (hread : Readable size w.file) :
    Readable size w'.file := by
  cases h with
  | recorded _ hread' => exact hread'
  | unacknowledged _ _ _ hread' => exact hread'
  | accepted _ hread' => exact hread'
  | unanswered _ _ _ _ hread' => exact hread'
  | refused hkeep => exact hkeep hread
  | rejected _ _ hkeep => exact hkeep hread
  | stay | staged | activated | restored | healthy => exact hread

/-! ### The calls as moves -/

/-- The discipline of a guardian that runs alone. -/
def guarded (size : GuardianState V → Nat) (A : Answer V → Prop)
    (R : GuardianState V → UpdateCommand V → Prop) :
    Process.Discipline Unit (Answer V) (World V) where
  valid _ := True
  rely := Eq
  guar := Move size A R
  admits _ answer _ := A answer
  joined _ := False
  refl _ := rfl
  trans := Eq.trans

/-- From a world with `P` the program makes only moves, and ends with `Q`. -/
abbrev Moving {α : Type} (size : GuardianState V → Nat) (A : Answer V → Prop)
    (R : GuardianState V → UpdateCommand V → Prop) (P : World V → Prop) (p : Prog V α)
    (Q : α → World V → Prop) : Prop :=
  Process.Triple (guarded size A R) P p Q fun _ _ => True

variable {A : Answer V → Prop} {R : GuardianState V → UpdateCommand V → Prop} {P : World V → Prop}
  {α : Type} {answer : Answer V} {plan : RuntimePlan V} {now : Int} {Q : α → World V → Prop}
  {command : UpdateCommand V} {activity : RuntimeActivity}

theorem guarded_stable : (guarded size A R).Stable P :=
  fun _ _ _ _ heq hs => heq ▸ hs

theorem moving_record {f : Option IoFault → World V → Except (GuardianError V) Unit × World V}
    {Q : World V → Prop} (h : ∀ answer w, A answer → P w → Move size A R w (f answer.fault w).2 ∧
      ((f answer.fault w).1 = .ok () → Q (f answer.fault w).2)) :
    Moving size A R P (record f) fun _ => Q := by
  apply Process.Triple.fallible fun _ => guarded_stable
  intro w answer _ hw ha
  obtain ⟨hmove, hok⟩ := h answer w ha hw
  exact ⟨trivial, hmove, fun _ hres => hok hres, fun _ _ => trivial⟩

theorem moving_platform {f : Answer V → α} {event : Answer V → Option (Event V)}
    (h : ∀ answer w, P w → Move size A R w ((event answer).elim w w.note) ∧
      Q (f answer) ((event answer).elim w w.note)) : Moving size A R P (platform f event) Q := by
  apply Process.Triple.atomic fun _ => guarded_stable
  intro w answer _ hw _
  exact ⟨trivial, (h answer w hw).1, (h answer w hw).2⟩

theorem moving_done : Moving size A R P (.done ()) fun _ _ => True :=
  Process.Triple.done fun _ _ _ => trivial

theorem moving_fail {error : GuardianError V} : Moving size A R P (.fail error) Q :=
  Process.Triple.fail fun _ _ _ => trivial

theorem move_transition (size : GuardianState V → Nat) {phase : GuardianPhase V} (now : Int)
    (ha : A answer) (h : Leads w.trace w.state.phase phase) :
    Move size A R w (transition size phase now answer.fault w).2 ∧
      ((transition size phase now answer.fault w).1 = .ok () →
        (transition size phase now answer.fault w).2.state = w.state.next phase now) := by
  obtain ⟨error, torn, hread, heq⟩ | ⟨hread, heq⟩ | ⟨error, hfault, hread, heq⟩ :=
    transition_cases size phase now answer.fault w
  · rw [heq]
    exact ⟨.refused hread, nofun⟩
  · rw [heq]
    exact ⟨.recorded (.moved h) hread, fun _ => rfl⟩
  · rw [heq]
    exact ⟨.unacknowledged (.moved h) ha hfault hread, nofun⟩

theorem move_complete {startedAt deadline : Int} {attempts : Nat} (ha : A answer)
    (h : w.state.phase = .healthChecking plan startedAt deadline attempts)
    (hcmd : w.state.command = some command) (hhl : w.trace.head? = some (.healthy plan.staged)) :
    Move size A R w
      (complete size plan command.candidate.metadataVersion now answer.fault w).2 := by
  have hcases := transition_cases size (.completed plan.staged plan.previous) now
    answer.fault (w.putState { w.state with
      installedRelease := plan.staged.version
      trustedMetadataVersion := command.candidate.metadataVersion })
  unfold complete
  dsimp only at hcases ⊢
  obtain ⟨error, torn, hread, heq⟩ | ⟨hread, heq⟩ | ⟨error, hfault, hread, heq⟩ := hcases
  · rw [heq]
    exact .refused hread
  · rw [heq]
    exact .recorded (.completed h hcmd hhl) hread
  · rw [heq]
    exact .unacknowledged (.completed h hcmd hhl) ha hfault hread

theorem move_accept (ha : A answer) (h : Admits w.state command)
    (hr : (accept size command activity now answer.fault w).1 ≠ .ok () → R w.state command) :
    Move size A R w (accept size command activity now answer.fault w).2 := by
  have hcases := transition_cases size (.awaitingIdle activity.admission.blockedBy) now
    answer.fault (w.putState { w.state with command := some command })
  unfold accept at hr ⊢
  dsimp only at hcases hr ⊢
  obtain ⟨error, torn, hread, heq⟩ | ⟨hread, heq⟩ | ⟨error, hfault, hread, heq⟩ := hcases
  · rw [heq] at hr ⊢
    exact .rejected h (hr nofun) hread
  · rw [heq]
    exact .accepted h hread
  · rw [heq] at hr ⊢
    exact .unanswered h (hr nofun) ha hfault hread

theorem moving_request {w₀ : World V} {state : GuardianState V} (hst : w₀.state = state)
    (command : UpdateCommand V) (activity : RuntimeActivity) (now : Int)
    (hr : ∀ answer, A answer → command.validate = .ok () → Admits state command →
      (accept size command activity now answer.fault w₀).1 ≠ .ok () → R state command) :
    Moving size A R (· = w₀) (request size state command activity now) fun _ _ => True := by
  unfold request
  split
  · exact moving_fail
  next hval =>
  split_ifs with hrel hmeta hrest
  iterate 3 exact moving_fail
  apply moving_record
  rintro answer w ha rfl
  obtain rfl := hst
  have hadm : Admits w.state command :=
    ⟨by simpa using hrest, not_le.mp hrel, Nat.lt_of_not_le hmeta⟩
  exact ⟨move_accept ha hadm (hr answer ha hval hadm), fun _ => trivial⟩

theorem Moving.weaken {p : Prog V α} (h : Moving size A R P p Q) :
    Moving size A R P p fun _ _ => True :=
  h.consequence (fun _ _ hw => hw) (fun _ _ _ _ => trivial) fun _ _ _ _ => trivial

theorem moving_transition {next : GuardianPhase V}
    (h : ∀ w, P w → Leads w.trace w.state.phase next) :
    Moving size A R P (record (transition size next now)) fun _ w => w.state.phase = next := by
  apply moving_record
  intro answer w ha hw
  obtain ⟨hmove, hok⟩ := move_transition size now ha (h w hw)
  exact ⟨hmove, fun hres => by rw [hok hres]; rfl⟩

theorem moving_beginHealth :
    Moving size A R (fun w => w.state.phase = .activating plan) (record (beginHealth size plan now))
      fun _ _ => True := by
  apply moving_record
  intro answer w ha hph
  unfold beginHealth
  dsimp only
  split_ifs
  · exact ⟨.stay, fun _ => trivial⟩
  · exact ⟨(move_transition size now ha (hph ▸ .beginHealth)).1, fun _ => trivial⟩

theorem moving_activate {message : String} (hready : activity.admission = .ready) :
    Moving size A R (fun w => w.state.phase = .activating plan)
      ((activate plan activity).bind (afterActivate size plan message now)) fun _ _ => True := by
  refine .bind (moving_platform (Q := fun _ w => w.state.phase = .activating plan)
    fun answer w hph => ⟨.activated hph hready, hph⟩) fun result => ?_
  cases result with
  | ok => exact moving_beginHealth
  | error detail => exact (moving_transition fun w hph => hph ▸ .giveUp).weaken

theorem moving_observe {slot : RuntimeSlot V} :
    Moving size A R (fun w => w.state = state) (observe slot) fun result w =>
      w.state = state ∧ (result = .ok .healthy → w.trace.head? = some (.healthy slot)) := by
  apply moving_platform
  rintro answer w rfl
  split_ifs with hhl
  · exact ⟨.healthy slot, rfl, fun _ => rfl⟩
  · refine ⟨.stay, rfl, fun hok => absurd ?_ hhl⟩
    rw [hok]
    rfl

omit [LinearOrder V] in
theorem phase_eq {phase : GuardianPhase V} (hw : w.state = state) (hph : state.phase = phase) :
    w.state.phase = phase :=
  hw ▸ hph

theorem moving_advance {config : GuardianConfig} :
    Moving size A R (fun w => w.state = state) (advance size config state activity now)
      fun _ _ => True := by
  -- the phase decides which transitions are open
  unfold advance
  split
  case h_1 b hph =>
    split
    · exact (moving_transition fun w hw => phase_eq hw hph ▸ .wait).weaken
    · refine .bind (moving_transition fun w hw => phase_eq hw hph ▸ .stage) fun _ => ?_
      split
      · exact moving_fail
      next command _ =>
      refine .bind (moving_platform (Q := fun _ w => w.state.phase = .staging)
        fun answer w hph => ⟨.staged hph, hph⟩) fun result => ?_
      split
      · split_ifs
        · exact (moving_transition fun w hph => hph ▸ .staged).weaken
        · exact (moving_transition fun w hph => hph ▸ .stageFailed).weaken
      · exact (moving_transition fun w hph => hph ▸ .stageFailed).weaken
  case h_2 hph =>
    exact (moving_transition fun w hw => phase_eq hw hph ▸ .stageFailed).weaken
  case h_3 plan hph =>
    split_ifs with hready
    · exact moving_done
    exact .bind (moving_transition fun w hw => phase_eq hw hph ▸ .activate) fun _ =>
      moving_activate (not_not.mp hready)
  case h_4 plan hph =>
    refine .bind (moving_platform (Q := fun _ w => w.state.phase = .activating plan)
      fun answer w hw => ⟨.stay, phase_eq hw hph⟩) fun result => ?_
    split
    · exact moving_fail
    · exact moving_beginHealth
    · split_ifs with hready
      · exact moving_done
      · exact moving_activate (not_not.mp hready)
    · exact (moving_transition fun w hph => hph ▸ .giveUp).weaken
  case h_5 hph =>
    refine moving_observe.bind fun result => ?_
    split
    · exact moving_fail
    · split
      · exact moving_fail
      next command hcmd =>
      apply moving_record
      rintro answer w ha ⟨rfl, hhl⟩
      exact ⟨move_complete ha hph hcmd (hhl rfl), fun _ => trivial⟩
    · exact (moving_transition fun w hw => phase_eq hw.1 hph ▸ .unhealthy).weaken
    · split_ifs
      · exact (moving_transition fun w hw => phase_eq hw.1 hph ▸ .unhealthy).weaken
      · exact (moving_transition fun w hw => phase_eq hw.1 hph ▸ .pending).weaken
  case h_6 plan cause hph =>
    refine .bind (moving_platform (Q := fun result w => w.state.phase = .rollingBack plan cause ∧
      (result = .ok () → w.trace.head? = some (.restored plan true))) ?_) fun result => ?_
    · rintro answer w rfl
      refine ⟨.restored _ hph, hph, fun hok => ?_⟩
      rw [hok]
      rfl
    split
    · exact (moving_transition fun w hw => hw.1 ▸ .rolledBack (hw.2 rfl)).weaken
    · exact (moving_transition fun w hw => hw.1 ▸ .rollbackFailed).weaken
  all_goals exact moving_done

/-! ### Invariants of runs -/

namespace Machine

/-- What holds of a guardian that runs, and of the file without one. -/
def Holds (I : World V → Prop) (J : JournalFile V → List (Event V) → Prop) (m : Machine V) :
    Prop :=
  J m.file m.trace ∧ ∀ guardian ∈ m.running, I ⟨m.file, guardian, m.trace⟩

variable {I : World V → Prop} {J : JournalFile V → List (Event V) → Prop}

omit [LinearOrder V] in
theorem Holds.stopped {m : Machine V} (h : J m.file m.trace) (hstopped : m.running = none) :
    m.Holds I J :=
  ⟨h, by simp [hstopped]⟩

/-- **The rule of invariants**: one that opening establishes and every move keeps. -/
theorem invariant {C : Machine V → Op V → Prop} (hnew : J ⟨[], 0⟩ [])
    (hstop : ∀ w, I w → J w.file w.trace)
    (hopen : ∀ m config release now, C m (.open config release now) →
      config.validate (V := V) = .ok () → J m.file m.trace →
      ∀ state, state = m.file.records.getLast?.getD (GuardianState.initial release now) →
        I ⟨m.file, ⟨config, state⟩, .opened release state :: m.trace⟩)
    (hanss : ∀ m op, C m op → ∀ answer ∈ op.answers, A answer)
    (href : ∀ m command activity now answer, C m (.request command activity now (some answer)) →
      ∀ guardian ∈ m.running, I ⟨m.file, guardian, m.trace⟩ → command.validate = .ok () →
        Admits guardian.state command →
          (accept size command activity now answer.fault ⟨m.file, guardian, m.trace⟩).1 ≠ .ok () →
            R guardian.state command)
    (hmove : ∀ A' : Answer V → Prop, (∀ answer, A' answer → A answer) →
      ∀ w w', I w → Move size A' R w w' → I w') {ops : List (Op V)}
    (h : Run.Meets (step size) C initial ops) : (run size ops).Holds I J := by
  refine Run.Meets.invariant (P := Holds I J) (fun m op hm hop => ?_) (.stopped hnew rfl) h
  -- a call is a sequence of moves, whether it ends or not
  have hcall : ∀ (A' : Answer V → Prop) (program : UpdateGuardian V → Prog V Unit)
      (answers : List (Answer V)), (∀ answer, A' answer → A answer) →
      (∀ answer ∈ answers, A' answer) →
      (∀ guardian ∈ m.running, Moving size A' R (· = ⟨m.file, guardian, m.trace⟩) (program guardian)
        fun _ _ => True) → (m.call program answers).Holds I J := by
    intro A' program answers hA' hall hmoving
    have hkept : ∀ w w', Relation.ReflTransGen (Move size A' R) w w' → I w → I w' := by
      intro w w' hmoves hw
      induction hmoves with
      | refl => exact hw
      | tail _ hlast ih => exact hmove A' hA' _ _ ih hlast
    unfold call
    cases hrun : m.running with
    | none => exact hm
    | some guardian =>
      obtain ⟨⟨-, hmoves⟩, -⟩ :=
        (hmoving guardian hrun _ trivial rfl).run answers trivial
          fun answer hans _ _ => hall answer hans
      have hI := hkept _ _ hmoves (hm.2 guardian hrun)
      dsimp only
      generalize (program guardian).run answers ⟨m.file, guardian, m.trace⟩ = outcome at hI ⊢
      obtain ⟨result, w⟩ := outcome
      refine ⟨hstop w hI, fun guardian' hgd' => ?_⟩
      obtain ⟨-, -, rfl⟩ := Option.map_eq_some_iff.mp hgd'
      exact hI
  cases op with
  | «open» config release now =>
    simp only [step]
    split
    · next loaded hval hread =>
      rw [readJournal_ok hread]
      have hI := hopen m config release now hop hval hm.1 _ rfl
      refine ⟨hstop _ hI, fun guardian hgd => ?_⟩
      cases hgd
      exact hI
    · exact .stopped hm.1 rfl
    · exact .stopped hm.1 rfl
  | request command activity now answer =>
    rw [step]
    refine hcall (· ∈ answer) _ _ (fun a ha => ?_) (fun a ha => ?_) fun guardian hgd => ?_
    · exact hanss m _ hop a (Option.mem_toList.mpr ha)
    · exact Option.mem_toList.mp ha
    · apply moving_request
      · rfl
      · intro a ha
        rw [Option.mem_def.mp ha] at hop
        exact href m command activity now a hop guardian hgd (hm.2 guardian hgd)
  | advance activity now answers =>
    rw [step]
    refine hcall A _ _ (fun _ ha => ha) (hanss m _ hop) fun guardian hgd => ?_
    refine moving_advance.consequence ?_ (fun _ _ _ h => h) fun _ _ _ h => h
    rintro w - rfl
    rfl

end Machine

end Moves

end Piqae.Guardian
