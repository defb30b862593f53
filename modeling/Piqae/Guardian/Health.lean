/-
Piqae/Guardian/Health.lean

How long the guardian checks the health of a new runtime.

Each call in `HealthChecking` observes the runtime once.  An observation that is
pending uses up an attempt, and the last attempt and the deadline end the
checks.  But an observation that fails returns before either is looked at, so
that the bound holds only where the observations succeed.
-/
import Piqae.Guardian.Agreement

namespace Piqae.Guardian

open Machine

variable {V : Type} {size : GuardianState V → Nat} {state : GuardianState V}
  {error : GuardianError V} {w : World V}

/-! ### Failures of the journal -/

/-- The errors of the store, and the one of a sequence that is used up. -/
def GuardianError.isPersistence : GuardianError V → Bool
  | unsupportedStateSchema _ | stateSequence _ _ | stateSequenceOverflow
  | persistedMetadataRollback | journalTooLarge | journalRecordTooLarge | io => true
  | _ => false

theorem validateLoadedState_error {prior : Option (GuardianState V)}
    (h : validateLoadedState state prior = .error error) : error.isPersistence = true := by
  unfold validateLoadedState at h
  split_ifs at h
  · cases h
    rfl
  split at h
  · cases h
  · split_ifs at h <;> · cases h; rfl

theorem readRecords_error {records : List (GuardianState V)} {first : Option (GuardianState V)}
    (h : readRecords size first records = .error error) : error.isPersistence = true := by
  induction records generalizing first with
  | nil => cases h
  | cons head records ih =>
    simp only [readRecords] at h
    split_ifs at h
    · cases h
      rfl
    split at h
    next hval =>
      cases h
      exact validateLoadedState_error hval
    · exact ih h

theorem append_error {fault : Option IoFault} {file : JournalFile V}
    (h : (append size fault state file).1 = .error error) : error.isPersistence = true := by
  unfold append at h
  split at h
  next hread =>
    cases h
    unfold readJournal at hread
    split_ifs at hread
    · cases hread
      rfl
    · exact readRecords_error hread
  split at h
  next hval =>
    cases h
    exact validateLoadedState_error hval
  split_ifs at h
  iterate 3 · cases h; rfl
  split at h
  iterate 2 · cases h; rfl
  · cases h

/-- The guardian is as wanted, or the journal has failed. -/
def Records (outcome : Except (GuardianError V) Unit × World V) (Q : UpdateGuardian V → Prop) :
    Prop :=
  (∃ w, outcome = (.ok (), w) ∧ Q w.guardian) ∨
    ∃ error, error.isPersistence = true ∧ outcome.1 = .error error

theorem Records.mono {outcome : Except (GuardianError V) Unit × World V}
    {Q Q' : UpdateGuardian V → Prop} (h : Records outcome Q)
    (hQ : ∀ guardian, Q guardian → Q' guardian) : Records outcome Q' :=
  h.imp_left fun ⟨w, heq, hw⟩ => ⟨w, heq, hQ _ hw⟩

theorem transition_result (size : GuardianState V → Nat) (phase : GuardianPhase V) (now : Int)
    (fault : Option IoFault) (w : World V) : Records (transition size phase now fault w)
      (· = ⟨w.guardian.config, w.state.next phase now⟩) := by
  unfold transition
  dsimp only
  split_ifs
  · exact .inr ⟨_, rfl, rfl⟩
  split
  · exact .inl ⟨_, rfl, rfl⟩
  next error _ happend => exact .inr ⟨error, append_error (congrArg Prod.fst happend), rfl⟩

theorem complete_result {plan : RuntimePlan V} {metadataVersion : Nat} {now : Int}
    {fault : Option IoFault} : Records (complete size plan metadataVersion now fault w)
      fun guardian => ∃ state, state.phase = .completed plan.staged plan.previous ∧
        guardian = ⟨w.guardian.config, state⟩ := by
  have hres := transition_result size (.completed plan.staged plan.previous) now fault
    (w.putState { w.state with
      installedRelease := plan.staged.version, trustedMetadataVersion := metadataVersion })
  unfold complete
  dsimp only at hres ⊢
  split
  next heq =>
    rw [heq] at hres
    obtain ⟨w', ⟨⟩, hgd⟩ | ⟨error, -, herr⟩ := hres
    · exact .inl ⟨_, rfl, _, rfl, hgd⟩
    · cases herr
  next error _ heq =>
    rw [heq] at hres
    obtain ⟨w', ⟨⟩, -⟩ | ⟨error', hpers, herr⟩ := hres
    cases herr
    exact .inr ⟨error, hpers, rfl⟩

/-! ### Actions that run alone -/

theorem run_record (f : Option IoFault → World V → Except (GuardianError V) Unit × World V)
    (answer : Answer V) (answers : List (Answer V)) (w : World V) :
    (record f).run (answer :: answers) w = (some (f answer.fault w).1, (f answer.fault w).2) := by
  show (Process.ofExcept (f answer.fault w).1).run answers _ = _
  cases (f answer.fault w).1 <;> rfl

theorem run_observe (slot : RuntimeSlot V) (f : Except String HealthObservation → Prog V Unit)
    (answer : Answer V) (answers : List (Answer V)) (w : World V) :
    ∃ trace, ((observe slot).bind f).run (answer :: answers) w =
      (f answer.observe).run answers { w with trace := trace } := by
  show ∃ trace, (f answer.observe).run answers ((if answer.observe.toOption = some .healthy then _
    else _ : Option (Event V)).elim w w.note) = _
  split_ifs
  · exact ⟨.healthy slot :: w.trace, rfl⟩
  · exact ⟨w.trace, rfl⟩

/-! ### The command of an update -/

/-- An update that is in progress has its command, with newer metadata. -/
def Pending (state : GuardianState V) : Prop :=
  state.phase.isResting = false → ∃ command, state.command = some command ∧
    state.trustedMetadataVersion < command.candidate.metadataVersion

theorem Follows.pending (h : Follows w state) (hpend : Pending w.state) : Pending state := by
  cases h with
  | completed => nofun
  | moved hleads =>
    intro _
    refine hpend ?_
    generalize w.state.phase = phase at hleads
    cases hleads <;> rfl

/-- What holds of a guardian that runs. -/
structure Ready (w : World V) : Prop where
  config : w.guardian.config.validate (V := V) = .ok ()
  pending : Pending w.state
  latest : ∀ state ∈ w.file.records.getLast?, Pending state

/-! ### Calls that check -/

/-- A call of `advance`. -/
structure Call (V : Type) where
  activity : RuntimeActivity
  now : Int
  answers : List (Answer V)

def Call.op (call : Call V) : Op V := .advance call.activity call.now call.answers

/-- The observation of the operation succeeds. -/
def Observed : Op V → Prop
  | .advance _ _ answers =>
    ∀ answer ∈ answers.head?, ∃ observation, answer.observe = .ok observation
  | _ => True

/-- The new runtime was found healthy, or its removal is recorded. -/
def GuardianPhase.Decided (plan : RuntimePlan V) (phase : GuardianPhase V) : Prop :=
  phase = .completed plan.staged plan.previous ∨ ∃ cause, phase = .rollingBack plan cause

/-- What a call leaves in `HealthChecking`: it has decided, or has used one attempt. -/
inductive Checked (guardian : UpdateGuardian V) (plan : RuntimePlan V)
    (startedAt deadline : Int) (attempts : Nat) (now : Int) : UpdateGuardian V → Prop
  | decided {state : GuardianState V} (h : state.phase.Decided plan) :
      Checked guardian plan startedAt deadline attempts now ⟨guardian.config, state⟩
  | pending (hdeadline : now < deadline)
      (hattempts : attempts + 1 < guardian.config.maxHealthAttempts.toNat) :
      Checked guardian plan startedAt deadline attempts now ⟨guardian.config,
        guardian.state.next (.healthChecking plan startedAt deadline (attempts + 1)) now⟩

variable {m : Machine V} {guardian : UpdateGuardian V} {plan : RuntimePlan V}
  {startedAt deadline : Int} {attempts : Nat} {call : Call V} {now : Int}

/-- A record that ends the call as wanted, or fails for the sake of the journal. -/
theorem checked_of_record {f : Option IoFault → World V → Except (GuardianError V) Unit × World V}
    {answers : List (Answer V)} {result : Except (GuardianError V) Unit}
    (h : ∀ fault, Records (f fault w) (Checked guardian plan startedAt deadline attempts now))
    (hres : ((record f).run answers w).1 = some result)
    (hjr : ∀ error, result = .error error → error.isPersistence = false) :
    ∃ guardian', (((record f).run answers w).1.map fun _ =>
        ((record f).run answers w).2.guardian) = some guardian' ∧
      Checked guardian plan startedAt deadline attempts now guardian' := by
  cases answers with
  | nil => cases hres
  | cons answer answers =>
    rw [run_record] at hres ⊢
    obtain ⟨w', heq, hchk⟩ | ⟨error, hpers, herr⟩ := h answer.fault
    · exact ⟨_, by rw [heq]; rfl, hchk⟩
    · cases hres
      rw [hjr error herr] at hpers
      cases hpers

theorem checked_transition {phase : GuardianPhase V}
    (h : Checked guardian plan startedAt deadline attempts now
      ⟨w.guardian.config, w.state.next phase now⟩) (fault : Option IoFault) :
    Records (transition size phase now fault w)
      (Checked guardian plan startedAt deadline attempts now) :=
  (transition_result ..).mono fun _ heq => heq ▸ h

variable [LinearOrder V]

theorem requested_pending {command : UpdateCommand V} {b : Option AdmissionBlock}
    (h : Admits state command) : Pending (state.requested command b now) :=
  fun _ => ⟨command, rfl, h.metadata⟩

theorem Ready.move {w' : World V} {A : Answer V → Prop}
    {R : GuardianState V → UpdateCommand V → Prop} (h : Ready w) (hmove : Move size A R w w') :
    Ready w' := by
  have hconcat : ∀ {records : List (GuardianState V)} {state : GuardianState V}, Pending state →
      ∀ latest ∈ (records ++ [state]).getLast?, Pending latest := by
    intro records state hst latest hlatest
    rw [List.getLast?_concat] at hlatest
    cases hlatest
    exact hst
  cases hmove with
  | stay | refused | staged | activated | restored | healthy =>
    exact { h with }
  | recorded hfol =>
    exact ⟨h.config, hfol.pending h.pending, hconcat (hfol.pending h.pending)⟩
  | unacknowledged hfol => exact ⟨h.config, h.pending, hconcat (hfol.pending h.pending)⟩
  | accepted hadm =>
    exact ⟨h.config, requested_pending hadm, hconcat (requested_pending hadm)⟩
  | rejected hadm =>
    exact ⟨h.config, fun _ => ⟨_, rfl, hadm.metadata⟩, h.latest⟩
  | unanswered hadm =>
    exact ⟨h.config, fun _ => ⟨_, rfl, hadm.metadata⟩, hconcat (requested_pending hadm)⟩

theorem ready_of_run (size : GuardianState V → Nat) (ops : List (Op V)) : (run size ops).Holds Ready
      fun file _ => ∀ state ∈ file.records.getLast?, Pending state := by
  refine invariant (A := fun _ => True) (R := fun _ _ => True) (C := fun _ _ => True)
    nofun (fun w hw => hw.latest) ?_ (fun _ _ _ _ _ => trivial)
    (fun _ _ _ _ _ _ _ _ _ _ _ _ => trivial) (fun _ _ w w' hw hmove => hw.move hmove)
    (Run.meets_of_forall (fun _ _ _ => trivial) _)
  rintro m config release now - hval hm state rfl
  refine ⟨hval, ?_, hm⟩
  cases hlatest : m.file.records.getLast? with
  | none => nofun
  | some latest => exact hm latest hlatest

/-! ### Runs of checks -/

/-- The operation ends, and not for the sake of the journal. -/
def Persists (size : GuardianState V → Nat) (m : Machine V) (op : Op V) : Prop :=
  ∃ result, (m.step size op).result = some result ∧
    ∀ error, result = .error error → error.isPersistence = false

theorem checked_call (hrunning : m.running = some guardian)
    (hph : guardian.state.phase = .healthChecking plan startedAt deadline attempts)
    (hpend : Pending guardian.state) (hpers : Persists size m call.op)
    (hobserved : Observed call.op) : ∃ guardian', (m.step size call.op).running = some guardian' ∧
      Checked guardian plan startedAt deadline attempts call.now guardian' := by
  obtain ⟨command, hcmd, -⟩ := hpend (by rw [hph]; rfl)
  obtain ⟨activity, now, answers⟩ := call
  obtain ⟨result, hres, hjr⟩ := hpers
  simp only [Call.op, step, call, hrunning, advance, hph] at hres ⊢
  cases answers with
  | nil => cases hres
  | cons answer answers =>
  obtain ⟨observation, hobs⟩ := hobserved answer rfl
  obtain ⟨trace, hrun⟩ := run_observe plan.staged _ answer answers ⟨m.file, guardian, m.trace⟩
  rw [hrun, hobs] at hres ⊢
  cases observation with
  | healthy =>
    rw [hcmd] at hres ⊢
    refine checked_of_record (fun fault => complete_result.mono ?_) hres hjr
    rintro _ ⟨state, hst, rfl⟩
    exact .decided (.inl hst)
  | unhealthy reason =>
    exact checked_of_record (checked_transition (.decided (.inr ⟨_, rfl⟩))) hres hjr
  | pending =>
    split_ifs at hres ⊢ with hended
    · exact checked_of_record (checked_transition (.decided (.inr ⟨_, rfl⟩))) hres hjr
    · -- the counter does not saturate below the bound
      have hbd := guardian.config.maxHealthAttempts.toNat_lt
      have hnext : min (attempts + 1) (2 ^ 32 - 1) = attempts + 1 := by omega
      rw [hnext] at hres hended ⊢
      refine checked_of_record (checked_transition (.pending ?_ ?_)) hres hjr
      · omega
      · omega

/-- The checks end with the attempts, or with the first call past the deadline. -/
theorem checked_run (calls : List (Call V)) (hrun : m.running = some guardian)
    (hph : guardian.state.phase = .healthChecking plan startedAt deadline attempts)
    (hpend : Pending guardian.state)
    (hmeets : Run.Meets (step size) (fun m op => Persists size m op ∧ Observed op) m
      (calls.map Call.op))
    (hlong : (calls ≠ [] ∧ guardian.config.maxHealthAttempts.toNat ≤ attempts + calls.length) ∨
      ∃ call ∈ calls, deadline ≤ call.now) :
    ∃ k, (k ≤ 1 ∨ k + attempts ≤ guardian.config.maxHealthAttempts.toNat) ∧
      (∀ i call, calls[i]? = some call → deadline ≤ call.now → k ≤ i + 1) ∧
      ∃ guardian', (Run.exec (step size) m ((calls.take k).map Call.op)).running =
        some guardian' ∧ guardian'.state.phase.Decided plan := by
  induction calls generalizing m guardian attempts with
  | nil => simp at hlong
  | cons call calls ih =>
    obtain ⟨⟨hpers, hobs⟩, hrest⟩ := hmeets
    obtain ⟨guardian', hrun', hchk⟩ :=
      checked_call hrun hph hpend hpers hobs
    cases hchk with
    | decided hdec => exact ⟨1, .inl le_rfl, fun i _ _ _ => by omega, _, hrun', hdec⟩
    | pending hdeadline hatts =>
      obtain ⟨k, hk, hfst, hdec⟩ := ih hrun' rfl (fun _ => hpend (by rw [hph]; rfl)) hrest (by
          rcases hlong with ⟨-, hlen⟩ | ⟨late, hlate, hpast⟩
          · rw [List.length_cons] at hlen
            exact .inl ⟨List.ne_nil_of_length_pos (by omega), by dsimp only; omega⟩
          · rcases List.mem_cons.mp hlate with rfl | hlate
            · omega
            · exact .inr ⟨late, hlate, hpast⟩)
      refine ⟨k + 1, .inr (by dsimp only at hk; omega), fun i late hlate hpast => ?_, hdec⟩
      cases i with
      | zero =>
        cases hlate
        omega
      | succ i => exact Nat.succ_le_succ (hfst i late hlate hpast)

/-- **Health checking is bounded.**  From a guardian that checks, with a journal that
works and observations that succeed, the runtime is confirmed or its removal
recorded after at most so many calls as there are attempts, and at the latest with
the first call past the deadline. -/
theorem health_checking_bounded (size : GuardianState V → Nat) (ops : List (Op V))
    (hrunning : (run size ops).running = some guardian)
    (hphase : guardian.state.phase = .healthChecking plan startedAt deadline attempts)
    (calls : List (Call V))
    (hmeets : Run.Meets (step size) (fun m op => Persists size m op ∧ Observed op)
      (run size ops) (calls.map Call.op))
    (hlong : guardian.config.maxHealthAttempts.toNat ≤ calls.length ∨
      ∃ call ∈ calls, deadline ≤ call.now) : ∃ k ≤ guardian.config.maxHealthAttempts.toNat,
      (∀ i call, calls[i]? = some call → deadline ≤ call.now → k ≤ i + 1) ∧
      ∃ guardian', (Run.exec (step size) (run size ops)
        ((calls.take k).map Call.op)).running = some guardian' ∧
          guardian'.state.phase.Decided plan := by
  have hready : Ready ⟨_, guardian, _⟩ := (ready_of_run size ops).2 guardian hrunning
  have hpositive : guardian.config.maxHealthAttempts.toNat ≠ 0 := by
    intro hzero
    have hval := hready.config
    unfold GuardianConfig.validate at hval
    split_ifs at hval with _ _ hnone
    exact hnone (.inr (UInt32.toNat_inj.mp hzero))
  obtain ⟨k, hk, hfst, hdec⟩ := checked_run calls hrunning hphase hready.pending hmeets (by
    refine hlong.imp_left fun hlen => ⟨List.ne_nil_of_length_pos (by omega), by omega⟩)
  exact ⟨k, by omega, hfst, hdec⟩

namespace Sample

/-- A call with an observation. -/
def check (now : Int) (observation : Except String HealthObservation) : Call Nat :=
  ⟨idle, now, .replicate 2 { answer with observe := observation }⟩

end Sample

open Sample

/-- Three observations that are pending. -/
theorem health_checking_bounded_pending :
    let calls := List.replicate 3 (check 4 (.ok .pending))
    ∃ k ≤ 3, (∀ i call, calls[i]? = some call → 60003 ≤ call.now → k ≤ i + 1) ∧
      ∃ guardian', (Run.exec (step lineBytes)
        (run lineBytes activated) ((calls.take k).map Call.op)).running =
          some guardian' ∧ guardian'.state.phase.Decided ⟨⟨2, "b"⟩, ⟨1, "a"⟩⟩ := by
  have hcall : ∀ m : Machine Nat,
      (m.step lineBytes (check 4 (.ok .pending)).op).result = some (.ok ()) →
        Persists lineBytes m (check 4 (.ok .pending)).op ∧
          Observed (check 4 (.ok .pending)).op := by
    intro m hres
    refine ⟨⟨_, hres, nofun⟩, fun answer hans => ⟨.pending, ?_⟩⟩
    cases hans
    rfl
  have hst : (run lineBytes activated).running.map
      (fun guardian => (guardian.state.phase, guardian.config)) =
        some (.healthChecking ⟨⟨2, "b"⟩, ⟨1, "a"⟩⟩ 3 60003 0, config) := by
    decide +kernel
  obtain ⟨guardian, hrun, hgd⟩ := Option.map_eq_some_iff.mp hst
  obtain ⟨hph, hconfig⟩ := Prod.mk.inj hgd
  have hbounded := health_checking_bounded lineBytes activated hrun hph
    (List.replicate 3 (check 4 (.ok .pending)))
    ⟨hcall _ (by decide +kernel), hcall _ (by decide +kernel), hcall _ (by decide +kernel), trivial⟩
  rw [hconfig] at hbounded
  exact hbounded (.inl (by decide))

/-- Observations that fail leave the runtime active, past the deadline and after more
calls than there are attempts. -/
theorem failed_observations_undecided : (Run.exec (step lineBytes) (run lineBytes activated)
        (List.replicate 4 (check 100000 (.error "no answer")).op)).running.map
      (·.state.phase) = some (.healthChecking ⟨⟨2, "b"⟩, ⟨1, "a"⟩⟩ 3 60003 0) := by
  decide +kernel

end Piqae.Guardian
