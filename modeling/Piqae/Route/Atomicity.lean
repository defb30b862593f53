/-
Piqae/Route/Atomicity.lean

Failure atomicity of the journal.  An operation that commits through
`commit_document_change` either reaches the file or is rolled back or
fail-stops the coordinator.  `Journaled` is what this keeps: while the
coordinator is operational, the file holds the document in memory.

`reconcile` and the extension of the observation range write the journal
themselves and keep the new document when the write fails; the results here
are about runs in which those two writes succeed (`Request.WritesThrough`).
-/
import Piqae.Route.Restart

namespace Piqae

/-- The operations that write the journal without a rollback have their write
succeed. -/
def Request.WritesThrough : Request → Prop
  | .reconcile _ _ _ outcome => outcome = .written
  | .allocateObservationSequences _ outcome => outcome = .written
  | _ => True

namespace CoordinatorDocument

variable {enc : Encoders} {d d' : CoordinatorDocument}

/-- Only the allocation of observation sequences moves the mark. -/
theorem observationSequence_attempt (request : Request) (h : d.attempt enc request = .ok d')
    (hother : ∀ count outcome, request ≠ .allocateObservationSequences count outcome) :
    d'.observationSequence = d.observationSequence := by
  rcases attempt_counted h with ⟨printers, inventoryRevision, observedAt, rfl⟩ |
    ⟨count, outcome, rfl⟩ | ⟨connectorId, throughSequence, hack⟩ | hsame
  · rw [topologyOnly_reconcile]
  · exact absurd rfl (hother count outcome)
  · rw [(acknowledgeHandoffs_ok hack).2]
  · exact congrArg (·.2.2.2) hsame

theorem counters_kept (enc : Encoders) :
    Installation.Kept enc Counters (fun _ _ => True) Set.univ :=
  .of_repair (fun ns _ => counters_fresh ns) (fun _ h => h.repair)
    (fun _ _ _ h _ hatt => h.attempt hatt)

end CoordinatorDocument

/-! ### One call -/

/-- While the coordinator is operational, the file holds its document, and the
numbers it hands out are within the range the document reserves. -/
structure Journaled (c : RouteCoordinator) : Prop where
  synced : c.poisoned = false → c.journal = some c.document
  reserved : c.poisoned = false → c.reservedObservationSequence = c.document.observationSequence
  next : c.nextObservationSequence ≤ c.reservedObservationSequence + 1

/-- The call keeps memory and file in agreement, and an error that does not
fail-stop has changed nothing. -/
structure Commits {α : Type} (c : RouteCoordinator) (r : Fallible α × RouteCoordinator) : Prop where
  journaled : Journaled r.2
  rolledBack : ∀ error, r.1 = .error error → r.2.poisoned = false → r.2.document = c.document

theorem Commits.outcomeOnly {α : Type} {c : RouteCoordinator} {r : Fallible α × RouteCoordinator}
    (h : Commits c r) : Commits c (outcomeOnly r) := by
  refine ⟨h.journaled, ?_⟩
  obtain ⟨result, c'⟩ := r
  intro error he hp
  cases result with
  | error e => exact h.rolledBack e rfl hp
  | ok value => cases he

open CoordinatorDocument

namespace RouteCoordinator

variable {enc : Encoders} {c : RouteCoordinator} {a b : Nat}

/-- **A transaction is atomic.** -/
theorem commits_transact (enc : Encoders) {α : Type} (h : Journaled c) (hp : c.poisoned = false)
    {inner : Fallible (α × CoordinatorDocument)} {fault : Fault} (request : Request)
    (hreq : inner.map Prod.snd = c.document.attempt enc request)
    (hother : ∀ count outcome, request ≠ .allocateObservationSequences count outcome) :
    Commits c (c.transact inner fault) := by
  rcases transact_cases (c := c) inner fault with ⟨error, -, hr⟩ |
    ⟨value, attempted, -, hinner, hr | ⟨error, c₁, j, -, hadopts, hr⟩⟩
  · rw [hr]
    exact ⟨h, fun _ _ _ => rfl⟩
  · rw [hr]
    refine ⟨⟨fun _ => rfl, fun _ => ?_, h.next⟩, nofun⟩
    rw [hinner] at hreq
    exact (h.reserved hp).trans (observationSequence_attempt request hreq.symm hother).symm
  · -- the write failed: memory follows the file, or the coordinator stops
    rw [hr]
    obtain ⟨hj, rfl⟩ | ⟨d, -, rfl⟩ := hadopts
    · exact ⟨⟨fun _ => hj, fun _ => h.reserved hp, h.next⟩, fun _ _ _ => rfl⟩
    · exact ⟨⟨nofun, nofun, h.next⟩, nofun⟩

/-- One exact retry of an atomic operation is atomic. -/
theorem commits_retryOnce (hp : c.poisoned = false) (h : Journaled c)
    {operation : RouteCoordinator → Fault → Fallible Unit × RouteCoordinator}
    (hop : ∀ c₁ fault, Journaled c₁ → c₁.poisoned = false →
      Commits c₁ (operation c₁ fault)) {first second : Fault} :
    Commits c (c.retryOnce operation first second) := by
  have hfst := hop c first h hp
  rcases retryOnce_cases (c := c) operation first second with
    ⟨hr, -⟩ | ⟨error, c₁, e, ⟨hp₁, hr⟩ | ⟨hp₁, hr⟩⟩
  · rw [hr]
    exact hfst
  · rw [hr]
    rw [e] at hfst
    exact ⟨hfst.journaled, fun _ _ hp' => (by cases hp₁.symm.trans hp')⟩
  · rw [e] at hfst
    have hd : c₁.document = c.document := hfst.rolledBack error rfl hp₁
    have hsnd := hop c₁ second hfst.journaled hp₁
    rcases hr with ⟨hr, -⟩ | ⟨error₂, c₂, e₂, hr⟩
    · rw [hr]
      exact ⟨hsnd.journaled, fun error he hp' => (hsnd.rolledBack error he hp').trans hd⟩
    · rw [hr]
      rw [e₂] at hsnd
      refine ⟨⟨nofun, nofun, hsnd.journaled.next⟩, ?_⟩
      intro _ _ hp'
      cases hp'

theorem checkedAdd_eq_some {n : Nat} (h : checkedAdd a b = some n) :
    n = a + b ∧ a + b ≤ u64Max := by
  unfold checkedAdd at h
  split_ifs at h with hle
  exact ⟨(Option.some.inj h).symm, hle⟩

theorem checkedAdd_eq_none (h : checkedAdd a b = none) : u64Max < a + b := by
  unfold checkedAdd at h
  split_ifs at h with hle
  omega

/-- The extension of the range, when its write succeeds: all or nothing. -/
theorem extendReservation_written {bounded : Nat} :
    (∃ error, c.extendReservation bounded .written = (.error error, c)) ∨
    ∃ d, reserveObservations c.document bounded = .ok d ∧
      c.extendReservation bounded .written = (.ok (), { c with
        document := d, journal := some d
        reservedObservationSequence := d.observationSequence }) := by
  unfold extendReservation
  rcases e : reserveObservations c.document bounded with error | d
  · exact .inl ⟨error, rfl⟩
  · exact .inr ⟨d, rfl, rfl⟩

theorem observationSequence_of_reserveObservations {bounded : Nat} {d d' : CoordinatorDocument}
    (h : reserveObservations d bounded = .ok d') :
    d'.observationSequence =
      d.observationSequence + max observationSequenceReservation bounded := by
  unfold reserveObservations at h
  rcases e : checkedAdd d.observationSequence (max observationSequenceReservation bounded) with
    - | n
  · rw [e] at h
    cases h
  · rw [e] at h
    cases h
    exact (checkedAdd_eq_some e).1

theorem commits_allocateObservationSequences (h : Journaled c) (hp : c.poisoned = false)
    (hcnt : Counters c.document) {count : Nat} :
    Commits c (c.allocateObservationSequences count .written) := by
  have hsame :
      Commits c (bail (α := List Nat) "route observation sequence space is exhausted", c) :=
    ⟨h, fun _ _ _ => rfl⟩
  have hnext := h.next
  have hres := h.reserved hp
  unfold allocateObservationSequences
  rw [ensureOperational_eq_ok_iff.mpr hp]
  by_cases hb : min count maxRoutes = 0
  · rw [if_pos hb]
    exact ⟨h, nofun⟩
  rw [if_neg hb]
  rcases hthrough : checkedAdd c.nextObservationSequence (min count maxRoutes - 1) with - | through
  · exact hsame
  dsimp only
  have hval := (checkedAdd_eq_some hthrough).1
  by_cases hr : through > c.reservedObservationSequence
  · rw [if_pos hr]
    rcases extendReservation_written (c := c) with ⟨error, hext⟩ | ⟨d, hd, hext⟩
    · rw [hext]
      exact ⟨h, fun _ _ _ => rfl⟩
    rw [hext]
    have hd' := hcnt.reserveObservations (Nat.min_le_right ..) hd
    have hmark := observationSequence_of_reserveObservations hd
    have hroom : through ≤ d.observationSequence := by
      rw [hmark]
      omega
    rcases hnew : checkedAdd through 1 with - | next
    · -- the range is reserved in whole steps, so it never ends at the last number
      have hlt := checkedAdd_eq_none hnew
      have hle := hd'.succ_le
      omega
    · obtain ⟨rfl, -⟩ := checkedAdd_eq_some hnew
      refine ⟨⟨fun _ => rfl, fun _ => rfl, ?_⟩, nofun⟩
      exact Nat.succ_le_succ hroom
  · rw [if_neg hr]
    rcases hnew : checkedAdd through 1 with - | next
    · exact hsame
    · obtain ⟨rfl, -⟩ := checkedAdd_eq_some hnew
      refine ⟨⟨h.synced, h.reserved, ?_⟩, nofun⟩
      exact Nat.succ_le_succ (Nat.le_of_not_lt hr)

theorem commits_reconcile (h : Journaled c) (hp : c.poisoned = false)
    {printers : List DiscoveredPrinter} {inventoryRevision : Nat} {observedAt : DateTime} :
    Commits c (c.reconcile enc printers inventoryRevision observedAt .written) := by
  unfold reconcile
  rw [ensureOperational_eq_ok_iff.mpr hp]
  refine ⟨⟨fun _ => rfl, fun _ => ?_, h.next⟩, nofun⟩
  exact (h.reserved hp).trans (observationSequence_attempt
    (.reconcile printers inventoryRevision observedAt .written) rfl nofun).symm

theorem commits_finish (h : Journaled c) (hp : c.poisoned = false) {connectorId jobId : String}
    {reservation : RouteReservation} {outcome : NativeHandoffOutcome} {nativeJobId : Option String}
    {observedAt : DateTime} {fault : Fault} :
    Commits c (c.finish enc connectorId jobId reservation outcome nativeJobId observedAt fault) :=
  commits_transact enc h hp (.finish _ _ _ _ _ _ fault) map_snd_unitResult nofun

/-- **A call is atomic** when the writes without rollback succeed. -/
theorem commits_call (h : Journaled c) (hp : c.poisoned = false)
    (hcnt : Counters c.document) {request : Request} (hC : request.WritesThrough) :
    Commits c (c.call enc request) := by
  cases request
  case reconcile outcome =>
    obtain rfl : outcome = .written := hC
    exact (commits_reconcile h hp).outcomeOnly
  case allocateObservationSequences outcome =>
    obtain rfl : outcome = .written := hC
    exact (commits_allocateObservationSequences h hp hcnt).outcomeOnly
  case reserve fault =>
    exact (commits_transact enc h hp (.reserve _ _ _ _ _ _ fault) rfl nofun).outcomeOnly
  case registerAuthoritative fault =>
    exact (commits_transact enc h hp (.registerAuthoritative _ _ _ _ _ fault) rfl nofun).outcomeOnly
  case finish => exact commits_finish h hp
  case finishRuntime connectorId jobId reservation outcome nativeJobId observedAt first second =>
    show Commits c (c.finishRuntime enc connectorId jobId reservation outcome nativeJobId
      observedAt first second)
    exact commits_retryOnce hp h fun c₁ fault h₁ hp₁ => commits_finish h₁ hp₁
  case acknowledgeHandoffs fault =>
    exact commits_transact enc h hp (.acknowledgeHandoffs _ _ fault) map_snd_unitResult nofun
  case compactLocalTerminalHandoffs fault =>
    refine .outcomeOnly ?_
    unfold compactLocalTerminalHandoffs
    rw [ensureOperational_eq_ok_iff.mpr hp]
    dsimp only
    split
    · exact ⟨h, nofun⟩
    · exact commits_transact enc h hp (.compactLocalTerminalHandoffs _ _ fault) rfl nofun
  case resolveAmbiguousHandoff fault =>
    exact commits_transact enc h hp (.resolveAmbiguousHandoff _ _ fault) map_snd_unitResult nofun

theorem validate_poisoned (hp : c.poisoned = true) (handle : RouteReservation) :
    ∃ error, c.validate handle = .error error := by
  simp [validate, ensureOperational, hp, bail]

end RouteCoordinator

/-! ### Whole runs -/

namespace Installation

variable {enc : Encoders} {c : RouteCoordinator}

theorem journaled_start {i : Installation} {ns : Uuid} {outcome : PersistOutcome}
    (h : (i.start enc ns outcome).2 = running c) : c.poisoned = false ∧ Journaled c := by
  unfold start at h
  rcases e : RouteCoordinator.adopt enc i.journal ns with error | c₁
  · rw [e] at h
    cases h
  rw [e] at h
  obtain ⟨-, rfl⟩ := RouteCoordinator.adopt_eq_ok_iff.mp e
  cases outcome
  case written =>
    cases h
    exact ⟨rfl, fun _ => rfl, fun _ => rfl, le_rfl⟩
  case failedBeforeReplace => cases h
  case failedAfterReplace => cases h

/-- A fail-stopped coordinator stays as it is until it is opened again. -/
theorem run_poisoned (hp : c.poisoned = true) (requests : List Request) :
    run enc (running c) (requests.map .call) = running c := by
  induction requests with
  | nil => rfl
  | cons request requests ih =>
    show run enc (running (c.call enc request).2) (requests.map .call) = running c
    rw [(RouteCoordinator.call_poisoned hp request).2]
    exact ih

/-- **Memory and file agree along every run** whose unprotected writes succeed. -/
theorem journaled_of_run {ops : List Op} (hops : Run.Meets (step enc)
      (InputsMeet (fun _ request => request.WritesThrough) Set.univ) blank ops)
    (hrun : run enc blank ops = running c) : Journaled c ∧ Counters c.document := by
  have hinv : Recorded Counters (run enc blank ops) ∧
      ∀ c, run enc blank ops = running c → Journaled c := by
    refine hops.invariant (P := fun i => Recorded Counters i ∧ ∀ c, i = running c → Journaled c)
      ?_ ⟨recorded_blank, nofun⟩
    intro i op ⟨hcnt, hjrd⟩ hop
    constructor
    · refine recorded_step (counters_kept enc) i op hcnt ?_
      cases op
      case start => exact Set.mem_univ _
      case call => exact fun _ _ => trivial
    · intro c hc
      cases op
      case start => exact (journaled_start hc).2
      case call request =>
        cases i
        case stopped => cases hc
        case running c₀ =>
          obtain rfl : (c₀.call enc request).2 = c := running.inj hc
          rcases hp : c₀.poisoned with - | -
          · exact (RouteCoordinator.commits_call (hjrd c₀ rfl) hp
              (hcnt.document c₀ rfl) (hop c₀ rfl)).journaled
          · rw [(RouteCoordinator.call_poisoned hp request).2]
            exact hjrd c₀ rfl
  exact ⟨hinv.2 c hrun, hinv.1.document c hrun⟩

end Installation

/-- **Journal failures are atomic.** In every state of every run in which the
writes of `reconcile` and of the allocation of observation sequences succeed,
and every other write may fail in any way: a call that returns an error and
does not fail-stop leaves the document as it was, in memory and on disk; if
memory and disk differ the coordinator is fail-stopped; and a fail-stopped
coordinator refuses every call and every validation until it is opened again. -/
theorem journal_failure_atomic {enc : Encoders} {ops : List Op}
    (hops : Run.Meets (Installation.step enc)
      (Installation.InputsMeet (fun _ request => request.WritesThrough) Set.univ) .blank ops)
    {c : RouteCoordinator} (hrun : Installation.run enc .blank ops = .running c) :
    (∀ request error, c.poisoned = false → request.WritesThrough →
      (c.call enc request).1 = .error error → (c.call enc request).2.poisoned = false →
        (c.call enc request).2.document = c.document ∧
          (c.call enc request).2.journal = some c.document) ∧
    (c.journal ≠ some c.document → c.poisoned = true) ∧
    (c.poisoned = true → ∀ requests : List Request,
      Installation.run enc (.running c) (requests.map .call) = .running c ∧
      (∀ request, ∃ error, (c.call enc request).1 = .error error) ∧
      ∀ handle, ∃ error, c.validate handle = .error error) := by
  obtain ⟨hjrd, hcnt⟩ := Installation.journaled_of_run hops hrun
  refine ⟨?_, ?_, ?_⟩
  · intro request error hp hC he hp'
    have hcommits : Commits c (c.call enc request) :=
      RouteCoordinator.commits_call hjrd hp hcnt hC
    have hd := hcommits.rolledBack error he hp'
    exact ⟨hd, hd ▸ hcommits.journaled.synced hp'⟩
  · intro hne
    by_contra hp
    exact hne (hjrd.synced (Bool.not_eq_true _ ▸ hp))
  · intro hp requests
    exact ⟨Installation.run_poisoned hp requests,
      fun request => (RouteCoordinator.call_poisoned hp request).1,
      RouteCoordinator.validate_poisoned hp⟩

open Sample

/-- A reservation whose write fails before the file is replaced leaves nothing. -/
theorem journal_failure_atomic_office :
    (openedCoordinator.call encoders (.reserve "cloud" "office" "job-1" 0 1#128 2#128
      ⟨.failedBeforeReplace, true⟩)).2.document = openedDocument := by
  have hmeets : Run.Meets (.step encoders)
      (Installation.InputsMeet (fun _ request => request.WritesThrough) Set.univ) .blank
        opened := by
    refine ⟨Set.mem_univ _, ?_, trivial⟩
    exact fun _ _ => rfl
  have hcall : ∃ error, (openedCoordinator.call encoders (.reserve "cloud" "office" "job-1" 0 1#128
        2#128 ⟨.failedBeforeReplace, true⟩)).1 = .error error ∧
      (openedCoordinator.call encoders (.reserve "cloud" "office" "job-1" 0 1#128 2#128
        ⟨.failedBeforeReplace, true⟩)).2.poisoned = false := by
    refine ⟨["route coordinator journal change was not committed",
      "injected route coordinator failure before replacement"], ?_⟩
    decide +kernel
  obtain ⟨error, he, hp⟩ := hcall
  refine ((journal_failure_atomic hmeets run_opened).1 _ error rfl ?_ he hp).1
  exact trivial

/-- A `reconcile` whose write fails before the file is replaced returns an error
and keeps the new document: the coordinator is operational, and memory differs
from the document before the call and from the file. -/
theorem failed_reconcile_kept :
    Installation.run encoders .blank opened = .running openedCoordinator ∧
    let r := openedCoordinator.call encoders (.reconcile [] 2 1 .failedBeforeReplace)
    r.1 = bail "injected route coordinator failure before replacement" ∧
    r.2.poisoned = false ∧ r.2.document ≠ openedCoordinator.document ∧
    r.2.journal = some openedCoordinator.document := by
  constructor
  · exact run_opened
  · decide +kernel

end Piqae
