/-
Piqae/Route/Installation.lean

The coordinator of one installation as a machine: its operations as data, the
installation stopped (a journal file) or running (a live coordinator over its
file), and runs of operations and restarts.

What one call can do to the documents is said once (`Reaches`): the document in
memory and the one on disk come from the document before the call, the file
before the call, or the document the operation attempts to journal (`attempt`).
So a property of documents that
every attempt keeps, and that the repair on opening keeps, holds of every
document the installation ever has in memory or on disk (`recorded_of_run`).
-/
import Piqae.Route.Coordinator

namespace Piqae

/-- A public mutating operation, with the inputs outside its control. -/
inductive Request
  | reconcile (printers : List DiscoveredPrinter) (inventoryRevision : Nat)
      (observedAt : DateTime) (outcome : PersistOutcome)
  | allocateObservationSequences (count : Nat) (outcome : PersistOutcome)
  | reserve (connectorId nativeId jobId : String) (nowUnixMs : Int)
      (reservationId fencingToken : Uuid) (fault : Fault)
  | registerAuthoritative (connectorId nativeId jobId : String)
      (reservation : CloudRouteReservation) (now : DateTime) (fault : Fault)
  | finish (connectorId jobId : String) (reservation : RouteReservation)
      (outcome : NativeHandoffOutcome) (nativeJobId : Option String) (observedAt : DateTime)
      (fault : Fault)
  | finishRuntime (connectorId jobId : String) (reservation : RouteReservation)
      (outcome : NativeHandoffOutcome) (nativeJobId : Option String) (observedAt : DateTime)
      (first second : Fault)
  | acknowledgeHandoffs (connectorId : String) (throughSequence : Nat) (fault : Fault)
  | compactLocalTerminalHandoffs (connectorId : String) (commits : List LocalHandoffCommit)
      (fault : Fault)
  | resolveAmbiguousHandoff (identity : HandoffIdentity)
      (resolution : AmbiguousHandoffResolution) (fault : Fault)

/-- Forget the value of a result. -/
def outcomeOnly {α σ : Type} (r : Fallible α × σ) : Fallible Unit × σ :=
  (r.1.map fun _ => (), r.2)

namespace RouteCoordinator

variable (enc : Encoders)

/-- Run a request: success or error, and the coordinator afterwards. -/
def call (c : RouteCoordinator) : Request → Fallible Unit × RouteCoordinator
  | .reconcile printers inventoryRevision observedAt outcome =>
    outcomeOnly (c.reconcile enc printers inventoryRevision observedAt outcome)
  | .allocateObservationSequences count outcome =>
    outcomeOnly (c.allocateObservationSequences count outcome)
  | .reserve connectorId nativeId jobId now reservationId fencingToken fault =>
    outcomeOnly (c.reserve enc connectorId nativeId jobId now reservationId fencingToken fault)
  | .registerAuthoritative connectorId nativeId jobId reservation now fault =>
    outcomeOnly (c.registerAuthoritative enc connectorId nativeId jobId reservation now fault)
  | .finish connectorId jobId reservation outcome nativeJobId observedAt fault =>
    c.finish enc connectorId jobId reservation outcome nativeJobId observedAt fault
  | .finishRuntime connectorId jobId reservation outcome nativeJobId observedAt first second =>
    c.finishRuntime enc connectorId jobId reservation outcome nativeJobId observedAt first second
  | .acknowledgeHandoffs connectorId throughSequence fault =>
    c.acknowledgeHandoffs connectorId throughSequence fault
  | .compactLocalTerminalHandoffs connectorId commits fault =>
    outcomeOnly (c.compactLocalTerminalHandoffs connectorId commits fault)
  | .resolveAmbiguousHandoff identity resolution fault =>
    c.resolveAmbiguousHandoff enc identity resolution fault

end RouteCoordinator

/-- The document a request computes from `d` and attempts to journal. -/
def CoordinatorDocument.attempt (enc : Encoders) (d : CoordinatorDocument) :
    Request → Fallible CoordinatorDocument
  | .reconcile printers inventoryRevision observedAt _ =>
    .ok (d.reconcile enc printers inventoryRevision observedAt).2
  | .allocateObservationSequences count _ =>
    RouteCoordinator.reserveObservations d (min count maxRoutes)
  | .reserve connectorId nativeId jobId now reservationId fencingToken _ =>
    (d.reserveInner enc connectorId nativeId jobId now reservationId fencingToken).map Prod.snd
  | .registerAuthoritative connectorId nativeId jobId reservation now _ =>
    (d.registerAuthoritativeInner enc connectorId nativeId jobId reservation now).map Prod.snd
  | .finish connectorId jobId reservation outcome nativeJobId observedAt _ =>
    d.finishInner enc connectorId jobId reservation outcome nativeJobId observedAt
  | .finishRuntime connectorId jobId reservation outcome nativeJobId observedAt _ _ =>
    d.finishInner enc connectorId jobId reservation outcome nativeJobId observedAt
  | .acknowledgeHandoffs connectorId throughSequence _ =>
    d.acknowledgeHandoffs connectorId throughSequence
  | .compactLocalTerminalHandoffs connectorId commits _ =>
    (d.compactLocalTerminalHandoffs connectorId commits).map Prod.snd
  | .resolveAmbiguousHandoff identity resolution _ =>
    d.resolveAmbiguousHandoffInner enc identity resolution

/-! ### What one call can do to the documents -/

/-- Where the documents after an operation come from: from before it, or from
the document it attempted to journal. -/
structure Reaches (attempted : Fallible CoordinatorDocument) (c c' : RouteCoordinator) : Prop where
  document : c'.document = c.document ∨ c.journal = some c'.document ∨
    attempted = .ok c'.document
  journal : c'.journal = c.journal ∨ ∃ d, attempted = .ok d ∧ c'.journal = some d

theorem Reaches.refl {attempted : Fallible CoordinatorDocument} (c : RouteCoordinator) :
    Reaches attempted c c := ⟨.inl rfl, .inl rfl⟩

/-- A second attempt of the same operation from the same document. -/
theorem Reaches.trans_retry {attempted : Fallible CoordinatorDocument} {c c₁ c₂ : RouteCoordinator}
    (h₁ : Reaches attempted c c₁) (hd : c₁.document = c.document) (h₂ : Reaches attempted c₁ c₂) :
    Reaches attempted c c₂ := by
  constructor
  · rcases h₂.document with h | h | h
    · exact .inl (h.trans hd)
    · rcases h₁.journal with hj | ⟨d, ha, hj⟩
      · exact .inr (.inl (hj ▸ h))
      · rw [hj] at h
        exact .inr (.inr (ha.trans (congrArg Except.ok (Option.some.inj h))))
    · exact .inr (.inr h)
  · rcases h₂.journal with h | h
    · rcases h₁.journal with hj | hj
      · exact .inl (h.trans hj)
      · exact .inr (h ▸ hj)
    · exact .inr h

namespace RouteCoordinator

variable {enc : Encoders} {c : RouteCoordinator} {α : Type} {fault : Fault}
  {attempted : CoordinatorDocument} {inner : Fallible (α × CoordinatorDocument)} {value : α}
  {plain : Fallible CoordinatorDocument}
  {c' : RouteCoordinator} {error : List String}

theorem ensureOperational_eq_ok_iff : c.ensureOperational = .ok () ↔ c.poisoned = false := by
  unfold ensureOperational
  cases c.poisoned <;> simp [bail]

/-- What a failed write leaves behind with the file: the previous document if
the file is proven to hold it, and a fail-stopped coordinator otherwise. -/
def Adopts (c : RouteCoordinator) (journal : Option CoordinatorDocument)
    (previous : CoordinatorDocument) (c' : RouteCoordinator) : Prop :=
  journal = some previous ∧ c' = { c with journal := journal, document := previous } ∨
    ∃ d, (d = previous ∨ journal = some d) ∧
      c' = { c with journal := journal, document := d, poisoned := true }

theorem adoptAfterFailure_adopts (previous : CoordinatorDocument) (readBack : Bool) :
    c.Adopts c.journal previous (c.adoptAfterFailure previous readBack) := by
  unfold adoptAfterFailure
  split
  · rename_i disk hdisk
    have hj : c.journal = some disk := by
      cases readBack
      · simp at hdisk
      · simpa using hdisk
    split
    · rename_i heq
      exact .inl ⟨heq ▸ hj, rfl⟩
    · exact .inr ⟨disk, .inr hj, rfl⟩
  · exact .inr ⟨previous, .inl rfl, rfl⟩

/-- **What a transaction does**: it refuses without any change, or it commits,
or its write fails and the coordinator adopts what the file holds. -/
theorem transact_cases (inner : Fallible (α × CoordinatorDocument)) (fault : Fault) :
    (∃ error, (c.poisoned = true ∨ inner = .error error) ∧
      c.transact inner fault = (.error error, c)) ∨
    ∃ value attempted, c.poisoned = false ∧ inner = .ok (value, attempted) ∧
      (c.transact inner fault =
          (.ok value, { c with document := attempted, journal := some attempted }) ∨
        ∃ error c' j, (j = c.journal ∨ j = some attempted) ∧ c.Adopts j c.document c' ∧
          c.transact inner fault = (.error error, c')) := by
  unfold transact
  rcases hop : c.ensureOperational with error | ⟨⟩
  · refine .inl ⟨error, .inl ?_, rfl⟩
    by_contra hp
    cases hop.symm.trans (ensureOperational_eq_ok_iff.mpr (Bool.not_eq_true _ ▸ hp))
  rcases inner with error | ⟨value, attempted⟩
  · exact .inl ⟨error, .inr rfl, rfl⟩
  right
  refine ⟨value, attempted, ensureOperational_eq_ok_iff.mp hop, rfl, ?_⟩
  rcases fault with ⟨persist, readBack⟩
  cases persist
  case written => exact .inl rfl
  case failedBeforeReplace =>
    exact .inr ⟨_, _, _, .inl rfl,
      adoptAfterFailure_adopts (c := { c with document := attempted }) _ readBack, rfl⟩
  case failedAfterReplace =>
    exact .inr ⟨_, _, _, .inr rfl, adoptAfterFailure_adopts
      (c := { c with document := attempted, journal := some attempted }) _ readBack, rfl⟩

theorem transact_reaches : Reaches (inner.map Prod.snd) c (c.transact inner fault).2 := by
  rcases transact_cases (c := c) inner fault with ⟨error, -, h⟩ |
    ⟨value, attempted, -, rfl, h | ⟨error, c', j, hj, hadopts, h⟩⟩
  · rw [h]
    exact .refl c
  · rw [h]
    exact ⟨.inr (.inr rfl), .inr ⟨attempted, rfl, rfl⟩⟩
  · rw [h]
    obtain ⟨-, rfl⟩ | ⟨d, hd, rfl⟩ := hadopts
    · exact ⟨.inl rfl, hj.imp_right fun hj => ⟨attempted, rfl, hj⟩⟩
    refine ⟨?_, hj.imp_right fun hj => ⟨attempted, rfl, hj⟩⟩
    rcases hd with rfl | rfl
    · exact .inl rfl
    · rcases hj with hj | hj
      · exact .inr (.inl hj.symm)
      · exact .inr (.inr (congrArg Except.ok (Option.some.inj hj).symm))

/-- A transaction that succeeds leaves the attempted document in memory and on
disk. -/
theorem transact_ok (h : c.transact inner fault = (.ok value, c')) :
    c.poisoned = false ∧ ∃ attempted, inner = .ok (value, attempted) ∧
      c' = { c with document := attempted, journal := some attempted } := by
  rcases transact_cases (c := c) inner fault with ⟨error, -, h'⟩ |
    ⟨value', attempted, hp, hinner, h' | ⟨error, c₁, j, -, -, h'⟩⟩
  · cases h.symm.trans h'
  · obtain ⟨hv, hc⟩ := Prod.mk.inj (h.symm.trans h')
    cases hv
    exact ⟨hp, attempted, hinner, hc⟩
  · cases (Prod.mk.inj (h.symm.trans h')).1

/-- A transaction whose write succeeds commits what it computed. -/
theorem transact_written (hp : c.poisoned = false)
    (hinner : inner = .ok (value, attempted)) (hfault : fault.persist = .written) :
    c.transact inner fault =
      (.ok value, { c with document := attempted, journal := some attempted }) := by
  simp only [transact, ensureOperational_eq_ok_iff.mpr hp, hinner, commitDocumentChange, hfault,
    persist]

theorem transact_unit_written (hp : c.poisoned = false) (hinner : plain = .ok attempted)
    (hfault : fault.persist = .written) : c.transact (unitResult plain) fault =
      (.ok (), { c with document := attempted, journal := some attempted }) :=
  transact_written hp (congrArg unitResult hinner) hfault

theorem unitResult_eq_ok {u : Unit} (h : unitResult plain = .ok (u, attempted)) :
    plain = .ok attempted := by
  obtain ⟨d, hd, heq⟩ := Except.map_eq_ok h
  rw [hd, show d = attempted from congrArg Prod.snd heq]

theorem transact_unit_ok (h : c.transact (unitResult plain) fault = (.ok (), c')) :
    c.poisoned = false ∧ ∃ attempted, plain = .ok attempted ∧
      c' = { c with document := attempted, journal := some attempted } := by
  obtain ⟨hp, d', hinner, hc'⟩ := transact_ok h
  exact ⟨hp, d', unitResult_eq_ok hinner, hc'⟩

/-- What cannot be computed is refused without a change. -/
theorem transact_unit_refused (hplain : plain = .error error) :
    ∃ error, c.transact (unitResult plain) fault = (.error error, c) := by
  rcases transact_cases (c := c) (unitResult plain) fault with ⟨error, -, h⟩ |
    ⟨value, attempted, -, hok, -⟩
  · exact ⟨error, h⟩
  · rw [hplain] at hok
    cases hok

/-- A transaction that fails without fail-stopping changes nothing in memory. -/
theorem transact_rolledBack
    (h : c.transact inner fault = (.error error, c')) (hp : c'.poisoned = false) :
    c'.document = c.document := by
  rcases transact_cases (c := c) inner fault with ⟨error, -, h'⟩ |
    ⟨value, attempted, -, -, h' | ⟨error, c₁, j, -, hadopts, h'⟩⟩
  · cases h.symm.trans h'
    rfl
  · cases h.symm.trans h'
  · obtain rfl := (Prod.mk.inj (h.symm.trans h')).2
    obtain ⟨-, rfl⟩ | ⟨d, -, rfl⟩ := hadopts
    · rfl
    · cases hp

/-- A transaction that had something to commit and does not fail-stop leaves
memory and disk in agreement. -/
theorem transact_synced (hp : c.poisoned = false) (hinner : inner = .ok (value, attempted))
    (hp' : (c.transact inner fault).2.poisoned = false) :
    (c.transact inner fault).2.journal = some (c.transact inner fault).2.document := by
  rcases transact_cases (c := c) inner fault with ⟨error, hp₁ | he, -⟩ |
    ⟨value', attempted', -, -, h | ⟨error, c₁, j, -, hadopts, h⟩⟩
  · cases hp.symm.trans hp₁
  · cases hinner.symm.trans he
  · rw [h]
  · rw [h] at hp' ⊢
    obtain ⟨hj, rfl⟩ | ⟨d, -, rfl⟩ := hadopts
    · exact hj
    · cases hp'

theorem reconcile_reaches (printers : List DiscoveredPrinter) (inventoryRevision : Nat)
    (observedAt : DateTime) (outcome : PersistOutcome) :
    Reaches (.ok (c.document.reconcile enc printers inventoryRevision observedAt).2) c
      (c.reconcile enc printers inventoryRevision observedAt outcome).2 := by
  unfold reconcile
  rcases c.ensureOperational with error | ⟨⟩
  · exact .refl c
  · cases outcome
    case written => exact ⟨.inr (.inr rfl), .inr ⟨_, rfl, rfl⟩⟩
    case failedBeforeReplace => exact ⟨.inr (.inr rfl), .inl rfl⟩
    case failedAfterReplace => exact ⟨.inr (.inr rfl), .inr ⟨_, rfl, rfl⟩⟩

theorem extendReservation_reaches (bounded : Nat) (outcome : PersistOutcome) :
    Reaches (reserveObservations c.document bounded) c (c.extendReservation bounded outcome).2 := by
  unfold extendReservation
  rcases reserveObservations c.document bounded with error | d
  · exact .refl c
  · cases outcome
    case written => exact ⟨.inr (.inr rfl), .inr ⟨_, rfl, rfl⟩⟩
    case failedBeforeReplace => exact ⟨.inr (.inr rfl), .inl rfl⟩
    case failedAfterReplace => exact ⟨.inr (.inr rfl), .inr ⟨_, rfl, rfl⟩⟩

theorem allocateObservationSequences_reaches (count : Nat) (outcome : PersistOutcome) :
    Reaches (reserveObservations c.document (min count maxRoutes)) c
      (c.allocateObservationSequences count outcome).2 := by
  have hext := extendReservation_reaches (c := c) (min count maxRoutes) outcome
  unfold allocateObservationSequences
  rcases c.ensureOperational with error | ⟨⟩
  · exact .refl c
  by_cases hb : min count maxRoutes = 0
  · rw [if_pos hb]
    exact .refl c
  rw [if_neg hb]
  rcases checkedAdd c.nextObservationSequence (min count maxRoutes - 1) with - | through
  · exact .refl c
  dsimp only
  by_cases hr : through > c.reservedObservationSequence
  · rw [if_pos hr]
    rcases e : c.extendReservation (min count maxRoutes) outcome with ⟨error | ⟨⟩, c'⟩
    · rw [e] at hext
      exact hext
    · rw [e] at hext
      rcases checkedAdd through 1 with - | next
      · exact hext
      · exact ⟨hext.document, hext.journal⟩
  · rw [if_neg hr]
    rcases checkedAdd through 1 with - | next
    · exact .refl c
    · exact ⟨.inl rfl, .inl rfl⟩

theorem map_snd_unitResult : (unitResult plain).map Prod.snd = plain := by
  cases plain <;> rfl

theorem transact_unit_reaches : Reaches plain c (c.transact (unitResult plain) fault).2 := by
  have h : Reaches _ c (c.transact (unitResult plain) fault).2 := transact_reaches
  rwa [map_snd_unitResult] at h

/-- A retried operation runs once, or a second time when the first failed
without fail-stopping; otherwise it fail-stops. -/
theorem retryOnce_cases (operation : RouteCoordinator → Fault → Fallible Unit × RouteCoordinator)
    (first second : Fault) :
    (c.retryOnce operation first second = operation c first ∧ (operation c first).1 = .ok ()) ∨
    ∃ error c₁, operation c first = (.error error, c₁) ∧ (c₁.poisoned = true ∧
          c.retryOnce operation first second = (.error (failStopped :: error), c₁) ∨
        c₁.poisoned = false ∧ (c.retryOnce operation first second = operation c₁ second ∧
              (operation c₁ second).1 = .ok () ∨
            ∃ error₂ c₂, operation c₁ second = (.error error₂, c₂) ∧
              c.retryOnce operation first second =
                (.error (failStopped :: error), { c₂ with poisoned := true }))) := by
  unfold retryOnce
  rcases e : operation c first with ⟨error | ⟨⟩, c₁⟩
  · right
    refine ⟨error, c₁, rfl, ?_⟩
    rcases hp : c₁.poisoned with - | -
    · right
      refine ⟨rfl, ?_⟩
      rcases e₂ : operation c₁ second with ⟨error₂ | ⟨⟩, c₂⟩
      · right
        refine ⟨error₂, c₂, rfl, ?_⟩
        simp [hp, e₂]
      · left
        simp [hp, e₂]
    · left
      simp [hp]
  · exact .inl ⟨rfl, rfl⟩

theorem finishRuntime_reaches (connectorId jobId : String) (reservation : RouteReservation)
    (outcome : NativeHandoffOutcome) (nativeJobId : Option String) (observedAt : DateTime)
    (first second : Fault) :
    Reaches (c.document.finishInner enc connectorId jobId reservation outcome nativeJobId
        observedAt) c
      (c.finishRuntime enc connectorId jobId reservation outcome nativeJobId observedAt first
        second).2 := by
  have h₁ : Reaches _ c (c.finish enc connectorId jobId reservation outcome nativeJobId observedAt
    first).2 := transact_unit_reaches
  unfold finishRuntime
  rcases retryOnce_cases (c := c) (fun c fault => c.finish enc connectorId jobId reservation
    outcome nativeJobId observedAt fault) first second with
    ⟨h, -⟩ | ⟨error, c₁, e, ⟨-, h⟩ | ⟨hp, h⟩⟩
  · rw [h]
    exact h₁
  · rw [h]
    rw [e] at h₁
    exact h₁
  · -- the first attempt was rolled back, so the retry attempts the same document
    have hd : c₁.document = c.document := transact_rolledBack e hp
    rw [e] at h₁
    have h₂ : Reaches _ c₁ (c₁.finish enc connectorId jobId reservation outcome nativeJobId
      observedAt second).2 := transact_unit_reaches
    rw [hd] at h₂
    have h₁₂ := h₁.trans_retry hd h₂
    rcases h with ⟨h, -⟩ | ⟨error₂, c₂, e₂, h⟩
    · rw [h]
      exact h₁₂
    · rw [h]
      rw [e₂] at h₁₂
      exact ⟨h₁₂.document, h₁₂.journal⟩

theorem compactLocalTerminalHandoffs_reaches (connectorId : String)
    (commits : List LocalHandoffCommit) (fault : Fault) :
    Reaches ((c.document.compactLocalTerminalHandoffs connectorId commits).map Prod.snd) c
      (c.compactLocalTerminalHandoffs connectorId commits fault).2 := by
  unfold compactLocalTerminalHandoffs
  rcases c.ensureOperational with error | ⟨⟩
  · exact .refl c
  · dsimp only
    split
    · exact .refl c
    · exact transact_reaches

/-- **Where documents come from**: the documents after a request come from before it or are the
one it attempts to journal. -/
theorem call_reaches (enc : Encoders) (c : RouteCoordinator) (request : Request) :
    Reaches (c.document.attempt enc request) c (c.call enc request).2 := by
  cases request
  case reconcile => exact reconcile_reaches ..
  case allocateObservationSequences => exact allocateObservationSequences_reaches ..
  case reserve | registerAuthoritative => exact transact_reaches
  case finish | acknowledgeHandoffs | resolveAmbiguousHandoff => exact transact_unit_reaches
  case finishRuntime => exact finishRuntime_reaches ..
  case compactLocalTerminalHandoffs => exact compactLocalTerminalHandoffs_reaches ..

theorem transact_poisoned (hp : c.poisoned = true) : c.transact inner fault =
      (bail "route coordinator is fail-stopped after an ambiguous journal write", c) := by
  simp only [transact, ensureOperational, hp, if_true, bail]

/-- A fail-stopped coordinator refuses every request and stays as it is. -/
theorem call_poisoned (hp : c.poisoned = true) (request : Request) :
    (∃ error, (c.call enc request).1 = .error error) ∧ (c.call enc request).2 = c := by
  have hop : c.ensureOperational =
      bail "route coordinator is fail-stopped after an ambiguous journal write" := by
    simp only [ensureOperational, hp, if_true]
  -- whatever the request, its first check is that of the coordinator
  cases request
  all_goals
    simp only [call, outcomeOnly, reconcile, allocateObservationSequences, reserve,
      registerAuthoritative, finish, finishRuntime, retryOnce, acknowledgeHandoffs,
      compactLocalTerminalHandoffs, resolveAmbiguousHandoff, transact_poisoned hp, hop, hp, bail,
      if_true, Except.map, Except.error.injEq, exists_eq', and_self]

end RouteCoordinator

/-! ### The machine -/

/-- The coordinator of an installation: a journal file alone, or a live
coordinator over its file. -/
inductive Installation
  | stopped (journal : Option CoordinatorDocument)
  | running (coordinator : RouteCoordinator)
deriving DecidableEq

/-- One input of the machine: a restart, or a request to the live coordinator. -/
inductive Op
  | start (installationNamespace : Uuid) (outcome : PersistOutcome)
  | call (request : Request)

namespace Installation

variable (enc : Encoders)

/-- An installation that never ran. -/
def blank : Installation := stopped none

def journal : Installation → Option CoordinatorDocument
  | stopped journal => journal
  | running c => c.journal

/-- `RouteCoordinator::open` on the file the installation has. A failure
leaves it stopped. -/
def start (i : Installation) (installationNamespace : Uuid) (outcome : PersistOutcome) :
    Fallible Unit × Installation :=
  match RouteCoordinator.adopt enc i.journal installationNamespace with
  | .error error => (.error error, stopped i.journal)
  | .ok c =>
    match c.persist outcome with
    | (.ok (), c) => (.ok (), running c)
    | (.error error, c) => (.error error, stopped c.journal)

/-- One step. A request to a stopped installation does nothing. -/
def step (i : Installation) : Op → Installation
  | .start installationNamespace outcome => (i.start enc installationNamespace outcome).2
  | .call request =>
    match i with
    | stopped journal => stopped journal
    | running c => running (c.call enc request).2

/-- The state after a run of operations and restarts. -/
def run (i : Installation) (ops : List Op) : Installation := Run.exec (step enc) i ops

theorem run_call (c : RouteCoordinator) (request : Request) :
    run enc (running c) [.call request] = running (c.call enc request).2 := rfl

theorem run_append (i : Installation) (ops ops' : List Op) :
    run enc i (ops ++ ops') = run enc (run enc i ops) ops' :=
  Run.exec_append ..

/-! ### The documents of a run -/

/-- A property of every document the installation has, in memory or on disk. -/
structure Recorded (P : CoordinatorDocument → Prop) (i : Installation) : Prop where
  journal : ∀ d, i.journal = some d → P d
  document : ∀ c, i = running c → P c.document

/-- What makes a property of documents hold along a run: opening establishes
it from a sound journal, and every request whose input meets `C` keeps it. -/
structure Kept (P : CoordinatorDocument → Prop) (C : CoordinatorDocument → Request → Prop)
    (namespaces : Set Uuid) : Prop where
  start : ∀ journal ns c, ns ∈ namespaces → (∀ d, journal = some d → P d) →
    RouteCoordinator.adopt enc journal ns = .ok c → P c.document
  attempt : ∀ d d' request, P d → C d request → d.attempt enc request = .ok d' → P d'

variable {enc} {P : CoordinatorDocument → Prop} {i : Installation}
  {C : CoordinatorDocument → Request → Prop} {namespaces : Set Uuid}

/-- Opening repairs the journal, or a fresh document where there is none. -/
theorem Kept.of_repair (hfresh : ∀ ns ∈ namespaces, P (.fresh ns))
    (hrepair : ∀ d, P d → P (d.reconcileCoordinationKeys enc).pruneAbsentRoutes)
    (hatt : ∀ d d' request, P d → C d request → d.attempt enc request = .ok d' → P d') :
    Kept enc P C namespaces := by
  refine ⟨fun journal ns c hns hj h => ?_, hatt⟩
  rw [(RouteCoordinator.adopt_eq_ok_iff.mp h).2]
  cases journal with
  | none => exact hrepair _ (hfresh ns hns)
  | some d => exact hrepair d (hj d rfl)

/-- The condition a run's inputs meet: opening draws its namespace from the
given set, and each request satisfies `C` on the live document. -/
def InputsMeet (C : CoordinatorDocument → Request → Prop) (namespaces : Set Uuid)
    (i : Installation) : Op → Prop
  | .start ns _ => ns ∈ namespaces
  | .call request => ∀ c, i = running c → C c.document request

theorem recorded_start {ns : Uuid}
    (hopen : ∀ c, RouteCoordinator.adopt enc i.journal ns = .ok c → P c.document)
    (hj : ∀ d, i.journal = some d → P d) (outcome : PersistOutcome) :
    Recorded P (i.start enc ns outcome).2 := by
  unfold start
  rcases e : RouteCoordinator.adopt enc i.journal ns with error | c
  · exact ⟨hj, nofun⟩
  have hP := hopen c e
  have hcj : c.journal = i.journal := by
    rw [(RouteCoordinator.adopt_eq_ok_iff.mp e).2]
    rfl
  have hnew : ∀ d, some c.document = some d → P d := by
    rintro d ⟨⟩
    exact hP
  cases outcome
  case written => exact ⟨hnew, by rintro c' ⟨⟩; exact hP⟩
  case failedBeforeReplace => exact ⟨fun d hd => hj d (hcj ▸ hd), nofun⟩
  case failedAfterReplace => exact ⟨hnew, nofun⟩

theorem recorded_call {c : RouteCoordinator} {request : Request}
    (hatt : ∀ d, c.document.attempt enc request = .ok d → P d) (h : Recorded P (running c)) :
    Recorded P (running (c.call enc request).2) := by
  have hreach := RouteCoordinator.call_reaches enc c request
  constructor
  · intro d hd
    rcases hreach.journal with hj | ⟨d', ha, hj⟩
    · exact h.journal d (hj.symm.trans hd)
    · obtain rfl : d' = d := Option.some.inj (hj.symm.trans hd)
      exact hatt d' ha
  · rintro c' ⟨⟩
    rcases hreach.document with hd | hd | hd
    · rw [hd]
      exact h.document c rfl
    · exact h.journal _ hd
    · exact hatt _ hd

/-- One step keeps a property that opening establishes and attempts keep. -/
theorem recorded_step (hkept : Kept enc P C namespaces) (i : Installation) (op : Op)
    (h : Recorded P i) (hop : InputsMeet C namespaces i op) : Recorded P (step enc i op) := by
  cases op
  case start ns outcome =>
    exact recorded_start (fun c hc => hkept.start _ ns c hop h.journal hc) h.journal outcome
  case call request =>
    cases i
    case stopped => exact h
    case running c =>
      exact recorded_call
        (fun d hd => hkept.attempt _ d request (h.document c rfl) (hop c rfl) hd) h

theorem recorded_blank : Recorded P blank :=
  ⟨nofun, nofun⟩

/-- **Every document of a run**, in memory and on disk, has a property that
opening establishes and attempts keep. -/
theorem recorded_of_run (hkept : Kept enc P C namespaces) {ops : List Op}
    (hops : Run.Meets (step enc) (InputsMeet C namespaces) blank ops) :
    Recorded P (run enc blank ops) :=
  hops.invariant (recorded_step hkept) recorded_blank

/-! ### Properties that reach the journal -/

/-- `P` has reached the journal, and the live document while the coordinator
is operational. -/
structure Holding (P : CoordinatorDocument → Prop) (i : Installation) : Prop where
  journal : ∃ d, i.journal = some d ∧ P d
  document : ∀ c, i = running c → c.poisoned = false → P c.document

theorem Holding.step {op : Op} (h : Holding P i)
    (hrepair : ∀ d, P d → P (d.reconcileCoordinationKeys enc).pruneAbsentRoutes)
    (hatt : ∀ c request d, i = running c → op = .call request → P c.document →
      c.document.attempt enc request = .ok d → P d) : Holding P (step enc i op) := by
  obtain ⟨d, hd, hPd⟩ := h.journal
  cases op
  case start ns outcome =>
    simp only [Installation.step, start, hd]
    rcases e : RouteCoordinator.adopt enc (some d) ns with error | c
    · exact ⟨⟨d, rfl, hPd⟩, nofun⟩
    obtain ⟨-, rfl⟩ := RouteCoordinator.adopt_eq_ok_iff.mp e
    have hP := hrepair d hPd
    cases outcome
    case written => exact ⟨⟨_, rfl, hP⟩, by rintro c ⟨⟩ -; exact hP⟩
    case failedBeforeReplace => exact ⟨⟨d, rfl, hPd⟩, nofun⟩
    case failedAfterReplace => exact ⟨⟨_, rfl, hP⟩, nofun⟩
  case call request =>
    cases i
    case stopped => exact h
    case running c =>
      simp only [Installation.step]
      rcases hp : c.poisoned with - | -
      · have hPc := h.document c rfl hp
        have hrec : Recorded P (running c) := by
          refine ⟨fun d' hd' => ?_, by rintro c' ⟨⟩; exact hPc⟩
          cases hd.symm.trans hd'
          exact hPd
        have hrec' : Recorded P (running (c.call enc request).2) :=
          recorded_call (fun d' hd' => hatt c request d' rfl rfl hPc hd') hrec
        refine ⟨?_, fun c' hc' _ => hrec'.document c' hc'⟩
        rcases (RouteCoordinator.call_reaches enc c request).journal with
          hj | ⟨d', -, hj⟩
        · exact ⟨d, hj.trans hd, hPd⟩
        · exact ⟨d', hj, hrec'.journal d' hj⟩
      · rw [(RouteCoordinator.call_poisoned hp request).2]
        exact h

end Installation

end Piqae
