/-
Piqae/Route/Sequences.lean

Observation sequences (`allocate_observation_sequences`) and handoff sequences along
every run of an installation, with restarts and failed writes.

The next observation number lives in memory only.  What makes it safe is the range in which
it lies: its end is in the document and in the file before a number of it is
handed out (`Ranged`), no request lowers the mark of a document, and a restart
goes on behind the mark of the file.
-/
import Piqae.Route.Atomicity

namespace Piqae

/-- The end of the range is recorded in memory and on disk, and the next number
is in the range or the first one behind it. -/
structure Ranged (c : RouteCoordinator) : Prop where
  next : c.nextObservationSequence ≤ c.reservedObservationSequence + 1
  document : c.reservedObservationSequence ≤ c.document.observationSequence
  journal : ∃ d, c.journal = some d ∧ c.reservedObservationSequence ≤ d.observationSequence

namespace RouteCoordinator

variable (enc : Encoders) {c c' : RouteCoordinator} {outcome : PersistOutcome}

/-! ### Requests that allocate nothing -/

/-- The next number and the end of its range. -/
def numbers (c : RouteCoordinator) : Nat × Nat :=
  (c.nextObservationSequence, c.reservedObservationSequence)

theorem numbers_transact {α : Type} (inner : Fallible (α × CoordinatorDocument)) (fault : Fault) :
    (c.transact inner fault).2.numbers = c.numbers := by
  rcases transact_cases (c := c) inner fault with ⟨error, -, h⟩ |
    ⟨value, attempted, -, -, h | ⟨error, c', j, -, ⟨-, rfl⟩ | ⟨d, -, rfl⟩, h⟩⟩
  all_goals exact congrArg (numbers ∘ Prod.snd) h

theorem numbers_retryOnce {operation : RouteCoordinator → Fault → Fallible Unit × RouteCoordinator}
    (hop : ∀ c fault, (operation c fault).2.numbers = c.numbers) (first second : Fault) :
    (c.retryOnce operation first second).2.numbers = c.numbers := by
  rcases retryOnce_cases (c := c) operation first second with
    ⟨h, -⟩ | ⟨error, c₁, e, ⟨-, h⟩ | ⟨-, ⟨h, -⟩ | ⟨error₂, c₂, e₂, h⟩⟩⟩
  · rw [h, hop]
  all_goals have hfst : c₁.numbers = c.numbers := by rw [← hop c first, e]
  · rw [h, hfst]
  · rw [h, hop, hfst]
  · rw [h, ← hfst, ← hop c₁ second, e₂]
    rfl

theorem numbers_call (request : Request)
    (hother : ∀ count outcome, request ≠ .allocateObservationSequences count outcome) :
    (c.call enc request).2.numbers = c.numbers := by
  cases request
  case reconcile outcome =>
    simp only [call, outcomeOnly, reconcile]
    rcases c.ensureOperational with error | ⟨⟩
    · rfl
    · cases outcome <;> rfl
  case allocateObservationSequences count outcome => exact absurd rfl (hother count outcome)
  case finishRuntime => exact numbers_retryOnce (fun _ _ => numbers_transact _ _) ..
  case compactLocalTerminalHandoffs fault =>
    simp only [call, outcomeOnly, compactLocalTerminalHandoffs]
    rcases c.ensureOperational with error | ⟨⟩
    · rfl
    · dsimp only
      split
      · rfl
      · exact numbers_transact _ fault
  all_goals exact numbers_transact _ _

/-! ### Allocations -/

/-- An extension that succeeds has room for the batch behind the old mark. -/
theorem extendReservation_ranged (h : Ranged c) {bounded : Nat} {extended : Fallible Unit}
    (e : c.extendReservation bounded outcome = (extended, c')) :
    Ranged c' ∧ c'.nextObservationSequence = c.nextObservationSequence ∧
      (extended = .ok () →
        c.document.observationSequence + bounded ≤ c'.reservedObservationSequence) := by
  unfold extendReservation at e
  rcases hd : reserveObservations c.document bounded with error | d
  · rw [hd] at e
    cases e
    exact ⟨h, rfl, nofun⟩
  have hmark := observationSequence_of_reserveObservations hd
  have hnext := h.next
  have hdoc := h.document
  have hle : c.reservedObservationSequence ≤ d.observationSequence := by omega
  rw [hd] at e
  cases outcome
  case written =>
    cases e
    refine ⟨⟨?_, le_rfl, d, rfl, le_rfl⟩, rfl, fun _ => ?_⟩ <;> dsimp only <;> omega
  case failedBeforeReplace =>
    cases e
    exact ⟨⟨hnext, hle, h.journal⟩, rfl, nofun⟩
  case failedAfterReplace =>
    cases e
    exact ⟨⟨hnext, hle, d, rfl, hle⟩, rfl, nofun⟩

/-- An allocation hands out the numbers from the next one on, or none. -/
def Hands (c : RouteCoordinator) (r : Fallible (List Nat) × RouteCoordinator) : Prop :=
  Ranged r.2 ∧ ∃ length, r.2.nextObservationSequence = c.nextObservationSequence + length ∧
    ∀ numbers, r.1 = .ok numbers → numbers = List.range' c.nextObservationSequence length

theorem hands_allocate (h : Ranged c) (count : Nat) (outcome : PersistOutcome) :
    c.Hands (c.allocateObservationSequences count outcome) := by
  unfold allocateObservationSequences
  rcases c.ensureOperational with error | ⟨⟩
  · exact ⟨h, 0, rfl, fun _ hn => by cases hn⟩
  dsimp only
  split
  · exact ⟨h, 0, rfl, fun _ hn => (Except.ok.inj hn).symm⟩
  next hb =>
  split
  · exact ⟨h, 0, rfl, fun _ hn => by cases hn⟩
  next through hthrough =>
  have hval := (checkedAdd_eq_some hthrough).1
  -- with or without an extension, the range then has the whole batch
  rcases hext : (if through > c.reservedObservationSequence
    then c.extendReservation (min count maxRoutes) outcome else (.ok (), c)) with ⟨extended, c₁⟩
  obtain ⟨hrng, hnext, hroom⟩ : Ranged c₁ ∧ c₁.nextObservationSequence =
      c.nextObservationSequence ∧
        (extended = .ok () → through ≤ c₁.reservedObservationSequence) := by
    split_ifs at hext with hr
    · obtain ⟨hrng, hnext, hroom⟩ := extendReservation_ranged h hext
      refine ⟨hrng, hnext, fun hok => ?_⟩
      have hle := hroom hok
      have hfst := h.next
      have hdoc := h.document
      omega
    · cases hext
      exact ⟨h, rfl, fun _ => Nat.le_of_not_lt hr⟩
  rcases extended with error | ⟨⟩
  · exact ⟨hrng, 0, hnext, fun _ hn => by cases hn⟩
  dsimp only
  split
  · exact ⟨hrng, 0, hnext, fun _ hn => by cases hn⟩
  next next hnew =>
  obtain ⟨rfl, -⟩ := checkedAdd_eq_some hnew
  refine ⟨⟨Nat.succ_le_succ (hroom rfl), hrng.document, hrng.journal⟩,
    through + 1 - c.nextObservationSequence, ?_, fun numbers hn => ?_⟩
  · dsimp only
    omega
  · rw [← hnext]
    exact (Except.ok.inj hn).symm

/-- No request gives numbers back. -/
theorem call_ranged (h : Ranged c) (request : Request) : Ranged (c.call enc request).2 ∧
    c.nextObservationSequence ≤ (c.call enc request).2.nextObservationSequence := by
  by_cases hother : ∀ count outcome, request ≠ .allocateObservationSequences count outcome
  · obtain ⟨hnext, hres⟩ := Prod.mk.inj (numbers_call enc (c := c) request hother)
    have hreach := call_reaches enc c request
    have hmark : ∀ d, c.document.attempt enc request = .ok d →
        c.reservedObservationSequence ≤ d.observationSequence := by
      intro d hatt
      rw [CoordinatorDocument.observationSequence_attempt request hatt hother]
      exact h.document
    obtain ⟨d, hd, hle⟩ := h.journal
    refine ⟨⟨?_, ?_, ?_⟩, hnext.ge⟩
    · rw [hnext, hres]
      exact h.next
    · rw [hres]
      rcases hreach.document with hsame | hfile | hatt
      · rw [hsame]
        exact h.document
      · rwa [← Option.some.inj (hd.symm.trans hfile)]
      · exact hmark _ hatt
    · rw [hres]
      rcases hreach.journal with hsame | ⟨d', hatt, hj⟩
      · exact ⟨d, hsame.trans hd, hle⟩
      · exact ⟨d', hj, hmark d' hatt⟩
  · simp only [ne_eq, not_forall, not_not] at hother
    obtain ⟨count, outcome, rfl⟩ := hother
    obtain ⟨hrng, length, hnext, -⟩ := hands_allocate h count outcome
    exact ⟨hrng, hnext ▸ Nat.le_add_right ..⟩

end RouteCoordinator

/-! ### Handoff sequences -/

/-- The records of the handoff journal are numbered in their order, up to the last
number given; only the largest number can be given twice. -/
structure Numbered (d : CoordinatorDocument) : Prop where
  last : d.handoffSequence ≤ u64Max
  given : ∀ n ∈ d.handoffs.map (·.sequence), n ≤ d.handoffSequence
  increasing : (d.handoffs.map (·.sequence)).Pairwise fun n n' => n < n' ∨ n' = u64Max

variable {d d' : CoordinatorDocument}

theorem Numbered.shrink (h : Numbered d) (hseq : d'.handoffSequence = d.handoffSequence)
    (hsub : (d'.handoffs.map (·.sequence)).Sublist (d.handoffs.map (·.sequence))) : Numbered d' :=
  ⟨hseq ▸ h.last, fun n hn => hseq ▸ h.given n (hsub.subset hn), h.increasing.sublist hsub⟩

theorem Numbered.attempt {enc : Encoders} {request : Request} (h : Numbered d)
    (hatt : d.attempt enc request = .ok d') : Numbered d' := by
  cases CoordinatorDocument.attempt_effect hatt with
  | finish _ _ _ _ _ record _ _ hfin =>
    have hseq : d'.handoffSequence = record.sequence :=
      hfin.handoffSequence.trans hfin.sequence.symm
    obtain ⟨hmax, hle, hnext⟩ : record.sequence ≤ u64Max ∧ d.handoffSequence ≤ record.sequence ∧
        (d.handoffSequence < record.sequence ∨ record.sequence = u64Max) := by
      have hlast := h.last
      rw [hfin.sequence, saturatingAdd]
      omega
    refine ⟨hseq ▸ hmax, ?_, ?_⟩ <;> rw [hfin.handoffs, List.map_append]
    · rw [hseq]
      exact forall_mem_concat (fun n hn => (h.given n hn).trans hle) le_rfl
    · refine List.pairwise_append.mpr ⟨h.increasing, List.pairwise_singleton .., ?_⟩
      intro n hn n' hn'
      obtain rfl := List.mem_singleton.mp hn'
      exact hnext.imp_left (h.given n hn).trans_lt
  | resolution _ _ _ _ _ _ _ _ _ hres =>
    -- a record keeps its number when it is resolved
    refine h.shrink hres.handoffSequence ?_
    rw [hres.handoffs, hres.split]
    split
    · exact (List.filter_sublist.map _).trans (by simp)
    · simp
  | compaction _ _ _ _ _ _ _ hkept hseq => exact h.shrink hseq (hkept ▸ List.filter_sublist.map _)
  | frame _ _ hsame hseq | localGrant _ _ _ _ _ _ _ hsame hseq
  | registration _ _ _ _ hsame hseq => exact h.shrink hseq (hsame ▸ .refl _)

/-! ### Whole runs -/

namespace Installation

variable (enc : Encoders)

/-- The numbers that a step hands out: those of an allocation that succeeds. -/
def handedOut (i : Installation) : Op → List Nat
  | .call (.allocateObservationSequences count outcome) =>
    match i with
    | stopped _ => []
    | running c => (c.allocateObservationSequences count outcome).1.toOption.getD []
  | _ => []

/-- The numbers that a run hands out, in the order of the calls. -/
def observationSequences (i : Installation) : List Op → List Nat
  | [] => []
  | op :: ops => i.handedOut op ++ observationSequences (step enc i op) ops

/-- The first number that can still be handed out. -/
def frontier : Installation → Nat
  | stopped journal => (journal.map (·.observationSequence + 1)).getD 0
  | running c => c.nextObservationSequence

variable {i : Installation}

/-- A step keeps what was handed out behind the frontier, over a restart, too. -/
theorem step_ranged (h : ∀ c, i = running c → Ranged c) (op : Op) :
    (∀ c, step enc i op = running c → Ranged c) ∧ i.frontier ≤ (step enc i op).frontier := by
  cases op
  case start ns outcome =>
    refine ⟨fun c hc => ?_, ?_⟩
    · obtain ⟨hp, hjrd⟩ := journaled_start hc
      have hres := (hjrd.reserved hp).le
      exact ⟨hjrd.next, hres, c.document, hjrd.synced hp, hres⟩
    have hfile : i.frontier ≤ (stopped i.journal).frontier := by
      cases i
      case stopped => exact le_rfl
      case running c =>
        obtain ⟨d, hd, hle⟩ := (h c rfl).journal
        simp only [frontier, Installation.journal, hd, Option.map_some, Option.getD_some]
        exact (h c rfl).next.trans (Nat.succ_le_succ hle)
    refine hfile.trans ?_
    simp only [step, start]
    rcases e : RouteCoordinator.adopt enc i.journal ns with error | c
    · exact le_rfl
    obtain ⟨-, rfl⟩ := RouteCoordinator.adopt_eq_ok_iff.mp e
    rcases i.journal with - | d
    · exact Nat.zero_le _
    · cases outcome <;> exact le_rfl
  case call request =>
    cases i
    case stopped => exact ⟨fun _ hc => (by cases hc), le_rfl⟩
    case running c =>
      obtain ⟨hrng, hle⟩ := RouteCoordinator.call_ranged enc (h c rfl) request
      exact ⟨by rintro c' ⟨⟩; exact hrng, hle⟩

/-- The numbers of one step are in order and between the frontiers. -/
theorem handedOut_ranged (h : ∀ c, i = running c → Ranged c) (op : Op) :
    (i.handedOut op).Pairwise (· < ·) ∧
      ∀ m ∈ i.handedOut op, i.frontier ≤ m ∧ m < (step enc i op).frontier := by
  unfold handedOut
  split
  · next count outcome =>
    cases i
    case stopped => exact ⟨.nil, nofun⟩
    case running c =>
      obtain ⟨-, length, hnext, hnumbers⟩ := RouteCoordinator.hands_allocate (h c rfl) count outcome
      dsimp only
      rcases e : (c.allocateObservationSequences count outcome).1 with error | numbers
      · exact ⟨.nil, fun m hm => absurd hm List.not_mem_nil⟩
      obtain rfl := hnumbers numbers e
      refine ⟨List.pairwise_lt_range' .., fun m hm => ?_⟩
      obtain ⟨hle, hlt⟩ := List.mem_range'_1.mp hm
      exact ⟨hle, hlt.trans_eq hnext.symm⟩
  · exact ⟨.nil, nofun⟩

/-- **Observation sequences are never reused**: over every run of requests and
restarts, from any journal and with writes that fail before or after they replace
it, the numbers handed out increase from call to call (and so do those that any
one route is given of them). -/
theorem observation_sequences_increase (journal : Option CoordinatorDocument) (ops : List Op) :
    (observationSequences enc (stopped journal) ops).Pairwise (· < ·) := by
  suffices h : ∀ i : Installation, (∀ c, i = running c → Ranged c) →
      (observationSequences enc i ops).Pairwise (· < ·) ∧
        ∀ m ∈ observationSequences enc i ops, i.frontier ≤ m from
    (h _ fun _ hc => by cases hc).1
  induction ops with
  | nil => exact fun _ _ => ⟨.nil, nofun⟩
  | cons op ops ih =>
    intro i h
    obtain ⟨hsorted, hbetween⟩ := handedOut_ranged enc h op
    obtain ⟨hrng, hfrontier⟩ := step_ranged enc h op
    obtain ⟨hrest, hlater⟩ := ih (step enc i op) hrng
    constructor
    · refine List.pairwise_append.mpr ⟨hsorted, hrest, fun m hm m' hm' => ?_⟩
      exact Nat.lt_of_lt_of_le (hbetween m hm).2 (hlater m' hm')
    · exact List.forall_mem_append.mpr
        ⟨fun m hm => (hbetween m hm).1, fun m hm => hfrontier.trans (hlater m hm)⟩

/-- **A handoff sequence names one record**: in memory and on disk, over every run of
requests and restarts with writes that fail, the records of the handoff journal have
increasing numbers. -/
theorem handoffs_numbered (ops : List Op) : Recorded Numbered (run enc blank ops) := by
  have hkept : Kept enc Numbered (fun _ _ => True) Set.univ :=
    .of_repair (fun _ _ => ⟨Nat.zero_le _, List.forall_mem_nil _, .nil⟩) (fun _ h => { h with })
      fun _ _ _ h _ hatt => h.attempt hatt
  refine recorded_of_run hkept (Run.meets_of_forall (fun op _ i => ?_) _)
  cases op <;> simp [InputsMeet]

end Installation

end Piqae
