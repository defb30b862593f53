/-
Piqae/Node/Interleaving.lean

The node as a whole: both threads keep their discipline in every run, so every
step of the machine makes one change of one party.

`Admits R` is the condition on a step that the regime asks for; it is about the
state in which the step is taken.
-/
import Piqae.Node.Commands

namespace Piqae

namespace Node

variable {R : Regime} {W : Worker} {n : Node} {op : NodeOp} {p : Party} {prog : Prog Unit}
  {s : Shared}

/-- Is a thread inside a call of the queue? -/
def inside (prog : Prog Unit) : Bool := prog.label?.any Label.continues

/-- May a thread take its next action? -/
def Ready (R : Regime) (store : AgentStore) (prog : Prog Unit) : Prop :=
  ∀ label ∈ prog.label?, (R.based → label.Based store) ∧ (R.handled → label.Handled store)

/-- The condition of a regime on one step. -/
def Admits (R : Regime) (n : Node) : NodeOp → Prop
  | .engine _ => Ready R n.shared.store n.engine ∧ (R.atomic → inside n.sync = false)
  | .sync _ => Ready R n.shared.store n.sync ∧ (R.atomic → inside n.engine = false)
  | .elsewhere _ => R.atomic → inside n.engine = false ∧ inside n.sync = false
  | _ => True

/-- The party whose programs the engine's thread runs. -/
def party (n : Node) : Party := if n.serving then .engine else .startup

abbrev SafeThread (R : Regime) (p : Party) (prog : Prog Unit) (s : Shared) : Prop :=
  Process.Safe (discipline R p) (fun _ _ => True) (fun _ _ => True) prog s

/-- Both threads keep their discipline. -/
structure Sound (R : Regime) (n : Node) : Prop where
  keyed : n.shared.store.Keyed
  engine : SafeThread R n.party n.engine n.shared
  sync : SafeThread R .sync n.sync n.shared
  /-- Before the node serves, the synchronization has nothing to do. -/
  resting : n.serving = false → n.sync = .done ()

theorem safe_of_free (h : Free R p prog) (hk : s.store.Keyed) : SafeThread R p prog s :=
  h s hk trivial

theorem safe_of_started (h : started prog = true) : SafeThread R p prog s := by
  cases prog with
  | done value => trivial
  | _ => cases h

theorem sound_blank : (blank W).Sound R :=
  ⟨AgentStore.keyed_empty, safe_of_free Reconcile.startup_free AgentStore.keyed_empty, trivial,
    fun _ => rfl⟩

theorem SafeThread.interfere {s' : Shared} (h : SafeThread R p prog s) (hv : s.store.Keyed)
    (hv' : s'.store.Keyed) (hrely : (discipline R p).rely s s')
    (hfree : R.atomic → inside prog = false) : SafeThread R p prog s' := by
  refine Process.Safe.interfere h hv hv' hrely ?_ (fun _ => Process.Discipline.Stable.const _)
    fun _ => Process.Discipline.Stable.const _
  rintro label hlab ⟨hatom, hcont⟩
  have := hfree hatom
  simp only [inside, hlab, Option.any_some, hcont] at this
  cases this

/-- One action of a thread. -/
theorem SafeThread.act (h : SafeThread R p prog s) (hk : s.store.Keyed)
    (hready : Ready R s.store prog) (input : Input) :
    Acts R p s (prog.advance input s).2 ∧ (prog.advance input s).2.store.Keyed ∧
      SafeThread R p (prog.advance input s).1 (prog.advance input s).2 := by
  cases prog with
  | act label =>
    obtain ⟨⟨hk', hacts⟩, hrest⟩ := h s hk .refl (fun _ => rfl) input (hready label rfl)
    exact ⟨hacts, hk', hrest⟩
  | _ => exact ⟨acts_refl hk, hk, h⟩

/-- A step is one change of one party, and it keeps the node sound. -/
theorem Sound.step (h : n.Sound R) (hop : n.Admits R op) :
    (∃ p, Acts R p n.shared (n.step W op).shared ∧ (p = .sync → ∃ input, op = .sync input)) ∧
      (n.step W op).Sound R := by
  have hstay : ∃ p, Acts R p n.shared n.shared ∧ (p = .sync → ∃ input, op = .sync input) :=
    ⟨.engine, acts_refl h.keyed, nofun⟩
  cases op with
  | crash =>
    refine ⟨⟨.startup, ⟨[.crashed], .quiet (.refl h.keyed) ?_, ?_⟩, nofun⟩, ⟨h.keyed, ?_, trivial,
      fun _ => rfl⟩⟩
    · intro m hm
      obtain rfl := List.mem_singleton.mp hm
      trivial
    · show n.shared.history ++ [Milestone.crashed] =
        (n.shared.putStore n.shared.store).history ++ [.crashed]
      rw [putStore_same]
    · exact safe_of_free Reconcile.startup_free h.keyed
  | engine input =>
    obtain ⟨hready, hfree⟩ := hop
    obtain ⟨hacts, hk, hsafe⟩ := h.engine.act h.keyed hready input
    refine ⟨⟨n.party, hacts, ?_⟩, ⟨hk, hsafe, ?_, h.resting⟩⟩
    · intro hp
      unfold party at hp
      split at hp <;> cases hp
    rcases hserv : n.serving with - | -
    · -- at start-up the synchronization has nothing to do
      show SafeThread R .sync n.sync _
      rw [h.resting hserv]
      trivial
    · have hp : n.party = .engine := by simp [party, hserv]
      rw [hp] at hacts
      obtain ⟨ms, hch, -⟩ := hacts
      exact h.sync.interfere h.keyed hk (.single ⟨ms, hch⟩) hfree
  | sync input =>
    obtain ⟨hready, hfree⟩ := hop
    obtain ⟨hacts, hk, hsafe⟩ := h.sync.act h.keyed hready input
    refine ⟨⟨.sync, hacts, fun _ => ⟨input, rfl⟩⟩, ⟨hk, ?_, hsafe, ?_⟩⟩
    · obtain ⟨ms, hch, -⟩ := hacts
      have hrival : n.party.rival = .sync := by
        unfold party
        split <;> rfl
      refine h.engine.interfere h.keyed hk (.single ⟨ms, ?_⟩) hfree
      rwa [hrival]
    · intro hserv
      show (n.sync.advance input n.shared).1 = _
      rw [h.resting hserv]
      rfl
  | serve =>
    rw [Node.step]
    split
    · next hstart =>
      exact ⟨hstay, ⟨h.keyed, safe_of_started hstart, h.sync, nofun⟩⟩
    · exact ⟨hstay, h⟩
  | work work =>
    rw [Node.step]
    split
    · next hidle =>
      obtain ⟨hserv, -⟩ := Bool.and_eq_true_iff.mp hidle
      refine ⟨hstay, ⟨h.keyed, ?_, h.sync, h.resting⟩⟩
      have hp : party { n with engine := work.program W } = .engine := by simp [party, hserv]
      rw [hp]
      exact safe_of_free (Work.program_free work) h.keyed
    · exact ⟨hstay, h⟩
  | order order =>
    rw [Node.step]
    split
    · next hidle =>
      obtain ⟨hserv, -⟩ := Bool.and_eq_true_iff.mp hidle
      refine ⟨hstay, ⟨h.keyed, h.engine, safe_of_free (Order.program_free W order) h.keyed, ?_⟩⟩
      intro hnot
      rw [hserv] at hnot
      cases hnot
    · exact ⟨hstay, h⟩
  | dropSync => exact ⟨hstay, ⟨h.keyed, h.engine, trivial, fun _ => rfl⟩⟩
  | elsewhere request =>
    have hrefl : ∀ p, (discipline R p).rely n.shared (n.step W (.elsewhere request)).shared :=
      fun _ => .refl
    refine ⟨⟨.engine, ⟨[], .quiet (.refl h.keyed) (by simp), ?_⟩, nofun⟩,
      ⟨h.keyed, ?_, ?_, h.resting⟩⟩
    · show n.shared.history = (n.shared.putStore n.shared.store).history ++ []
      rw [putStore_same, List.append_nil]
    · exact h.engine.interfere h.keyed h.keyed (hrefl _) fun hatom => (hop hatom).1
    · exact h.sync.interfere h.keyed h.keyed (hrefl _) fun hatom => (hop hatom).2

/-- Every run that meets the conditions of the regime is sound. -/
theorem sound_run {ops : List NodeOp} (h : Run.Meets (Node.step W) (Admits R) (blank W) ops) :
    (run W (blank W) ops).Sound R :=
  Run.Meets.invariant (fun _ _ hn hop => (hn.step hop).2) sound_blank h

end Node

end Piqae
