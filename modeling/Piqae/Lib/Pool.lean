/-
Piqae/Lib/Pool.lean

Any number of programs on one shared state, in any interleaving.

A pool runs the program of every call that was ever started; a call that is
never scheduled again has died.  An action may have to wait (`ready`).  Each
program has its number, and its own discipline: what it may assume of the
others (`rely`) follows from what they do (`guar`).  Then every run keeps every
program safe, whatever the order of the actions.
-/
import Piqae.Lib.Process
import Piqae.Lib.Run

structure Pool (Λ ι σ ε α : Type*) where
  shared : σ
  threads : List (Process Λ ι σ ε α)

namespace Pool

variable {Λ ι σ ε α κ : Type*}

inductive Op (κ ι : Type*)
  | start (call : κ)
  | act (k : Nat) (input : ι)

variable (program : Nat → κ → Process Λ ι σ ε α) (ready : Λ → σ → Bool)

/-- Start a program, or let one take its next action if it need not wait. -/
def step (m : Pool Λ ι σ ε α) : Op κ ι → Pool Λ ι σ ε α
  | .start call => { m with threads := m.threads ++ [program m.threads.length call] }
  | .act k i =>
    match m.threads[k]? with
    | none => m
    | some p =>
      if p.label?.all (ready · m.shared) then
        ⟨(p.advance i m.shared).2, m.threads.set k (p.advance i m.shared).1⟩
      else m

def run (s : σ) (ops : List (Op κ ι)) : Pool Λ ι σ ε α :=
  Run.exec (step program ready) ⟨s, []⟩ ops

variable {program ready} (D : Nat → Process.Discipline Λ ι σ) (Q : Nat → α → σ → Prop)
  (E : Nat → ε → σ → Prop)

/-- Every program is safe in its discipline. -/
def Sound (m : Pool Λ ι σ ε α) : Prop :=
  (∀ k, (D k).valid m.shared) ∧
    ∀ k p, m.threads[k]? = some p → Process.Safe (D k) (Q k) (E k) p m.shared

/-- The disciplines fit together. -/
structure Compatible : Prop where
  valid : ∀ j k s, (D j).valid s → (D k).valid s
  rely : ∀ j k s s', j ≠ k → (D k).valid s → (D k).guar s s' → (D j).rely s s'
  guar : ∀ k s, (D k).guar s s
  free : ∀ k l, ¬(D k).joined l
  result : ∀ k a, (D k).Stable (Q k a)
  error : ∀ k e, (D k).Stable (E k e)

variable {D Q E} {C : Pool Λ ι σ ε α → Op κ ι → Prop}

theorem Sound.act (hD : Compatible D Q E) {m : Pool Λ ι σ ε α} (hm : m.Sound D Q E)
    {k : Nat} {i : ι} (hadm : ∀ p, m.threads[k]? = some p → ∀ l, p.label? = some l →
      ready l m.shared = true → (D k).admits l i m.shared) :
    (m.step program ready (.act k i)).Sound D Q E := by
  simp only [step]
  split
  · exact hm
  next p hp =>
  split_ifs with hready
  swap
  · exact hm
  have hi : ∀ l, p.label? = some l → (D k).admits l i m.shared := by
    intro l hl
    rw [hl, Option.all_some] at hready
    exact hadm p hp l hl hready
  obtain ⟨⟨hval, hguar⟩, hsafe⟩ := (hm.2 k p hp).advance (hm.1 k) hi (hD.guar k)
  have hall : ∀ j, (D j).valid (p.advance i m.shared).2 := fun j => hD.valid k j _ hval
  refine ⟨hall, fun j q hq => ?_⟩
  by_cases hjk : j = k
  · obtain rfl := hjk
    obtain ⟨hlt, -⟩ := List.getElem?_eq_some_iff.mp hp
    rw [List.getElem?_set_self hlt] at hq
    cases hq
    exact hsafe
  · -- the others only see a change that they may assume
    rw [List.getElem?_set_ne (Ne.symm hjk)] at hq
    exact (hm.2 j q hq).interfere (hm.1 j) (hall j) (hD.rely j k _ _ hjk (hm.1 k) hguar)
      (fun l _ => hD.free j l) (hD.result j) (hD.error j)

/-- **The rule of parallel programs.** -/
theorem Sound.run (hD : Compatible D Q E)
    (hstart : ∀ m call, C m (.start call) → (∀ k, (D k).valid m.shared) →
      Process.Safe (D m.threads.length) (Q m.threads.length) (E m.threads.length)
        (program m.threads.length call) m.shared)
    (hact : ∀ m k i, C m (.act k i) → (∀ k, (D k).valid m.shared) → ∀ p, m.threads[k]? = some p →
      ∀ l, p.label? = some l → ready l m.shared = true → (D k).admits l i m.shared)
    {s : σ} (hs : ∀ k, (D k).valid s) {ops : List (Op κ ι)}
    (h : Run.Meets (step program ready) C ⟨s, []⟩ ops) :
    (Pool.run program ready s ops).Sound D Q E := by
  refine Run.Meets.invariant (P := Sound D Q E) (fun m op hm hop => ?_) ⟨hs, nofun⟩ h
  cases op with
  | act k i => exact hm.act hD (hact m k i hop hm.1)
  | start call =>
    refine ⟨hm.1, fun k p hp => ?_⟩
    replace hp : (m.threads ++ [program m.threads.length call])[k]? = some p := hp
    rw [List.getElem?_append] at hp
    split_ifs at hp with hlt
    · exact hm.2 k p hp
    · rw [List.getElem?_singleton] at hp
      split_ifs at hp with hk
      cases hp
      obtain rfl : k = m.threads.length := by omega
      exact hstart m call hop hm.1

/-- The next action is admitted. -/
def Admitted (A : Λ → ι → σ → Prop) (m : Pool Λ ι σ ε α) : Op κ ι → Prop
  | .start _ => True
  | .act k i => ∀ l ∈ m.threads[k]?.bind (·.label?), A l i m.shared

instance (A : Λ → ι → σ → Prop) [∀ l i s, Decidable (A l i s)] (m : Pool Λ ι σ ε α)
    (op : Op κ ι) : Decidable (Admitted A m op) := by
  cases op <;> unfold Admitted <;> infer_instance

end Pool
