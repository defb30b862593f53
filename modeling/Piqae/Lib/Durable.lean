/-
Piqae/Lib/Durable.lean

Actions on state that survives a crash.  An action runs on the durable state
and on a crash that is to come: after how many effects, and, of type `τ`,
what of the interrupted effect is there afterwards.  It ends with a result,
with an error, or in the crash; the state is kept in each case.

A specification says what holds of the state in the three cases, for every
crash whose remains are admissible:

    Spec A P x Q E C

starts in `P`, allows the remains in `A`, and ends in `Q`, `E` or `C`.  An
action without a crash to come does not crash, so that a specification whose
`E` is false is one of success.
-/
import Mathlib

/-- How an action ends. -/
inductive Ending (σ τ ε α : Type) where
  | ok (a : α) (s : σ) (crash : Option (Nat × τ))
  | error (e : ε) (s : σ)
  | crashed (s : σ)

/-- An action on durable state `σ`. -/
def Durable (σ τ ε α : Type) : Type := σ → Option (Nat × τ) → Ending σ τ ε α

namespace Durable

variable {σ τ ε α β : Type}

/-- Read the state, or fail. -/
def read (f : σ → Except ε α) : Durable σ τ ε α := fun s crash =>
  match f s with
  | .ok a => .ok a s crash
  | .error e => .error e s

/-- Change the state; `torn` is what a crash in the middle leaves. -/
def effect (f : σ → σ) (torn : τ → σ → σ) : Durable σ τ ε Unit := fun s crash =>
  match crash with
  | none => .ok () (f s) none
  | some (0, t) => .crashed (torn t s)
  | some (n + 1, t) => .ok () (f s) (some (n, t))

instance : Monad (Durable σ τ ε) where
  pure a := fun s crash => .ok a s crash
  bind x f := fun s crash =>
    match x s crash with
    | .ok a s crash => f a s crash
    | .error e s => .error e s
    | .crashed s => .crashed s

/-- The state after an action, however it ended. -/
def state (x : Durable σ τ ε α) (s : σ) (crash : Option (Nat × τ)) : σ :=
  match x s crash with
  | .ok _ s _ => s
  | .error _ s => s
  | .crashed s => s

/-- The result of an action, if it has one. -/
def result? (x : Durable σ τ ε α) (s : σ) (crash : Option (Nat × τ)) : Option α :=
  match x s crash with
  | .ok a _ _ => some a
  | _ => none

/-- What holds at the end of an action. -/
def Spec (A : τ → Prop) (P : σ → Prop) (x : Durable σ τ ε α) (Q : α → σ → Prop)
    (E C : σ → Prop) : Prop :=
  ∀ s crash, (∀ p ∈ crash, A p.2) → P s →
    match x s crash with
    | .ok a s' crash' => (∀ p ∈ crash', ∃ q ∈ crash, q.2 = p.2) ∧ Q a s'
    | .error _ s' => E s'
    | .crashed s' => crash ≠ none ∧ C s'

namespace Spec

variable {A : τ → Prop} {P P' : σ → Prop} {E C : σ → Prop} {x : Durable σ τ ε α}
  {Q : α → σ → Prop} {s : σ} {a : α} {crash : Option (Nat × τ)}

theorem pure (h : ∀ s, P s → Q a s) : Spec A P (pure a : Durable σ τ ε α) Q E C := fun s _ _ hs =>
  ⟨fun p hp => ⟨p, hp, rfl⟩, h s hs⟩

theorem read {f : σ → Except ε α}
    (h : ∀ s, P s → (∃ a, f s = .ok a ∧ Q a s) ∨ (∃ e, f s = .error e) ∧ E s) :
    Spec A P (Durable.read f) Q E C := by
  intro s crash _ hs
  rcases h s hs with ⟨a, hok, hq⟩ | ⟨⟨e, herr⟩, he⟩
  · simp only [Durable.read, hok]
    exact ⟨fun p hp => ⟨p, hp, rfl⟩, hq⟩
  · simp only [Durable.read, herr]
    exact he

theorem effect {f : σ → σ} {torn : τ → σ → σ} {Q : Unit → σ → Prop} (h : ∀ s, P s → Q () (f s))
    (hcrash : ∀ t s, A t → P s → C (torn t s)) :
    Spec A P (Durable.effect f torn : Durable σ τ ε Unit) Q E C := by
  intro s crash hA hs
  match crash with
  | none => exact ⟨nofun, h s hs⟩
  | some (0, t) => exact ⟨nofun, hcrash t s (hA _ rfl) hs⟩
  | some (n + 1, t) => exact ⟨fun p hp => ⟨_, rfl, by cases hp; rfl⟩, h s hs⟩

theorem bind {f : α → Durable σ τ ε β} {R : α → σ → Prop} {Q : β → σ → Prop}
    (hx : Spec A P x R E C) (hf : ∀ a, Spec A (R a) (f a) Q E C) : Spec A P (x >>= f) Q E C := by
  intro s crash hA hs
  have hfst := hx s crash hA hs
  show match (match x s crash with
      | .ok a s crash => f a s crash
      | .error e s => .error e s
      | .crashed s => .crashed s) with
    | .ok a s' crash' => _
    | .error _ s' => E s'
    | .crashed s' => _
  cases hend : x s crash with
  | ok a s' crash' =>
    simp only [hend] at hfst ⊢
    obtain ⟨hrest, hr⟩ := hfst
    -- What is left of the crash has the remains of the whole one.
    have hsnd := hf a s' crash' (fun p hp => by
      obtain ⟨q, hq, heq⟩ := hrest p hp
      exact heq ▸ hA q hq) hr
    cases hend' : f a s' crash' with
    | error e s'' => simpa only [hend'] using hsnd
    | crashed s'' =>
      simp only [hend'] at hsnd ⊢
      refine ⟨?_, hsnd.2⟩
      rintro rfl
      obtain ⟨p, hp⟩ := Option.ne_none_iff_exists'.mp hsnd.1
      obtain ⟨q, hq, -⟩ := hrest p hp
      cases hq
    | ok =>
      simp only [hend'] at hsnd ⊢
      refine ⟨fun p hp => ?_, hsnd.2⟩
      obtain ⟨q, hq, heq⟩ := hsnd.1 p hp
      obtain ⟨q', hq', heq'⟩ := hrest q hq
      exact ⟨q', hq', heq'.trans heq⟩
  | _ => simpa only [hend] using hfst

theorem bind_read {f : σ → Except ε α} {k : α → Durable σ τ ε β} {Q : β → σ → Prop}
    (hf : f s = .ok a) (h : Spec A (· = s) (k a) Q E C) :
    Spec A (· = s) (Durable.read f >>= k) Q E C := by
  refine .bind (R := fun b t => b = a ∧ t = s) (.read ?_) fun b => ?_
  · rintro _ rfl
    exact .inl ⟨a, hf, rfl, rfl⟩
  · rintro _ crash hA ⟨rfl, rfl⟩
    exact h _ crash hA rfl

/-- A specification may be proved for each state by itself. -/
theorem of_eq (h : ∀ s, P s → Spec A (· = s) x Q E C) : Spec A P x Q E C :=
  fun s crash hA hs => h s hs s crash hA rfl

theorem consequence {Q' : α → σ → Prop} {E' C' : σ → Prop} (hx : Spec A P x Q E C)
    (hP : ∀ s, P' s → P s) (hQ : ∀ a s, Q a s → Q' a s) (hE : ∀ s, E s → E' s)
    (hC : ∀ s, C s → C' s) : Spec A P' x Q' E' C' := by
  intro s crash hA hs
  have hend := hx s crash hA (hP s hs)
  split at hend
  · exact ⟨hend.1, hQ _ _ hend.2⟩
  · exact hE _ hend
  · exact ⟨hend.1, hC _ hend.2⟩

/-- What holds of the state at the end, and of the result. -/
theorem state (hx : Spec A P x Q E C) {I : σ → Prop} (hQ : ∀ a s, Q a s → I s)
    (hE : ∀ s, E s → I s) (hC : ∀ s, C s → I s) (hA : ∀ p ∈ crash, A p.2) (hs : P s) :
    I (x.state s crash) := by
  have hend := hx s crash hA hs
  unfold Durable.state
  split at hend
  · exact hQ _ _ hend.2
  · exact hE _ hend
  · exact hC _ hend.2

theorem result (hx : Spec A P x Q E C) (hA : ∀ p ∈ crash, A p.2) (hs : P s)
    (ha : x.result? s crash = some a) : Q a (x.state s crash) := by
  have hend := hx s crash hA hs
  unfold Durable.result? at ha
  unfold Durable.state
  split at hend
  · rename_i a' s' crash' heq
    rw [heq] at ha
    cases ha
    simpa only [heq] using hend.2
  · rename_i heq
    rw [heq] at ha
    cases ha
  · rename_i heq
    rw [heq] at ha
    cases ha

/-- An action that cannot fail has a result when there is no crash to come. -/
theorem succeeds (hx : Spec A P x Q (fun _ => False) C) (hs : P s) :
    ∃ a, x.result? s none = some a := by
  have hend := hx s none nofun hs
  unfold Durable.result?
  split at hend
  · rename_i a _ _ heq
    exact ⟨a, by simp only [heq]⟩
  · exact hend.elim
  · exact absurd rfl hend.1

end Spec

end Durable
