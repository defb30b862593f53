/-
Piqae/Lib/Run.lean

Runs of a deterministic machine whose nondeterminism is in its inputs.  A
machine is a function `step : σ → ι → σ`; a run is a list of inputs, and
everything an adversary may choose (the operation, the failure of a write, a
random identifier, the scheduler's choice of thread) is part of the input.

`Meets step C s l` says that every input of the run `l` from `s` satisfies
the condition `C` in the state it is taken in.  `Meets.invariant` is the one
induction over runs: what the start has and every step that meets `C` keeps,
holds after the run.
-/
import Mathlib

namespace Run

variable {σ ι : Type*} (step : σ → ι → σ)

/-- The state after the run `l` from `s`. -/
def exec (s : σ) (l : List ι) : σ := l.foldl step s

@[simp] theorem exec_nil (s : σ) : exec step s [] = s := rfl

@[simp] theorem exec_cons (s : σ) (i : ι) (l : List ι) :
    exec step s (i :: l) = exec step (step s i) l := rfl

theorem exec_append (s : σ) (l l' : List ι) :
    exec step s (l ++ l') = exec step (exec step s l) l' :=
  List.foldl_append ..

/-- Every input of the run satisfies `C` in the state it is taken in. -/
def Meets (C : σ → ι → Prop) : σ → List ι → Prop
  | _, [] => True
  | s, i :: l => C s i ∧ Meets C (step s i) l

instance decidableMeets (C : σ → ι → Prop) [∀ s i, Decidable (C s i)] :
    ∀ s l, Decidable (Meets step C s l)
  | _, [] => isTrue trivial
  | s, i :: l => @instDecidableAnd _ _ _ (decidableMeets C (step s i) l)

variable {step} {C : σ → ι → Prop} {s : σ} {l : List ι}

theorem meets_append {l' : List ι} :
    Meets step C s (l ++ l') ↔ Meets step C s l ∧ Meets step C (exec step s l) l' := by
  induction l generalizing s with
  | nil => simp [Meets]
  | cons i l ih => simp [Meets, ih, and_assoc]

theorem Meets.mono {C' : σ → ι → Prop} (hCC' : ∀ s i, C s i → C' s i) (h : Meets step C s l) :
    Meets step C' s l := by
  induction l generalizing s with
  | nil => trivial
  | cons i l ih => exact ⟨hCC' s i h.1, ih h.2⟩

/-- A condition on inputs alone is met by a run of such inputs. -/
theorem meets_of_forall (h : ∀ i ∈ l, ∀ s, C s i) (s : σ) : Meets step C s l := by
  induction l generalizing s with
  | nil => trivial
  | cons i l ih =>
    exact ⟨h i List.mem_cons_self s, ih (fun j hj => h j (List.mem_cons_of_mem i hj)) _⟩

/-- **Invariants hold along runs**: one that every step meeting `C` keeps. -/
theorem Meets.invariant {P : σ → Prop} (hstep : ∀ s i, P s → C s i → P (step s i)) (hs : P s)
    (h : Meets step C s l) : P (exec step s l) := by
  induction l generalizing s with
  | nil => exact hs
  | cons i l ih => exact ih (hstep s i hs h.1) h.2

end Run
