/-
Piqae/Lib/Process.lean

Programs of atomic actions on a shared state, and a rely-guarantee logic for
them.

A program is the tree of its actions.  An action changes the shared state as a
whole and chooses what follows; everything outside the program's control (the
failure of a write, a reply from elsewhere, the clock) is the action's input.
Between two actions other programs may run, and a program may be abandoned
after any of its actions, so a program says nothing about what happens in
between: that is what the logic is for.

`Safe D Q E p s` says that `p`, started in `s`, keeps the discipline `D`
whatever the others do: each of its actions is taken from a valid state, leads
to a valid state and makes only a change that `D.guar` allows, as long as the
others keep the state valid and make only changes that `D.rely` allows, and
none before an action that `D.joined` ties to the one before it.  It ends with
`Q`, or fails with `E`.
-/
import Mathlib

/-- A program: finished, failed, or an action with what follows it. -/
inductive Process (Λ ι σ ε α : Type*)
  | done (value : α)
  | fail (error : ε)
  | act (label : Λ) (effect : ι → σ → σ) (next : ι → σ → Process Λ ι σ ε α)

namespace Process

variable {Λ ι σ : Type*} {ε ε' α β : Type*}

/-! ### Composition -/

def bind : Process Λ ι σ ε α → (α → Process Λ ι σ ε β) → Process Λ ι σ ε β
  | done a, f => f a
  | fail e, _ => fail e
  | act l effect next, f => act l effect fun i s => (next i s).bind f

instance : Monad (Process Λ ι σ ε) where
  pure := done
  bind := bind

/-- Run a program to its result, with a failure as a value. -/
def attempt : Process Λ ι σ ε α → Process Λ ι σ ε' (Except ε α)
  | done a => done (.ok a)
  | fail e => done (.error e)
  | act l effect next => act l effect fun i s => (next i s).attempt

/-- One action that returns a value. -/
def atomic (l : Λ) (f : ι → σ → α × σ) : Process Λ ι σ ε α :=
  act l (fun i s => (f i s).2) fun i s => done (f i s).1

def ofExcept : Except ε α → Process Λ ι σ ε α
  | .ok a => done a
  | .error e => fail e

/-- One action that may fail. -/
def fallible (l : Λ) (f : ι → σ → Except ε α × σ) : Process Λ ι σ ε α :=
  act l (fun i s => (f i s).2) fun i s => ofExcept (f i s).1

/-- Run a program for every element of a list, in order. -/
def each : List β → (β → Process Λ ι σ ε Unit) → Process Λ ι σ ε Unit
  | [], _ => done ()
  | b :: bs, f => (f b).bind fun _ => each bs f

/-- Run a program for every element of a list, in order, and collect what they
return after `acc`. -/
def gather {γ : Type*} (f : β → Process Λ ι σ ε (Option γ)) :
    List β → List γ → Process Λ ι σ ε (List γ)
  | [], acc => done acc
  | b :: bs, acc => (f b).bind fun c => gather f bs (acc ++ c.toList)

/-- The next action of a program taken with input `i`: the program and the
state after it.  A program that has ended stays as it is. -/
def advance : Process Λ ι σ ε α → ι → σ → Process Λ ι σ ε α × σ
  | done a, _, s => (done a, s)
  | fail e, _, s => (fail e, s)
  | act _ effect next, i, s => (next i s, effect i s)

/-- What the next action is about, if there is one. -/
def label? : Process Λ ι σ ε α → Option Λ
  | done _ => none
  | fail _ => none
  | act l _ _ => some l

/-- The program alone, with the inputs given.  It is abandoned when they are used
up before it ends, and has no result then. -/
def run : Process Λ ι σ ε α → List ι → σ → Option (Except ε α) × σ
  | done a, _, s => (some (.ok a), s)
  | fail e, _, s => (some (.error e), s)
  | act _ _ _, [], s => (none, s)
  | act _ effect next, i :: is, s => (next i s).run is (effect i s)

/-- The program alone, to its end; `answer` gives the input of each action. -/
def alone (answer : σ → ι) : Process Λ ι σ ε α → σ → Except ε α × σ
  | done a, s => (.ok a, s)
  | fail e, s => (.error e, s)
  | act _ effect next, s => (next (answer s) s).alone answer (effect (answer s) s)

theorem alone_bind {answer : σ → ι} {p : Process Λ ι σ ε α} {f : α → Process Λ ι σ ε β} {s : σ} :
    (p.bind f).alone answer s = match p.alone answer s with
      | (.ok a, t) => (f a).alone answer t
      | (.error e, t) => (.error e, t) := by
  induction p generalizing s with
  | done a => rfl
  | fail e => rfl
  | act l effect next ih => exact ih ..

/-! ### Disciplines -/

/-- What a program may assume and has to keep, on a shared state. -/
structure Discipline (Λ ι σ : Type*) where
  valid : σ → Prop
  /-- The changes the others may make between two actions. -/
  rely : σ → σ → Prop
  /-- The changes the program may make with one action. -/
  guar : σ → σ → Prop
  /-- The inputs with which actions are taken. -/
  admits : Λ → ι → σ → Prop
  /-- The actions before which the others do not run. -/
  joined : Λ → Prop
  refl : ∀ s, rely s s
  trans : ∀ {s s' s''}, rely s s' → rely s' s'' → rely s s''

variable (D : Discipline Λ ι σ)

/-- What holds before an action of the others holds after it. -/
def Discipline.Stable (P : σ → Prop) : Prop :=
  ∀ s s', D.valid s → D.valid s' → D.rely s s' → P s → P s'

variable {D}

theorem Discipline.Stable.const (p : Prop) : D.Stable fun _ => p :=
  fun _ _ _ _ _ h => h

variable (D)

def Safe (Q : α → σ → Prop) (E : ε → σ → Prop) : Process Λ ι σ ε α → σ → Prop
  | done a, s => Q a s
  | fail e, s => E e s
  | act l effect next, s => ∀ s', D.valid s' → D.rely s s' → (D.joined l → s' = s) →
      ∀ i, D.admits l i s' →
        (D.valid (effect i s') ∧ D.guar s' (effect i s')) ∧ Safe Q E (next i s') (effect i s')

/-- The program keeps the discipline from every valid state with `P`. -/
def Triple (P : σ → Prop) (p : Process Λ ι σ ε α) (Q : α → σ → Prop) (E : ε → σ → Prop) : Prop :=
  ∀ s, D.valid s → P s → Safe D Q E p s

variable {D}

/-! ### Safe programs under interference -/

section Interference

variable {Q : α → σ → Prop} {E : ε → σ → Prop} {p : Process Λ ι σ ε α} {s : σ}

/-- A safe program stays safe while the others run, unless its next action is
tied to the last. -/
theorem Safe.interfere {s' : σ} (h : Safe D Q E p s) (hv : D.valid s) (hv' : D.valid s')
    (hr : D.rely s s') (hfree : ∀ l, p.label? = some l → ¬D.joined l)
    (hQ : ∀ a, D.Stable (Q a)) (hE : ∀ e, D.Stable (E e)) : Safe D Q E p s' := by
  cases p with
  | done a => exact hQ a s s' hv hv' hr h
  | fail e => exact hE e s s' hv hv' hr h
  | act l =>
    intro t hvt ht _
    exact h t hvt (D.trans hr ht) fun hj => absurd hj (hfree l rfl)

/-- An action of a safe program keeps the discipline, and what follows is safe
again. -/
theorem Safe.advance {i : ι} (h : Safe D Q E p s) (hv : D.valid s)
    (hi : ∀ l, p.label? = some l → D.admits l i s) (hguar : ∀ t, D.guar t t) :
    (D.valid (p.advance i s).2 ∧ D.guar s (p.advance i s).2) ∧
      Safe D Q E (p.advance i s).1 (p.advance i s).2 := by
  cases p with
  | act l => exact h s hv (D.refl s) (fun _ => rfl) i (hi l rfl)
  | _ => exact ⟨⟨hv, hguar s⟩, h⟩

theorem Safe.consequence {Q' : α → σ → Prop} {E' : ε → σ → Prop} (h : Safe D Q E p s)
    (hv : D.valid s) (hQ : ∀ a t, D.valid t → Q a t → Q' a t)
    (hE : ∀ e t, D.valid t → E e t → E' e t) : Safe D Q' E' p s := by
  induction p generalizing s with
  | done a => exact hQ a s hv h
  | fail e => exact hE e s hv h
  | act l effect next ih =>
    intro t hvt ht hj i hi
    obtain ⟨hstep, hrest⟩ := h t hvt ht hj i hi
    exact ⟨hstep, ih i t hrest hstep.1⟩

theorem Safe.bind {R : α → σ → Prop} {Q : β → σ → Prop} {f : α → Process Λ ι σ ε β}
    (hv : D.valid s) (hp : Safe D R E p s) (hf : ∀ a, Triple D (R a) (f a) Q E) :
    Safe D Q E (p.bind f) s := by
  induction p generalizing s with
  | done a => exact hf a s hv hp
  | fail e => exact hp
  | act l effect next ih =>
    intro t hvt ht hj i hi
    obtain ⟨hstep, hrest⟩ := hp t hvt ht hj i hi
    exact ⟨hstep, ih i t hstep.1 hrest⟩

theorem Safe.attempt {E' : ε' → σ → Prop} (hp : Safe D Q E p s) :
    Safe D (fun r t => (∀ a, r = .ok a → Q a t) ∧ ∀ e, r = .error e → E e t) E'
      (p.attempt : Process Λ ι σ ε' _) s := by
  induction p generalizing s with
  | done a =>
    refine ⟨?_, nofun⟩
    rintro b ⟨⟩
    exact hp
  | fail e =>
    refine ⟨nofun, ?_⟩
    rintro b ⟨⟩
    exact hp
  | act l effect next ih =>
    intro t hvt ht hj i hi
    obtain ⟨hstep, hrest⟩ := hp t hvt ht hj i hi
    exact ⟨hstep, ih i t hrest⟩

/-- A safe program that runs alone makes only changes that the discipline allows. -/
theorem Safe.run (h : Safe D Q E p s) (is : List ι) (hv : D.valid s)
    (hi : ∀ i ∈ is, ∀ l s, D.admits l i s) :
    (D.valid (p.run is s).2 ∧ Relation.ReflTransGen D.guar s (p.run is s).2) ∧
      (∀ a, (p.run is s).1 = some (.ok a) → Q a (p.run is s).2) ∧
        ∀ e, (p.run is s).1 = some (.error e) → E e (p.run is s).2 := by
  induction p generalizing is s with
  | done a =>
    refine ⟨⟨hv, .refl⟩, ?_, nofun⟩
    rintro b ⟨⟩
    exact h
  | fail e =>
    refine ⟨⟨hv, .refl⟩, nofun, ?_⟩
    rintro b ⟨⟩
    exact h
  | act l effect next ih =>
    cases is with
    | nil => exact ⟨⟨hv, .refl⟩, nofun, nofun⟩
    | cons i is =>
      obtain ⟨⟨hv', hguar⟩, hrest⟩ :=
        h s hv (D.refl s) (fun _ => rfl) i (hi i List.mem_cons_self l s)
      obtain ⟨⟨hval, hsteps⟩, hres⟩ :=
        ih i s hrest is hv' fun j hj => hi j (List.mem_cons_of_mem i hj)
      exact ⟨⟨hval, .head hguar hsteps⟩, hres⟩

end Interference

/-! ### Rules -/

section Rules

variable {P : σ → Prop} {Q : α → σ → Prop} {E : ε → σ → Prop} {l : Λ} {p : Process Λ ι σ ε α}

theorem Triple.before {P' : σ → Prop} (h : Triple D P p Q E)
    (hP : ∀ s, D.valid s → P' s → P s) : Triple D P' p Q E :=
  fun s hv hs => h s hv (hP s hv hs)

theorem Triple.consequence {P' : σ → Prop} {Q' : α → σ → Prop} {E' : ε → σ → Prop}
    (h : Triple D P p Q E) (hP : ∀ s, D.valid s → P' s → P s)
    (hQ : ∀ a s, D.valid s → Q a s → Q' a s) (hE : ∀ e s, D.valid s → E e s → E' e s) :
    Triple D P' p Q' E' :=
  fun s hv hs => (h s hv (hP s hv hs)).consequence hv hQ hE

theorem Triple.done {a : α} (h : ∀ s, D.valid s → P s → Q a s) :
    Triple D P (.done a : Process Λ ι σ ε α) Q E :=
  fun s hv hs => h s hv hs

theorem Triple.fail {e : ε} (h : ∀ s, D.valid s → P s → E e s) : Triple D P (.fail e) Q E :=
  fun s hv hs => h s hv hs

/-- An action, from an assertion that the others keep if they can run before
it. -/
theorem Triple.act {effect : ι → σ → σ} {next : ι → σ → Process Λ ι σ ε α}
    (hstab : ¬D.joined l → D.Stable P) (h : ∀ s i, D.valid s → P s → D.admits l i s →
      (D.valid (effect i s) ∧ D.guar s (effect i s)) ∧ Safe D Q E (next i s) (effect i s)) :
    Triple D P (.act l effect next) Q E := by
  intro s hv hs s' hv' hr hj i hi
  refine h s' i hv' ?_ hi
  by_cases hjn : D.joined l
  · rwa [hj hjn]
  · exact hstab hjn s s' hv hv' hr hs

theorem Triple.bind {R : β → σ → Prop} {p : Process Λ ι σ ε β} {f : β → Process Λ ι σ ε α}
    (hp : Triple D P p R E) (hf : ∀ b, Triple D (R b) (f b) Q E) : Triple D P (p.bind f) Q E :=
  fun s hv hs => .bind hv (hp s hv hs) hf

theorem Triple.attempt {E' : ε' → σ → Prop} (hp : Triple D P p Q E) :
    Triple D P (p.attempt : Process Λ ι σ ε' _)
      (fun r t => (∀ a, r = .ok a → Q a t) ∧ ∀ e, r = .error e → E e t) E' :=
  fun s hv hs => (hp s hv hs).attempt

theorem Triple.atomic {f : ι → σ → α × σ} (hstab : ¬D.joined l → D.Stable P)
    (h : ∀ s i, D.valid s → P s → D.admits l i s →
      D.valid (f i s).2 ∧ D.guar s (f i s).2 ∧ Q (f i s).1 (f i s).2) :
    Triple D P (.atomic l f : Process Λ ι σ ε α) Q E := by
  apply Triple.act hstab
  intro s i hv hs hi
  obtain ⟨hv', hg, hq⟩ := h s i hv hs hi
  exact ⟨⟨hv', hg⟩, hq⟩

theorem Triple.fallible {f : ι → σ → Except ε α × σ} (hstab : ¬D.joined l → D.Stable P)
    (h : ∀ s i, D.valid s → P s → D.admits l i s →
      D.valid (f i s).2 ∧ D.guar s (f i s).2 ∧ (∀ a, (f i s).1 = .ok a → Q a (f i s).2) ∧
        ∀ e, (f i s).1 = .error e → E e (f i s).2) : Triple D P (.fallible l f) Q E := by
  apply Triple.act hstab
  intro s i hv hs hi
  obtain ⟨hv', hg, hok, herr⟩ := h s i hv hs hi
  refine ⟨⟨hv', hg⟩, ?_⟩
  rcases hr : (f i s).1 with e | a
  · exact herr e hr
  · exact hok a hr

/-- A loop over a list, with an assertion about what is left of the list. -/
theorem Triple.each {I : List β → σ → Prop} {f : β → Process Λ ι σ ε Unit}
    (h : ∀ b bs, Triple D (I (b :: bs)) (f b) (fun _ => I bs) E)
    (bs : List β) : Triple D (I bs) (.each bs f) (fun _ => I []) E := by
  induction bs with
  | nil => exact .done fun _ _ hs => hs
  | cons b bs ih => exact .bind (h b bs) fun _ => ih

theorem Triple.gather {γ : Type*} {I : List β → List γ → σ → Prop}
    {f : β → Process Λ ι σ ε (Option γ)}
    (h : ∀ b bs cs, Triple D (I (b :: bs) cs) (f b) (fun c => I bs (cs ++ c.toList)) E)
    (bs : List β) (cs : List γ) : Triple D (I bs cs) (.gather f bs cs) (fun cs => I [] cs) E := by
  induction bs generalizing cs with
  | nil => exact .done fun _ _ hs => hs
  | cons b bs ih => exact .bind (h b bs cs) fun c => ih _

end Rules

/-! ### Programs that run alone -/

section Exclusive

variable {valid : σ → Prop} {admits : Λ → ι → σ → Prop} {P : σ → Prop} {Q : α → σ → Prop}
  {E : ε → σ → Prop} {l : Λ}

/-- The discipline of a program that no other interferes with. -/
def Discipline.exclusive (valid : σ → Prop) (admits : Λ → ι → σ → Prop) : Discipline Λ ι σ where
  valid := valid
  rely := Eq
  guar := fun _ _ => True
  admits := admits
  joined := fun _ => False
  refl := fun _ => rfl
  trans := Eq.trans

theorem Discipline.exclusive_stable (P : σ → Prop) :
    (Discipline.exclusive valid admits : Discipline Λ ι σ).Stable P :=
  fun _ _ _ _ heq hs => heq ▸ hs

theorem Triple.atomic_alone {f : ι → σ → α × σ}
    (h : ∀ s i, valid s → P s → admits l i s → valid (f i s).2 ∧ Q (f i s).1 (f i s).2) :
    Triple (.exclusive valid admits) P (.atomic l f : Process Λ ι σ ε α) Q E :=
  Triple.atomic (fun _ => Discipline.exclusive_stable _)
    fun s i hv hs hi => ⟨(h s i hv hs hi).1, trivial, (h s i hv hs hi).2⟩

theorem Triple.fallible_alone {f : ι → σ → Except ε α × σ}
    (h : ∀ s i, valid s → P s → admits l i s → valid (f i s).2 ∧
      (∀ a, (f i s).1 = .ok a → Q a (f i s).2) ∧ ∀ e, (f i s).1 = .error e → E e (f i s).2) :
    Triple (.exclusive valid admits) P (.fallible l f) Q E :=
  Triple.fallible (fun _ => Discipline.exclusive_stable _)
    fun s i hv hs hi => ⟨(h s i hv hs hi).1, trivial, (h s i hv hs hi).2⟩

end Exclusive

end Process
