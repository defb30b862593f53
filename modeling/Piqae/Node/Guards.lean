/-
Piqae/Node/Guards.lean

The discipline of a thread of the node: each of its actions makes a `Change`,
whatever the other thread does in between.

`Guards R p P prog Q` is a triple about the queue alone.  Assertions are about
rows (`Held`, `At`); the other thread keeps them (`Steadfast`), so a program is
walked through once and every fact about interleavings follows from what one
change can do.
-/
import Piqae.Node.Changes

namespace Piqae

open AgentStore

/-- The thread whose actions fall between those of a party. -/
def Party.rival : Party → Party
  | startup | engine => sync
  | sync => engine

/-- Does the job of a statement have a state that its caller takes it to have? -/
def Label.Based (s : AgentStore) : Label → Prop
  | assumes jobId basis => ∃ state ∈ basis, s.stateOf jobId = some state
  | _ => True

/-- The states in which `request_cancel` cancels a job, or has nothing to do. -/
def handledStates : List LocalState :=
  cancellable ++ [.known .cancelled, .known .expired, .known .completedReported,
    .known .failedTerminal, .known .deliveryUncertain]

/-- Does a cancellation find a cloud job in a state that it handles? -/
def Label.Handled (s : AgentStore) : Label → Prop
  | cancel jobId => ∀ row, s.getJob jobId = some row →
      row.cloudManaged = true ∧ row.state ∈ handledStates
  | _ => True

/-- An action makes a change, and the history has what it stands for. -/
def Acts (R : Regime) (p : Party) (s s' : Shared) : Prop :=
  ∃ ms, Change R p s.store ms s'.store ∧ s'.history = (s.putStore s'.store).history ++ ms

/-- The discipline of a party. -/
def discipline (R : Regime) (p : Party) : Process.Discipline Label Input Shared where
  valid s := s.store.Keyed
  rely s s' := Relation.ReflTransGen (fun t t' => ∃ ms, Change R p.rival t ms t') s.store s'.store
  guar := Acts R p
  admits label _ s := (R.based → label.Based s.store) ∧ (R.handled → label.Handled s.store)
  joined label := R.atomic ∧ label.continues = true
  refl _ := .refl
  trans := .trans

/-- A triple about the queue. -/
abbrev Guards {α : Type} (R : Regime) (p : Party) (P : AgentStore → Prop) (prog : Prog α)
    (Q : α → AgentStore → Prop) : Prop :=
  Process.Triple (discipline R p) (fun s => P s.store) prog (fun a s => Q a s.store) fun _ _ => True

variable {α β : Type} {R : Regime} {p : Party} {P : AgentStore → Prop}
  {Q : α → AgentStore → Prop}

/-- The rival keeps an assertion. -/
def Steadfast (R : Regime) (p : Party) (P : AgentStore → Prop) : Prop :=
  ∀ s ms s', Change R p.rival s ms s' → P s → P s'

theorem Steadfast.stable (h : Steadfast R p P) : (discipline R p).Stable fun s => P s.store := by
  intro s s' _ _ hrely hs
  have hrival : ∀ t, Relation.ReflTransGen (fun t t' => ∃ ms, Change R p.rival t ms t') s.store t →
      P t := by
    intro t ht
    -- induction on the rival's changes
    induction ht with
    | refl => exact hs
    | tail _ hch ih =>
      obtain ⟨ms, hch⟩ := hch
      exact h _ ms _ hch ih
  exact hrival s'.store hrely

theorem Steadfast.and {P' : AgentStore → Prop} (h : Steadfast R p P) (h' : Steadfast R p P') :
    Steadfast R p fun s => P s ∧ P' s :=
  fun s ms s' hch hs => ⟨h s ms s' hch hs.1, h' s ms s' hch hs.2⟩

theorem Steadfast.const (q : Prop) : Steadfast R p fun _ => q := fun _ _ _ _ h => h

theorem Steadfast.imp {q : Prop} (h : q → Steadfast R p P) : Steadfast R p fun s => q → P s :=
  fun s ms s' hch hs hq => h hq s ms s' hch (hs hq)

/-! ### Rules -/

theorem putStore_same (s : Shared) : (s.putStore s.store).history = s.history := by
  simp [Shared.putStore, Shared.log]

theorem acts_refl {s : Shared} (hk : s.store.Keyed) : Acts R p s s :=
  ⟨[], .quiet (.refl hk) (by simp), by rw [putStore_same, List.append_nil]⟩

namespace Guards

theorem done {a : α} (h : ∀ s, P s → Q a s) : Guards R p P (.done a) Q :=
  Process.Triple.done fun s _ hs => h s.store hs

theorem fail {error : NodeError} : Guards R p P (.fail error : Prog α) Q :=
  Process.Triple.fail fun _ _ _ => trivial

variable {prog : Prog α} {P' : AgentStore → Prop} {Q' : α → AgentStore → Prop}

theorem bind {Q' : β → AgentStore → Prop} {f : α → Prog β} (h : Guards R p P prog Q)
    (hf : ∀ a, Guards R p (Q a) (f a) Q') : Guards R p P (prog >>= f) Q' :=
  Process.Triple.bind h hf

theorem consequence (h : Guards R p P prog Q) (hP : ∀ s, s.Keyed → P' s → P s)
    (hQ : ∀ a s, s.Keyed → Q a s → Q' a s) : Guards R p P' prog Q' :=
  Process.Triple.consequence h (fun s => hP s.store) (fun a s => hQ a s.store) fun _ _ _ h => h

theorem before (h : Guards R p P prog Q) (hP : ∀ s, s.Keyed → P' s → P s) : Guards R p P' prog Q :=
  h.consequence hP fun _ _ _ hs => hs

theorem after (h : Guards R p P prog Q) (hQ : ∀ a s, s.Keyed → Q a s → Q' a s) :
    Guards R p P prog Q' :=
  h.consequence (fun _ _ hs => hs) hQ

/-- What an assertion implies whatever the queue is. -/
theorem assume {φ : Prop} (hφ : ∀ s, s.Keyed → P s → φ) (h : φ → Guards R p P prog Q) :
    Guards R p P prog Q :=
  fun s hk hs => h (hφ s.store hk hs) s hk hs

theorem attempt (h : Guards R p P prog Q) :
    Guards R p P (prog.attempt : Prog _) fun result s => ∀ a, result = .ok a → Q a s :=
  Process.Triple.consequence (.attempt h) (fun _ _ hs => hs) (fun _ _ _ hs => hs.1) fun _ _ _ h => h

/-- A loop whose assertion speaks about what is left of the list. -/
theorem each {I : List β → AgentStore → Prop} {f : β → Prog Unit}
    (h : ∀ b bs, Guards R p (I (b :: bs)) (f b) fun _ => I bs) (bs : List β) :
    Guards R p (I bs) (Process.each bs f) fun _ => I [] :=
  Process.Triple.each (I := fun bs (s : Shared) => I bs s.store) h bs

theorem gather {γ : Type} {f : β → Prog (Option γ)}
    (h : ∀ b, Guards R p P (f b) fun _ => P) (bs : List β) (cs : List γ) :
    Guards R p P (Process.gather f bs cs) fun _ => P :=
  Process.Triple.gather (I := fun _ _ (s : Shared) => P s.store) (fun b _ _ => h b) bs cs

variable {label : Label} {f : AgentStore → α}

section

variable (hstd : ¬(R.atomic ∧ label.continues = true) → Steadfast R p P)

include hstd

/-- An action that leaves the queue alone. -/
theorem atomic {f : Input → Shared → α × Shared} (hsto : ∀ i s, (f i s).2.store = s.store)
    (hhist : ∀ i s, P s.store → ∃ ms, (f i s).2.history = s.history ++ ms ∧
      ∀ m ∈ ms, Noted R s.store m) : Guards R p P (.atomic label f) fun _ => P := by
  apply Process.Triple.atomic fun hj => (hstd hj).stable
  intro s i hk hs _
  obtain ⟨ms, hms, hnoted⟩ := hhist i s hs
  have hsame := hsto i s
  refine ⟨?_, ⟨ms, ?_, ?_⟩, ?_⟩
  · show (f i s).2.store.Keyed
    rwa [hsame]
  · rw [hsame]
    exact .quiet (.refl hk) hnoted
  · rw [hsame, putStore_same, hms]
  · show P (f i s).2.store
    rwa [hsame]

/-- An action that only asks. -/
theorem ask {f : Input → Shared → α} :
    Guards R p P (.atomic label fun i s => (f i s, s)) fun _ => P :=
  Guards.atomic hstd (fun _ _ => rfl) fun _ s _ => ⟨[], (List.append_nil _).symm, by simp⟩

theorem readFallible {f : AgentStore → Except StorageError α} :
    Guards R p P (Prog.readFallible label f) fun a s => P s ∧ f s = .ok a ∧
      (R.handled → label.Handled s) ∧ (R.based → label.Based s) := by
  apply Process.Triple.fallible fun hj => (hstd hj).stable
  intro s i hk hs hadm
  have hacts := acts_refl (R := R) (p := p) hk
  split
  · refine ⟨hk, hacts, ?_, fun _ _ => trivial⟩
    intro a ha
    refine ⟨hs, ?_, hadm.2, hadm.1⟩
    rcases hf : f s.store with error | value
    · simp only [hf, Except.mapError] at ha
      cases ha
    · simp only [hf, Except.mapError] at ha
      exact congrArg Except.ok (Except.ok.inj ha)
  · refine ⟨hk, hacts, ?_, fun _ _ => trivial⟩
    rintro a ⟨⟩

theorem readAt : Guards R p P (Prog.readAt label f) fun a s => P s ∧ a = f s ∧
      (R.handled → label.Handled s) ∧ (R.based → label.Based s) :=
  (Guards.readFallible hstd).after fun _ _ _ hs => ⟨hs.1, (Except.ok.inj hs.2.1).symm, hs.2.2⟩

omit hstd in
theorem read (hstd : Steadfast R p P) : Guards R p P (Prog.read f) fun a s => P s ∧ a = f s :=
  (Guards.readAt fun _ => hstd).after fun _ _ _ hs => ⟨hs.1, hs.2.1⟩

/-- A transaction: it fails, or it makes a change. -/
theorem write {ms : List Milestone} {f : AgentStore → Except StorageError (α × AgentStore)}
    (h : ∀ s a s', s.Keyed → P s → (R.based → label.Based s) → f s = .ok (a, s') →
      Change R p s ms s' ∧ Q a s') : Guards R p P (Prog.write label ms f) Q := by
  apply Process.Triple.fallible fun hj => (hstd hj).stable
  intro s i hk hs hadm
  have hacts := acts_refl (R := R) (p := p) hk
  split
  · split
    · next value store hf =>
      obtain ⟨hch, hQ⟩ := h s.store value store hk hs hadm.1 hf
      refine ⟨hch.keyed hk, ⟨ms, hch, rfl⟩, ?_, fun _ _ => trivial⟩
      rintro a ⟨⟩
      exact hQ
    · refine ⟨hk, hacts, ?_, fun _ _ => trivial⟩
      rintro a ⟨⟩
  · refine ⟨hk, hacts, ?_, fun _ _ => trivial⟩
    rintro a ⟨⟩

end

variable {f : AgentStore → Except StorageError AgentStore} {Q : AgentStore → Prop}

theorem writeUnit {ms : List Milestone}
    (hstd : ¬(R.atomic ∧ label.continues = true) → Steadfast R p P)
    (h : ∀ s s', s.Keyed → P s → (R.based → label.Based s) → f s = .ok s' →
      Change R p s ms s' ∧ Q s') :
    Guards R p P (Prog.write label ms fun s => (f s).map fun s => ((), s)) fun _ => Q := by
  apply Guards.write hstd
  intro s _ s' hk hs hbased hf
  obtain ⟨store, hsto, ⟨⟩⟩ := Except.map_eq_ok hf
  exact h s _ hk hs hbased hsto

theorem update (hstd : Steadfast R p P)
    (h : ∀ s s', s.Keyed → P s → f s = .ok s' → Change R p s [] s' ∧ Q s') :
    Guards R p P (Prog.update f) fun _ => Q :=
  Guards.writeUnit (fun _ => hstd) fun s s' hk hs _ => h s s' hk hs

/-- An event, whose sequence number is read before. -/
theorem appendNextEvent {first : Label} {jobId : String} {basis : List LocalState}
    {state : JobState} {reason message : Option String}
    (hfst : ¬(R.atomic ∧ first.continues = true) → Steadfast R p P)
    (hstd : ¬R.atomic → Steadfast R p P)
    (h : ∀ s s', s.Keyed → P s → (R.based → ∃ before ∈ basis, s.stateOf jobId = some before) →
      Moves s s' jobId state → Change R p s [] s' ∧ Q s') :
    Guards R p P (Prog.appendNextEvent first jobId basis state reason message) fun _ => Q := by
  refine .bind (.readAt hfst) fun sequence => ?_
  refine .before ?_ fun _ _ hs => hs.1
  apply Guards.writeUnit fun hj => hstd fun hatom => hj ⟨hatom, rfl⟩
  intro s s' hk hs hbased hf
  exact h s s' hk hs hbased (appendEvent_moves hk hf)

end Guards

end Piqae
