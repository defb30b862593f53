/-
Piqae/Server/Commands.lean

The command stream from the control plane to its nodes (`agent_commands`,
`storage-postgres/src/lib.rs`): rows numbered by one identity sequence when they
are inserted and visible when their transaction commits, the call that
acknowledges by a high-water cursor and hands out the next batch, a network that
loses responses, and nodes that store the cursor of the last batch they applied
(`apply_commands`, `piqae-agent/src/main.rs`).

A call of `sync_agent_commands` is one step here.  Its transaction has two
statements, but a row that commits between them has not been delivered yet, so
the first one skips it: the call does what it would have done had the row
committed before it.
-/
import Piqae.Lib.SortedMap
import Piqae.Lib.Run

namespace Piqae

open SortedMap List

/-- A node as its tenant knows it. -/
structure AgentScope where
  workspaceId : String
  environmentId : String
  agentId : String
deriving DecidableEq, Repr

variable {Command : Type}

/-- A row of `agent_commands`, under its cursor.  Its two instants are read only
for whether they are set. -/
structure AgentCommandRow (Command : Type) where
  scope : AgentScope
  command : Command
  /-- The inserting transaction has committed, so other transactions see the row. -/
  committed : Bool
  delivered : Bool
  acknowledged : Bool
deriving DecidableEq

/-- The response to one call: the commands of the batch with the cursors of their
rows.  The wire carries the commands and the cursor of the last one. -/
structure AgentCommandBatch (Command : Type) where
  scope : AgentScope
  commands : List (Nat × Command)
deriving DecidableEq

namespace AgentCommandBatch

def cursor (batch : AgentCommandBatch Command) : Option Nat :=
  batch.commands.getLast?.map Prod.fst

end AgentCommandBatch

/-! ### The table -/

abbrev AgentCommandTable (Command : Type) := SortedMap Nat (AgentCommandRow Command)

namespace AgentCommandTable

variable (rows : AgentCommandTable Command) (scope : AgentScope)

/-- `acknowledged_at = now()` on delivered rows up to the cursor. -/
def acknowledge (cursor : Nat) : AgentCommandTable Command :=
  rows.mapValues fun key row =>
    if row.committed && row.scope == scope && decide (key ≤ cursor) && row.delivered &&
        !row.acknowledged then
      { row with acknowledged := true }
    else row

/-- The rows the batch is taken from, in cursor order. -/
def unacknowledged : List (Nat × AgentCommandRow Command) :=
  rows.entries.filter fun e => e.2.committed && e.2.scope == scope && !e.2.acknowledged

/-- The batch of a call: `limit.clamp(1, 100)` rows at most. -/
def pending (limit : Int) : List (Nat × AgentCommandRow Command) :=
  (unacknowledged rows scope).take (max 1 (min limit 100)).toNat

/-- `delivered_at = COALESCE(delivered_at, now())` on the rows of a batch. -/
def deliver (cursors : List Nat) : AgentCommandTable Command :=
  rows.mapValues fun key row =>
    if cursors.contains key then { row with delivered := true } else row

def syncAgentCommands (acknowledgedCursor : Option Nat) (limit : Int) :
    AgentCommandTable Command × AgentCommandBatch Command :=
  let rows := match acknowledgedCursor with
    | some cursor => acknowledge rows scope cursor
    | none => rows
  let batch := pending rows scope limit
  (deliver rows (batch.map Prod.fst), ⟨scope, batch.map fun e => (e.1, e.2.command)⟩)

end AgentCommandTable

/-! ### The machine -/

structure CommandSync (Command : Type) where
  /-- The last cursor the identity sequence gave out. -/
  sequence : Nat
  rows : AgentCommandTable Command
  /-- Responses under way. -/
  responses : List (AgentCommandBatch Command)
  /-- The setting `command_cursor` of each node's queue. -/
  commandCursor : AgentScope → Option Nat
  /-- The batches nodes have received and applied, oldest first. -/
  applied : List (AgentCommandBatch Command)

inductive CommandSyncOp (Command : Type)
  /-- A transaction inserts a command; nobody else sees it yet. -/
  | insert (scope : AgentScope) (command : Command)
  | commit (cursor : Nat)
  | rollback (cursor : Nat)
  /-- The node calls with its stored cursor; the response is under way. -/
  | sync (scope : AgentScope) (limit : Int)
  | lose (index : Nat)
  /-- A response arrives; `complete` says that every command of it was applied. -/
  | receive (index : Nat) (complete : Bool)

namespace CommandSync

def initial : CommandSync Command := ⟨0, SortedMap.empty, [], fun _ => none, []⟩

def step (s : CommandSync Command) : CommandSyncOp Command → CommandSync Command
  | .insert scope command =>
    { s with
      sequence := s.sequence + 1
      rows := s.rows.insert (s.sequence + 1) ⟨scope, command, false, false, false⟩ }
  | .commit cursor =>
    { s with
      rows := s.rows.mapValues fun key row =>
        if key = cursor then { row with committed := true } else row }
  | .rollback cursor =>
    { s with rows := s.rows.retain fun key row => row.committed || key != cursor }
  | .sync scope limit =>
    let (rows, batch) := s.rows.syncAgentCommands scope (s.commandCursor scope) limit
    { s with rows := rows, responses := s.responses ++ [batch] }
  | .lose index => { s with responses := s.responses.eraseIdx index }
  | .receive index complete =>
    match s.responses[index]? with
    | none => s
    | some batch =>
      let received := { s with responses := s.responses.eraseIdx index }
      if complete then
        { received with
          applied := s.applied ++ [batch]
          -- an empty batch carries no cursor and leaves the setting alone
          commandCursor := match batch.cursor with
            | some cursor => Function.update s.commandCursor batch.scope (some cursor)
            | none => s.commandCursor }
      else received

abbrev run (l : List (CommandSyncOp Command)) : CommandSync Command := Run.exec step initial l

/-- The row was in a batch its node received and applied. -/
def Applied (s : CommandSync Command) (cursor : Nat) (row : AgentCommandRow Command) : Prop :=
  ∃ batch ∈ s.applied, batch.scope = row.scope ∧ (cursor, row.command) ∈ batch.commands

/-- A transaction commits its command while no higher cursor of the same node has
been delivered: commands become visible in the order of their cursors, as far as
a node can tell. -/
def InOrder (s : CommandSync Command) : CommandSyncOp Command → Prop
  | .commit cursor => ∀ row ∈ s.rows.get? cursor,
      ∀ e ∈ s.rows.entries, e.2.scope = row.scope → e.2.delivered = true → e.1 ≤ cursor
  | _ => True

instance (s : CommandSync Command) (op : CommandSyncOp Command) :
    Decidable (s.InOrder op) := by
  cases op <;> unfold InOrder <;> infer_instance

/-! ### What a batch covers -/

/-- A batch is the whole stretch of unacknowledged rows up to its last one. -/
theorem mem_pending_of_le {rows : AgentCommandTable Command} {scope : AgentScope} {limit : Int}
    {e last : Nat × AgentCommandRow Command} (he : e ∈ rows.unacknowledged scope)
    (hlast : (rows.pending scope limit).getLast? = some last) (hle : e.1 ≤ last.1) :
    e ∈ rows.pending scope limit := by
  rw [← take_append_drop (max 1 (min limit 100)).toNat (rows.unacknowledged scope),
    mem_append] at he
  rcases he with he | he
  · exact he
  · -- the rows left out come after every row of the batch
    have hsort := rows.sorted.filter
      fun e => e.2.committed && e.2.scope == scope && !e.2.acknowledged
    rw [← take_append_drop (max 1 (min limit 100)).toNat (List.filter _ _)] at hsort
    have hlt := (pairwise_append.mp hsort).2.2 last (mem_of_getLast? hlast) e he
    exact absurd hle (not_le_of_gt hlt)

/-- What keeps the high-water cursor honest. -/
structure Ordered (s : CommandSync Command) : Prop where
  numbered : ∀ e ∈ s.rows.entries, e.1 ≤ s.sequence
  visible : ∀ e ∈ s.rows.entries, e.2.delivered = true → e.2.committed = true
  /-- Every row up to the cursor of a batch is in the batch, or was applied before. -/
  covered : ∀ batch ∈ s.responses ++ s.applied, ∀ cursor, batch.cursor = some cursor →
    ∀ e ∈ s.rows.entries, e.2.scope = batch.scope → e.2.committed = true → e.1 ≤ cursor →
      (e.1, e.2.command) ∈ batch.commands ∨ s.Applied e.1 e.2
  handedOut : ∀ batch ∈ s.responses ++ s.applied, ∀ cursor, batch.cursor = some cursor →
    ∃ row, (cursor, row) ∈ s.rows.entries ∧ row.scope = batch.scope ∧ row.delivered = true
  stored : ∀ scope cursor, s.commandCursor scope = some cursor →
    ∃ batch ∈ s.applied, batch.scope = scope ∧ batch.cursor = some cursor
  acknowledged : ∀ e ∈ s.rows.entries, e.2.acknowledged = true → s.Applied e.1 e.2

section Steps

variable {s : CommandSync Command} {cursor : Nat}

/-- Rows are applied or not whatever became of their flags since. -/
theorem Applied.of_row {row row' : AgentCommandRow Command} (h : s.Applied cursor row)
    (hsc : row'.scope = row.scope) (hcmd : row'.command = row.command) : s.Applied cursor row' := by
  obtain ⟨batch, hb, hs, hc⟩ := h
  exact ⟨batch, hb, hs.trans hsc.symm, hcmd ▸ hc⟩

section

variable (h : Ordered s)

include h

theorem Ordered.insert (scope : AgentScope) (command : Command) :
    Ordered (s.step (.insert scope command)) := by
  have hold : ∀ e ∈ (s.step (.insert scope command)).rows.entries,
      e = (s.sequence + 1, ⟨scope, command, false, false, false⟩) ∨ e ∈ s.rows.entries := by
    intro e he
    exact (mem_insert.mp he).imp id And.right
  constructor
  · intro e he
    rcases hold e he with rfl | he
    · exact le_rfl
    · exact (h.numbered e he).trans (Nat.le_succ _)
  · intro e he
    rcases hold e he with rfl | he
    · simp
    · exact h.visible e he
  · intro batch hb cursor hc e he hsc hcom hle
    rcases hold e he with rfl | he
    · cases hcom
    · exact h.covered batch hb cursor hc e he hsc hcom hle
  · intro batch hb cursor hc
    obtain ⟨row, hrow, hr⟩ := h.handedOut batch hb cursor hc
    have hlt := h.numbered _ hrow
    exact ⟨row, mem_insert.mpr (.inr ⟨Nat.ne_of_lt (Nat.lt_succ_of_le hlt), hrow⟩), hr⟩
  · exact h.stored
  · intro e he
    rcases hold e he with rfl | he
    · simp
    · exact h.acknowledged e he

/-- The rows change, and keep what a batch says about them. -/
theorem Ordered.mapRows {f : Nat → AgentCommandRow Command → AgentCommandRow Command}
    (hsame : ∀ cursor row, (f cursor row).scope = row.scope ∧ (f cursor row).command = row.command ∧
      (row.delivered = true → (f cursor row).delivered = true))
    (hvisible : ∀ cursor row, (cursor, row) ∈ s.rows.entries →
      (f cursor row).delivered = true → (f cursor row).committed = true)
    (hcommitted : ∀ batch ∈ s.responses ++ s.applied, ∀ last, batch.cursor = some last →
      ∀ cursor row, (cursor, row) ∈ s.rows.entries → row.scope = batch.scope → cursor ≤ last →
        (f cursor row).committed = true → row.committed = true)
    (hacknowledged : ∀ cursor row, (cursor, row) ∈ s.rows.entries →
      (f cursor row).acknowledged = true → s.Applied cursor row) :
    Ordered { s with rows := s.rows.mapValues f } := by
  have hold : ∀ e ∈ (s.rows.mapValues f).entries, ∃ cursor row,
      (cursor, row) ∈ s.rows.entries ∧ e = (cursor, f cursor row) := by
    intro e he
    obtain ⟨row, hrow, heq⟩ := mem_mapValues.mp he
    exact ⟨e.1, row, hrow, Prod.ext rfl heq⟩
  constructor
  · intro e he
    obtain ⟨cursor, row, hrow, rfl⟩ := hold e he
    exact h.numbered (cursor, row) hrow
  · intro e he
    obtain ⟨cursor, row, hrow, rfl⟩ := hold e he
    exact hvisible cursor row hrow
  · intro batch hb last hc e he hsc hcom hle
    obtain ⟨cursor, row, hrow, rfl⟩ := hold e he
    obtain ⟨hs, hcmd, -⟩ := hsame cursor row
    have hsc := hs.symm.trans hsc
    have hcom := hcommitted batch hb last hc cursor row hrow hsc hle hcom
    rw [hcmd]
    exact (h.covered batch hb last hc _ hrow hsc hcom hle).imp id fun happ => happ.of_row hs hcmd
  · intro batch hb last hc
    obtain ⟨row, hrow, hs, hd⟩ := h.handedOut batch hb last hc
    obtain ⟨hs', -, hd'⟩ := hsame last row
    exact ⟨_, mem_mapValues_of_mem hrow, hs'.trans hs, hd' hd⟩
  · exact h.stored
  · intro e he hack
    obtain ⟨cursor, row, hrow, rfl⟩ := hold e he
    obtain ⟨hs, hcmd, -⟩ := hsame cursor row
    exact (hacknowledged cursor row hrow hack).of_row hs hcmd

theorem Ordered.commit (hin : s.InOrder (.commit cursor)) : Ordered (s.step (.commit cursor)) := by
  refine h.mapRows ?_ ?_ ?_ ?_
  · intro key row
    split_ifs
    · exact ⟨rfl, rfl, id⟩
    · exact ⟨rfl, rfl, id⟩
  · intro key row hrow
    split_ifs
    · exact fun _ => rfl
    · exact h.visible _ hrow
  · intro batch hb last hc key row hrow hsc hle
    split_ifs with hkey
    · -- the batch ends in a delivered row, so not above the one that commits now
      subst hkey
      obtain ⟨other, hother, hos, hod⟩ := h.handedOut batch hb last hc
      have hge := hin row (get?_eq_some_iff.mpr hrow) _ hother (hos.trans hsc.symm) hod
      obtain rfl : key = last := le_antisymm hle hge
      obtain rfl : row = other := by simpa using eq_of_mem_of_mem hrow hother rfl
      exact fun _ => h.visible _ hrow hod
    · exact id
  · intro key row hrow
    split_ifs
    · exact h.acknowledged _ hrow
    · exact h.acknowledged _ hrow

theorem Ordered.rollback (cursor : Nat) : Ordered (s.step (.rollback cursor)) := by
  have hold : ∀ e ∈ (s.step (.rollback cursor)).rows.entries, e ∈ s.rows.entries := by
    intro e he
    exact (mem_retain.mp he).1
  constructor
  · exact fun e he => h.numbered e (hold e he)
  · exact fun e he => h.visible e (hold e he)
  · exact fun batch hb cur hc e he => h.covered batch hb cur hc e (hold e he)
  · intro batch hb cur hc
    obtain ⟨row, hrow, hs, hd⟩ := h.handedOut batch hb cur hc
    have hcom : row.committed = true := h.visible _ hrow hd
    exact ⟨row, mem_retain.mpr ⟨hrow, by simp [hcom]⟩, hs, hd⟩
  · exact h.stored
  · exact fun e he => h.acknowledged e (hold e he)

/-- Responses may be lost, and nodes may apply them. -/
theorem Ordered.arrive {s' : CommandSync Command} (hrows : s'.rows = s.rows)
    (hseq : s'.sequence = s.sequence)
    (hbs : ∀ batch ∈ s'.responses ++ s'.applied, batch ∈ s.responses ++ s.applied)
    (happlied : ∀ batch ∈ s.applied, batch ∈ s'.applied)
    (hsto : ∀ scope cursor, s'.commandCursor scope = some cursor →
      ∃ batch ∈ s'.applied, batch.scope = scope ∧ batch.cursor = some cursor) : Ordered s' := by
  have hmono : ∀ {cursor row}, s.Applied cursor row → s'.Applied cursor row := by
    rintro cursor row ⟨batch, hb, happ⟩
    exact ⟨batch, happlied batch hb, happ⟩
  constructor
  · rw [hrows, hseq]
    exact h.numbered
  · rw [hrows]
    exact h.visible
  · intro batch hb cursor hc e he hsc hcom hle
    rw [hrows] at he
    exact (h.covered batch (hbs batch hb) cursor hc e he hsc hcom hle).imp id hmono
  · intro batch hb
    rw [hrows]
    exact h.handedOut batch (hbs batch hb)
  · exact hsto
  · intro e he hack
    rw [hrows] at he
    exact hmono (h.acknowledged e he hack)

theorem Ordered.lose (index : Nat) : Ordered (s.step (.lose index)) := by
  refine h.arrive rfl rfl ?_ (fun _ hb => hb) h.stored
  intro batch hb
  rw [mem_append] at hb ⊢
  exact hb.imp mem_of_mem_eraseIdx id

theorem Ordered.receive (index : Nat) (complete : Bool) :
    Ordered (s.step (.receive index complete)) := by
  simp only [step]
  split
  · exact h
  · next batch hget =>
    have hmem : batch ∈ s.responses := mem_of_getElem? hget
    split
    · refine h.arrive rfl rfl ?_ (fun _ hb => mem_append_left _ hb) ?_
      · intro b hb
        simp only [mem_append, mem_singleton] at hb ⊢
        rcases hb with hb | hb | rfl
        · exact .inl (mem_of_mem_eraseIdx hb)
        · exact .inr hb
        · exact .inl hmem
      · intro scope cursor hcur
        have hlast : batch ∈ s.applied ++ [batch] := mem_append_right _ (mem_singleton_self _)
        have hkeep : s.commandCursor scope = some cursor → ∃ b ∈ s.applied ++ [batch],
            b.scope = scope ∧ b.cursor = some cursor := by
          intro hc
          obtain ⟨b, hb, hbc⟩ := h.stored scope cursor hc
          exact ⟨b, mem_append_left _ hb, hbc⟩
        rcases hbatch : batch.cursor with - | cur
        · simp only [hbatch] at hcur
          exact hkeep hcur
        · simp only [hbatch] at hcur
          by_cases hsc : scope = batch.scope
          · subst hsc
            rw [Function.update_self] at hcur
            exact ⟨batch, hlast, rfl, hbatch.trans hcur⟩
          · rw [Function.update_of_ne hsc] at hcur
            exact hkeep hcur
    · refine h.arrive rfl rfl ?_ (fun _ hb => hb) h.stored
      intro b hb
      rw [mem_append] at hb ⊢
      exact hb.imp mem_of_mem_eraseIdx id

/-- The first statement of a call acknowledges what the reported batch covers. -/
theorem Ordered.acknowledge {scope : AgentScope} (hcur : s.commandCursor scope = some cursor) :
    Ordered { s with rows := s.rows.acknowledge scope cursor } := by
  refine h.mapRows ?_ ?_ ?_ ?_
  · intro key row
    split_ifs
    · exact ⟨rfl, rfl, id⟩
    · exact ⟨rfl, rfl, id⟩
  · intro key row hrow
    split_ifs
    · exact h.visible _ hrow
    · exact h.visible _ hrow
  · intro batch hb last hc key row hrow hsc hle
    split_ifs
    · exact id
    · exact id
  · intro key row hrow
    split_ifs with hcond
    · intro _
      simp only [Bool.and_eq_true, beq_iff_eq, decide_eq_true_eq] at hcond
      obtain ⟨⟨⟨⟨hcom, rfl⟩, hle⟩, -⟩, -⟩ := hcond
      obtain ⟨batch, hb, hbs, hbc⟩ := h.stored _ cursor hcur
      exact (h.covered batch (mem_append_right _ hb) cursor hbc _ hrow hbs.symm hcom
        hle).elim (fun hin => ⟨batch, hb, hbs, hin⟩) id
    · exact h.acknowledged _ hrow

/-- The second statement hands out a batch that covers what it ends in. -/
theorem Ordered.deliver (scope : AgentScope) (limit : Int) : Ordered { s with
      rows := s.rows.deliver ((s.rows.pending scope limit).map Prod.fst)
      responses := s.responses ++
        [⟨scope, (s.rows.pending scope limit).map fun e => (e.1, e.2.command)⟩] } := by
  generalize hp : s.rows.pending scope limit = handed
  have hrows : ∀ e ∈ handed, e ∈ s.rows.entries ∧ e.2.committed = true ∧ e.2.scope = scope := by
    intro e he
    rw [← hp] at he
    obtain ⟨hmem, hcond⟩ := mem_filter.mp (mem_of_mem_take he)
    simp only [Bool.and_eq_true, beq_iff_eq] at hcond
    exact ⟨hmem, hcond.1⟩
  have hdel : Ordered { s with rows := s.rows.deliver (handed.map Prod.fst) } := by
    refine h.mapRows ?_ ?_ ?_ ?_
    · intro key row
      split_ifs
      · exact ⟨rfl, rfl, fun _ => rfl⟩
      · exact ⟨rfl, rfl, id⟩
    · intro key row hrow
      split_ifs with hin
      · intro _
        obtain ⟨e, he, rfl⟩ := mem_map.mp (contains_iff_mem.mp hin)
        have heq : e = (e.1, row) := eq_of_mem_of_mem (hrows e he).1 hrow rfl
        exact (congrArg (·.2.committed) heq).symm.trans (hrows e he).2.1
      · exact h.visible _ hrow
    · intro batch hb last hc key row hrow hsc hle
      split_ifs
      · exact id
      · exact id
    · intro key row hrow
      split_ifs
      · exact h.acknowledged _ hrow
      · exact h.acknowledged _ hrow
  have hbs : ∀ {new batch : AgentCommandBatch Command},
      batch ∈ (s.responses ++ [new]) ++ s.applied →
        batch = new ∨ batch ∈ s.responses ++ s.applied := by
    intro new batch hb
    simp only [mem_append, mem_singleton] at hb ⊢
    rcases hb with (hb | hb) | hb
    · exact .inr (.inl hb)
    · exact .inl hb
    · exact .inr (.inr hb)
  have hcur : ∀ cur,
      (⟨scope, handed.map fun e => (e.1, e.2.command)⟩ : AgentCommandBatch Command).cursor =
        some cur →
      ∃ last, handed.getLast? = some last ∧ last.1 = cur := by
    intro cur hc
    simpa [AgentCommandBatch.cursor, List.getLast?_map] using hc
  refine { hdel with covered := ?_, handedOut := ?_ }
  · intro batch hb cur hc e he hsc hcommitted hle
    rcases hbs hb with rfl | hb
    · obtain ⟨last, hlast, rfl⟩ := hcur cur hc
      obtain ⟨row, hrow, heq⟩ := mem_mapValues.mp he
      have hflags : e.2.scope = row.scope ∧ e.2.command = row.command ∧
          e.2.committed = row.committed := by
        rw [heq]
        split_ifs
        · exact ⟨rfl, rfl, rfl⟩
        · exact ⟨rfl, rfl, rfl⟩
      obtain ⟨hs, hcmd, hcom⟩ := hflags
      rcases hack : row.acknowledged with - | -
      · refine .inl (mem_map.mpr ⟨(e.1, row), ?_, by rw [hcmd]⟩)
        rw [← hp] at hlast ⊢
        refine mem_pending_of_le (mem_filter.mpr ⟨hrow, ?_⟩) hlast hle
        simp [← hcom, hcommitted, hack, ← hs, show e.2.scope = scope from hsc]
      · exact .inr ((h.acknowledged _ hrow hack).of_row hs hcmd)
    · exact hdel.covered batch hb cur hc e he hsc hcommitted hle
  · intro batch hb cur hc
    rcases hbs hb with rfl | hb
    · obtain ⟨last, hlast, rfl⟩ := hcur cur hc
      have hmem := mem_of_getLast? hlast
      have hin : (handed.map Prod.fst).contains last.1 = true := by
        simpa using ⟨last.2, hmem⟩
      refine ⟨_, mem_mapValues_of_mem (hrows last hmem).1, ?_⟩
      rw [if_pos hin]
      exact ⟨(hrows last hmem).2.2, rfl⟩
    · exact hdel.handedOut batch hb cur hc

theorem Ordered.sync (scope : AgentScope) (limit : Int) : Ordered (s.step (.sync scope limit)) := by
  rcases hc : s.commandCursor scope with - | cursor
  · simpa only [step, AgentCommandTable.syncAgentCommands, hc] using h.deliver scope limit
  · simpa only [step, AgentCommandTable.syncAgentCommands, hc] using
      (h.acknowledge hc).deliver scope limit

theorem Ordered.step {op : CommandSyncOp Command} (hin : s.InOrder op) : Ordered (s.step op) := by
  cases op with
  | insert scope command => exact h.insert scope command
  | commit cursor => exact h.commit hin
  | rollback cursor => exact h.rollback cursor
  | sync scope limit => exact h.sync scope limit
  | lose index => exact h.lose index
  | receive index complete => exact h.receive index complete

end

end Steps

namespace Sample

def node : AgentScope := ⟨"workspace", "environment", "node"⟩

/-- Two commands commit in order; the node applies the first batch and reports it. -/
def orderly : List (CommandSyncOp String) :=
  [.insert node "pause", .commit 1, .insert node "resume", .sync node 100, .receive 0 true,
    .commit 2, .sync node 100]

end Sample

open Sample

end CommandSync

end Piqae
