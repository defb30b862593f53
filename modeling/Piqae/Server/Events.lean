/-
Piqae/Server/Events.lean

The tenant event log of the control plane and a reader that follows it with a
cursor (`list_tenant_events` and `enqueue_webhook_event_in_transaction`,
`storage-postgres/src/lib.rs`).

An event id is generated inside the transaction that writes the event, before its
INSERT, and the row becomes visible when the transaction commits.  The reader asks
for the rows whose id is greater than the last it received.  So the order of the
cursor is the order in which ids are generated, and the order in which rows appear
is another one: a reader that has passed an id never sees a row committed under it
later (`overtaken_event_is_lost`), and every other row reaches it exactly once.

Ids are an arbitrary linear order; that later ids compare greater is a condition
on runs (`Increasing`).
-/
import Piqae.Lib.Run
import Piqae.Server.Topology

namespace Piqae.Server

open SortedMap List

/-- A row of `webhook_events`, without its id. -/
structure EventRow where
  scope : TenantScope
  eventType : String
  payload : String
  idempotencyKey : Option String
deriving DecidableEq, Repr

structure StoredTenantEvent (Id : Type) where
  id : Id
  eventType : String
  payload : String
deriving DecidableEq, Repr

/-- A transaction that writes events: the event whose INSERT has not run yet, and
the rows it has inserted. -/
structure EventTransaction (Id : Type) where
  proposed : Option (Id × EventRow)
  rows : List (Id × EventRow)
deriving DecidableEq, Repr

/-- The table, the open transactions, the events proposed so far (newest first),
and a reader: the id it received last, and all it received. -/
structure EventLog (Id : Type) [LinearOrder Id] where
  committed : SortedMap Id EventRow
  transactions : SortedMap Nat (EventTransaction Id)
  generated : List (Id × EventRow)
  after : Option Id
  received : List (StoredTenantEvent Id)
deriving DecidableEq

inductive EventOp (Id : Type)
  /-- A transaction generates the id of an event it is about to insert. -/
  | propose (transaction : Nat) (id : Id) (row : EventRow)
  | insert (transaction : Nat)
  | commit (transaction : Nat)
  | rollback (transaction : Nat)
  | read (limit : Int)
deriving DecidableEq, Repr

def EventOp.isRead {Id : Type} : EventOp Id → Bool
  | .read _ => true
  | _ => false

/-- The cursor has not reached an id. -/
def ahead {Id : Type} [LinearOrder Id] (after : Option Id) (id : Id) : Bool :=
  match after with
  | none => true
  | some cursor => decide (cursor < id)

namespace EventLog

variable {Id : Type} [LinearOrder Id] {e : Id × EventRow} {id : Id}

def initial : EventLog Id := ⟨.empty, .empty, [], none, []⟩

/-- What the reader gets of a row. -/
def eventOf (e : Id × EventRow) : StoredTenantEvent Id := ⟨e.1, e.2.eventType, e.2.payload⟩

def listTenantEvents (log : EventLog Id) (tenant : TenantScope) (after : Option Id) (limit : Int) :
    List (StoredTenantEvent Id) :=
  ((log.committed.entries.filter fun e => e.2.scope == tenant && ahead after e.1).take
    (max 1 (min limit 500)).toNat).map eventOf

/-- The open transaction of a number; one that has done nothing is empty. -/
def transaction (log : EventLog Id) (number : Nat) : EventTransaction Id :=
  (log.transactions.get? number).getD ⟨none, []⟩

/-- A row with the tenant and the idempotency key of another: the partial unique
index sees rows with a key only. -/
def sameKey (row : EventRow) (e : Id × EventRow) : Bool :=
  row.idempotencyKey.isSome && e.2.scope == row.scope && e.2.idempotencyKey == row.idempotencyKey

/-- `INSERT … ON CONFLICT DO NOTHING`: the statement waits for another transaction
that holds the key, and does nothing once the key is taken. -/
def insert (log : EventLog Id) (number : Nat) : EventLog Id :=
  let own := log.transaction number
  match own.proposed with
  | none => log
  | some (id, row) =>
    if log.transactions.entries.any fun e => e.1 != number && e.2.rows.any (sameKey row) then log
    else if log.committed.entries.any (sameKey row) || own.rows.any (sameKey row) then
      { log with transactions := log.transactions.insert number ⟨none, own.rows⟩ }
    else
      { log with
        transactions := log.transactions.insert number ⟨none, own.rows ++ [(id, row)]⟩ }

def step (tenant : TenantScope) (log : EventLog Id) : EventOp Id → EventLog Id
  | .propose number id row =>
    let own := log.transaction number
    if own.proposed.isSome then log
    else
      { log with
        transactions := log.transactions.insert number ⟨some (id, row), own.rows⟩
        generated := (id, row) :: log.generated }
  | .insert number => log.insert number
  | .commit number =>
    let own := log.transaction number
    if own.proposed.isSome then log
    else
      { log with
        committed := own.rows.foldl (fun rows e => rows.insert e.1 e.2) log.committed
        transactions := log.transactions.erase number }
  | .rollback number => { log with transactions := log.transactions.erase number }
  | .read limit =>
    let page := log.listTenantEvents tenant log.after limit
    { log with
      after := (page.getLast?.map fun event => event.id) <|> log.after
      received := log.received ++ page }

abbrev run (tenant : TenantScope) (l : List (EventOp Id)) : EventLog Id :=
  Run.exec (step tenant) initial l

/-! ### Conditions on steps -/

/-- Ids generated later compare greater, across all writers. -/
def Increasing (log : EventLog Id) : EventOp Id → Prop
  | .propose _ id _ => ∀ e ∈ log.generated, e.1 < id
  | _ => True

/-- A transaction commits before the reader passes an id of the tenant it wrote. -/
def InTime (tenant : TenantScope) (log : EventLog Id) : EventOp Id → Prop
  | .commit number => ∀ e ∈ (log.transaction number).rows, e.2.scope = tenant →
    ahead log.after e.1 = true
  | _ => True

instance (log : EventLog Id) : ∀ op, Decidable (log.Increasing op)
  | .propose _ id _ => inferInstanceAs (Decidable (∀ e ∈ log.generated, e.1 < id))
  | .insert _ | .commit _ | .rollback _ | .read _ => isTrue trivial

instance (tenant : TenantScope) (log : EventLog Id) : ∀ op, Decidable (log.InTime tenant op)
  | .commit number => inferInstanceAs (Decidable (∀ e ∈ (log.transaction number).rows,
      e.2.scope = tenant → ahead log.after e.1 = true))
  | .propose .. | .insert _ | .rollback _ | .read _ => isTrue trivial

/-! ### The cursor -/

theorem ahead_of_ahead {after : Option Id} {id' : Id} (h : ahead after id = true) (hle : id ≤ id') :
    ahead after id' = true := by
  cases after with
  | none => rfl
  | some cursor =>
    simp only [ahead, decide_eq_true_eq] at h ⊢
    exact h.trans_le hle

/-- A page of a sorted list has every entry that is not past one of its own. -/
theorem mem_take_of_le {l : List (Id × EventRow)} (hsort : l.Pairwise fun a b => a.1 < b.1)
    {n : Nat} {e' : Id × EventRow} (he : e ∈ l) (he' : e' ∈ l.take n) (hle : e.1 ≤ e'.1) :
    e ∈ l.take n := by
  rw [← take_append_drop n l] at he hsort
  rcases mem_append.mp he with he | he
  · exact he
  · have hlt := (pairwise_append.mp hsort).2.2 e' he' e he
    exact absurd hle (not_le.mpr hlt)

variable {tenant : TenantScope} {log : EventLog Id} {k : Nat} {log' : EventLog Id}
  {rows : List (Id × EventRow)} {m : SortedMap Id EventRow} {op : EventOp Id}
  {event : StoredTenantEvent Id} {l : List (EventOp Id)}

/-- The rows the reader has not passed, in order. -/
def unread (log : EventLog Id) (tenant : TenantScope) : List (Id × EventRow) :=
  log.committed.entries.filter fun e => e.2.scope == tenant && ahead log.after e.1

theorem mem_unread : e ∈ log.unread tenant ↔
    e ∈ log.committed.entries ∧ e.2.scope = tenant ∧ ahead log.after e.1 = true := by
  simp [unread]

theorem unread_sorted : (log.unread tenant).Pairwise fun a b => a.1 < b.1 :=
  log.committed.sorted.filter _

/-- What a read returns and where it leaves the cursor. -/
structure Reads (log : EventLog Id) (tenant : TenantScope) (limit : Int)
    (page : List (Id × EventRow)) : Prop where
  unread : ∀ e ∈ page, e ∈ log.unread tenant
  sorted : page.Pairwise fun a b => a.1 < b.1
  gapless : ∀ e ∈ log.unread tenant, ∀ e' ∈ page, e.1 ≤ e'.1 → e ∈ page
  progress : page = [] → log.unread tenant = []
  received : (log.step tenant (.read limit)).received =
    log.received ++ page.map eventOf
  after : (log.step tenant (.read limit)).after = (page.getLast?.map Prod.fst <|> log.after)

theorem reads (log : EventLog Id) (tenant : TenantScope) (limit : Int) :
    ∃ page, Reads log tenant limit page := by
  have hpositive : 0 < (max 1 (min limit 500)).toNat := by omega
  refine ⟨(log.unread tenant).take (max 1 (min limit 500)).toNat, ?_, ?_, ?_, ?_, rfl, ?_⟩
  · exact fun e he => mem_of_mem_take he
  · exact unread_sorted.take
  · exact fun e he e' he' hle => mem_take_of_le unread_sorted he he' hle
  · intro hnil
    rcases take_eq_nil_iff.mp hnil with hzero | hnil
    · omega
    · exact hnil
  · simp only [step, listTenantEvents, unread, List.getLast?_map, Option.map_map]
    rfl

namespace Reads

variable {limit : Int} {page : List (Id × EventRow)} {id : Id}

/-- A read that returned something leaves the cursor at its last row. -/
theorem cursor (h : Reads log tenant limit page) :
    page = [] ∧ (log.step tenant (.read limit)).after = log.after ∨
      ∃ last ∈ page, (log.step tenant (.read limit)).after = some last.1 ∧
        ∀ e ∈ page, e.1 ≤ last.1 := by
  have haft := h.after
  rcases eq_nil_or_concat' page with rfl | ⟨init, last, rfl⟩
  · exact .inl ⟨rfl, haft⟩
  · have hsort := pairwise_append.mp h.sorted
    exact .inr ⟨last, by simp, by simpa using haft,
      forall_mem_concat (fun e he => (hsort.2.2 e he last (by simp)).le) le_rfl⟩

theorem passed (h : Reads log tenant limit page) {e : Id × EventRow} (he : e ∈ page) :
    ahead (log.step tenant (.read limit)).after e.1 = false := by
  rcases h.cursor with ⟨rfl, -⟩ | ⟨last, -, haft, hle⟩
  · cases he
  · rw [haft]
    exact decide_eq_false (not_lt.mpr (hle e he))

/-- The cursor does not go back. -/
theorem kept (h : Reads log tenant limit page) (hid : ahead log.after id = false) :
    ahead (log.step tenant (.read limit)).after id = false := by
  rcases h.cursor with ⟨-, haft⟩ | ⟨last, hlast, haft, -⟩
  · rw [haft, hid]
  · rw [haft]
    refine decide_eq_false ?_
    intro hlt
    have := ahead_of_ahead (mem_unread.mp (h.unread last hlast)).2.2 hlt.le
    rw [hid] at this
    cases this

theorem reached (h : Reads log tenant limit page) (hid : ahead log.after id = true)
    (hid' : ahead (log.step tenant (.read limit)).after id = false) : ∃ e ∈ page, id ≤ e.1 := by
  rcases h.cursor with ⟨-, haft⟩ | ⟨last, hlast, haft, -⟩
  · rw [haft, hid] at hid'
    cases hid'
  · rw [haft] at hid'
    exact ⟨last, hlast, not_lt.mp (of_decide_eq_false hid')⟩

end Reads

/-- The reader has received ids in their order, and its cursor has passed them. -/
def Ordered (log : EventLog Id) : Prop :=
  log.received.Pairwise (fun event event' => event.id < event'.id) ∧
    ∀ event ∈ log.received, ahead log.after event.id = false

theorem Ordered.read (h : Ordered log) (limit : Int) :
    Ordered (log.step tenant (.read limit)) := by
  obtain ⟨page, hreads⟩ := reads log tenant limit
  unfold Ordered
  rw [hreads.received, pairwise_append, forall_mem_append, forall_mem_map]
  refine ⟨⟨h.1, pairwise_map.mpr hreads.sorted, fun event hev event' hev' => ?_⟩,
    fun event hev => hreads.kept (h.2 event hev), fun e => hreads.passed⟩
  obtain ⟨e, he, rfl⟩ := mem_map.mp hev'
  by_contra hle
  have hahead := ahead_of_ahead (mem_unread.mp (hreads.unread e he)).2.2 (not_lt.mp hle)
  rw [h.2 event hev] at hahead
  cases hahead

/-! ### Transactions -/

theorem transaction_insert {number : Nat} {own : EventTransaction Id}
    (h : log'.transactions = log.transactions.insert number own) :
    log'.transaction k = if k = number then own else log.transaction k := by
  unfold transaction
  rw [h]
  split
  · next hk => rw [hk, SortedMap.get?_insert_self]; rfl
  · next hk => rw [get?_insert_ne hk]

theorem transaction_erase (log : EventLog Id) {number : Nat}
    (h : log'.transactions = log.transactions.erase number) :
    log'.transaction k = if k = number then ⟨none, []⟩ else log.transaction k := by
  unfold transaction
  rw [h]
  split
  · next hk => rw [hk, get?_erase_self]; rfl
  · next hk => rw [get?_erase_ne hk]

theorem mem_commit (h : e ∈ (rows.foldl (fun m e => m.insert e.1 e.2) m).entries) :
    e ∈ m.entries ∨ e ∈ rows := by
  induction rows generalizing m with
  | nil => exact .inl h
  | cons row rows ih =>
    rcases ih h with hmem | hmem
    · rcases mem_insert.mp hmem with rfl | ⟨-, hmem⟩
      · exact .inr (mem_cons_self ..)
      · exact .inl hmem
    · exact .inr (mem_cons_of_mem _ hmem)

/-- Ids being unique, a row that is there stays. -/
theorem mem_commit_of_mem (he : e ∈ m.entries) (huniq : ∀ e' ∈ rows, e'.1 = e.1 → e' = e) :
    e ∈ (rows.foldl (fun m e => m.insert e.1 e.2) m).entries := by
  induction rows generalizing m with
  | nil => exact he
  | cons row rows ih =>
    refine ih ?_ fun e' he' => huniq e' (mem_cons_of_mem _ he')
    by_cases hid : e.1 = row.1
    · obtain rfl := huniq row (mem_cons_self ..) hid.symm
      exact mem_insert.mpr (.inl rfl)
    · exact mem_insert.mpr (.inr ⟨hid, he⟩)

/-! ### The invariant -/

/-- Rows have the ids they were proposed with, and the reader has all the rows of
its tenant that it has passed. -/
structure Sound (tenant : TenantScope) (log : EventLog Id) : Prop where
  committed : ∀ e ∈ log.committed.entries, e ∈ log.generated
  proposed : ∀ number, ∀ e ∈ (log.transaction number).proposed, e ∈ log.generated
  rows : ∀ number, ∀ e ∈ (log.transaction number).rows, e ∈ log.generated
  increasing : log.generated.Pairwise fun e e' => e'.1 < e.1
  sorted : log.received.Pairwise fun event event' => event.id < event'.id
  passed : ∀ event ∈ log.received, ahead log.after event.id = false
  complete : ∀ e ∈ log.committed.entries, e.2.scope = tenant → ahead log.after e.1 = false →
    eventOf e ∈ log.received

theorem sound_initial : Sound tenant (initial : EventLog Id) where
  committed := by simp [initial]
  proposed := by simp [initial, transaction]
  rows := by simp [initial, transaction]
  increasing := .nil
  sorted := .nil
  passed := by simp [initial]
  complete := by simp [initial]

namespace Sound

variable {number : Nat}

section

variable (h : Sound tenant log)

include h

/-- A transaction changes, to one that holds what was proposed; the table and the
reader do not. -/
theorem replace {log' : EventLog Id} {own : EventTransaction Id} (new : List (Id × EventRow))
    (htx : ∀ k, log'.transaction k = if k = number then own else log.transaction k)
    (hprop : ∀ e ∈ own.proposed, e ∈ new ++ log.generated)
    (hrows : ∀ e ∈ own.rows, e ∈ new ++ log.generated)
    (hinc : (new ++ log.generated).Pairwise fun e e' => e'.1 < e.1)
    (hgen : log'.generated = new ++ log.generated)
    (hcom : log'.committed = log.committed) (haft : log'.after = log.after)
    (hrecv : log'.received = log.received) : Sound tenant log' where
  committed e he := by
    rw [hgen]
    exact mem_append_right _ (h.committed e (hcom ▸ he))
  proposed k e he := by
    rw [hgen]
    rw [htx] at he
    split_ifs at he
    · exact hprop e he
    · exact mem_append_right _ (h.proposed k e he)
  rows k e he := by
    rw [hgen]
    rw [htx] at he
    split_ifs at he
    · exact hrows e he
    · exact mem_append_right _ (h.rows k e he)
  increasing := hgen ▸ hinc
  sorted := hrecv ▸ h.sorted
  passed := by rw [hrecv, haft]; exact h.passed
  complete := by rw [hrecv, haft, hcom]; exact h.complete

theorem propose {id : Id} {row : EventRow} (hinc : log.Increasing (.propose number id row)) :
    Sound tenant (log.step tenant (.propose number id row)) := by
  simp only [step]
  split
  · exact h
  refine h.replace [(id, row)] (fun k => transaction_insert rfl) ?_ ?_ ?_ rfl rfl rfl rfl
  · rintro e ⟨⟩
    exact mem_cons_self ..
  · exact fun e he => mem_cons_of_mem _ (h.rows number e he)
  · exact pairwise_cons.mpr ⟨hinc, h.increasing⟩

theorem insert (number : Nat) : Sound tenant (log.step tenant (.insert number)) := by
  have hprop := h.proposed number
  have hrows := h.rows number
  simp only [step, EventLog.insert]
  split
  · exact h
  next id row hrow =>
  split_ifs
  · exact h
  · exact h.replace [] (fun k => transaction_insert rfl) (by simp) hrows h.increasing
      rfl rfl rfl rfl
  · exact h.replace [] (fun k => transaction_insert rfl) (by simp)
      (forall_mem_concat hrows (hprop _ (by rw [hrow]; rfl))) h.increasing rfl rfl rfl rfl

theorem rollback (number : Nat) : Sound tenant (log.step tenant (.rollback number)) :=
  h.replace [] (fun k => transaction_erase log rfl) (by simp) (by simp) h.increasing rfl rfl rfl rfl

theorem unique {e e' : Id × EventRow} (he : e ∈ log.generated) (he' : e' ∈ log.generated)
    (hid : e.1 = e'.1) : e = e' := by
  have hnodup : (log.generated.map Prod.fst).Nodup :=
    pairwise_map.mpr (h.increasing.imp fun hlt => ne_of_gt hlt)
  exact inj_on_of_nodup_map hnodup he he' hid

/-- A committed row stays in the table. -/
theorem stays {e : Id × EventRow} (he : e ∈ log.committed.entries) (op : EventOp Id) :
    e ∈ (log.step tenant op).committed.entries := by
  cases op with
  | propose =>
    simp only [step]
    split <;> exact he
  | insert number =>
    simp only [step, EventLog.insert]
    split
    · exact he
    · split_ifs <;> exact he
  | commit number =>
    simp only [step]
    split_ifs
    · exact he
    · exact mem_commit_of_mem he fun e' he' hid =>
        h.unique (h.rows number e' he') (h.committed e he) hid
  | _ => exact he

theorem commit (hintime : log.InTime tenant (.commit number)) :
    Sound tenant (log.step tenant (.commit number)) := by
  simp only [step]
  split_ifs with hprop
  · exact h
  have hmem : ∀ e, e ∈ ((log.transaction number).rows.foldl (fun rows e => rows.insert e.1 e.2)
      log.committed).entries → e ∈ log.committed.entries ∨ e ∈ (log.transaction number).rows :=
    fun e he => mem_commit he
  constructor
  · intro e he
    rcases hmem e he with he | he
    · exact h.committed e he
    · exact h.rows number e he
  · intro k e he
    rw [transaction_erase log rfl] at he
    split_ifs at he
    · cases he
    · exact h.proposed k e he
  · intro k e he
    rw [transaction_erase log rfl] at he
    split_ifs at he
    · cases he
    · exact h.rows k e he
  · exact h.increasing
  · exact h.sorted
  · exact h.passed
  · intro e he hsc hpass
    rcases hmem e he with he | he
    · exact h.complete e he hsc hpass
    · -- the reader has not passed a row that is committed now
      have hahead := hintime e he hsc
      rw [hpass] at hahead
      cases hahead

theorem read (limit : Int) : Sound tenant (log.step tenant (.read limit)) := by
  obtain ⟨page, hreads⟩ := reads log tenant limit
  have hord : Ordered (log.step tenant (.read limit)) := .read ⟨h.sorted, h.passed⟩ limit
  refine ⟨h.committed, h.proposed, h.rows, h.increasing, hord.1, hord.2, ?_⟩
  rw [hreads.received]
  intro e he hsc hpass
  rcases hahead : ahead log.after e.1 with - | -
  · exact mem_append_left _ (h.complete e he hsc hahead)
  · obtain ⟨e', he', hle⟩ := hreads.reached hahead hpass
    have hpage := hreads.gapless e (mem_unread.mpr ⟨he, hsc, hahead⟩) e' he' hle
    exact mem_append_right _ (mem_map_of_mem hpage)

/-- What one step keeps. -/
theorem step {op : EventOp Id} (hinc : log.Increasing op) (hintime : log.InTime tenant op) :
    Sound tenant (log.step tenant op) := by
  cases op with
  | propose => exact h.propose hinc
  | insert number => exact h.insert number
  | commit number => exact h.commit hintime
  | rollback number => exact h.rollback number
  | read limit => exact h.read limit

end

end Sound

/-! ### Every row reaches the reader -/

theorem countP_lt_countP {α : Type} {p q : α → Bool} {l : List α} {a : α}
    (himp : ∀ a ∈ l, q a = true → p a = true) (ha : a ∈ l) (hp : p a = true)
    (hq : q a = false) : l.countP q < l.countP p := by
  obtain ⟨l₁, l₂, rfl⟩ := append_of_mem ha
  have h₁ : l₁.countP q ≤ l₁.countP p :=
    countP_mono_left fun a ha => himp a (by simp [ha])
  have h₂ : l₂.countP q ≤ l₂.countP p :=
    countP_mono_left fun a ha => himp a (by simp [ha])
  simp only [countP_append, countP_cons, hp, hq]
  simp only [Bool.false_eq_true, if_false, if_true]
  omega

/-- How many ids generated so far the reader may still meet on its way to an id. -/
def distance (log : EventLog Id) (id : Id) : Nat :=
  log.generated.countP fun e => decide (e.1 ≤ id) && ahead log.after e.1

/-- Only reads change what the reader has. -/
theorem step_reader (h : op.isRead = false) :
    (log.step tenant op).after = log.after ∧ (log.step tenant op).received = log.received := by
  cases op with
  | propose =>
    simp only [step]
    split <;> exact ⟨rfl, rfl⟩
  | insert number =>
    simp only [step, insert]
    split
    · exact ⟨rfl, rfl⟩
    · split_ifs <;> exact ⟨rfl, rfl⟩
  | commit number =>
    simp only [step]
    split_ifs <;> exact ⟨rfl, rfl⟩
  | rollback number => exact ⟨rfl, rfl⟩
  | read limit => cases h

theorem received_step (op : EventOp Id) (h : event ∈ log.received) :
    event ∈ (log.step tenant op).received := by
  rcases hread : op.isRead with - | -
  · rw [(step_reader hread).2]
    exact h
  · cases op with
    | read limit => exact mem_append_left _ h
    | _ => cases hread

/-- A step that is not a read brings no id between the reader and a row. -/
theorem distance_step (h : Sound tenant log) (he : e ∈ log.committed.entries)
    (hinc : log.Increasing op) (hread : op.isRead = false) :
    (log.step tenant op).distance e.1 ≤ log.distance e.1 := by
  cases op with
  | propose number id row =>
    simp only [step]
    split
    · exact le_rfl
    · have hlt : e.1 < id := hinc e (h.committed e he)
      have hpast : (decide (id ≤ e.1) && ahead log.after id) = false := by
        rw [decide_eq_false (not_le.mpr hlt), Bool.false_and]
      simp only [distance, countP_cons, hpast]
      simp
  | insert number =>
    simp only [step, insert]
    split
    · exact le_rfl
    · split_ifs <;> exact le_rfl
  | commit number =>
    simp only [step]
    split_ifs <;> exact le_rfl
  | rollback number => exact le_rfl
  | read limit => cases hread

/-- A read that does not return a row of the tenant comes closer to it. -/
theorem distance_read (h : Sound tenant log) (he : e ∈ log.committed.entries)
    (hsc : e.2.scope = tenant) (limit : Int) :
    eventOf e ∈ (log.step tenant (.read limit)).received ∨
      (log.step tenant (.read limit)).distance e.1 < log.distance e.1 := by
  obtain ⟨page, hreads⟩ := reads log tenant limit
  rcases hahead : ahead (log.step tenant (.read limit)).after e.1 with - | -
  · exact .inl ((h.read limit).complete e he hsc hahead)
  have hunread : e ∈ log.unread tenant := by
    refine mem_unread.mpr ⟨he, hsc, ?_⟩
    rw [← Bool.not_eq_false]
    intro hpass
    rw [hreads.kept hpass] at hahead
    cases hahead
  rcases hreads.cursor with ⟨hnil, -⟩ | ⟨last, hlast, haft, -⟩
  · rw [hreads.progress hnil] at hunread
    cases hunread
  -- the last row of the page was before the row and ahead of the cursor
  have hlt : last.1 < e.1 := by
    rw [haft] at hahead
    exact of_decide_eq_true hahead
  have hmem := mem_unread.mp (hreads.unread last hlast)
  refine .inr (countP_lt_countP (a := last) ?_ (h.committed last hmem.1) ?_ ?_)
  · intro g _ hg
    simp only [Bool.and_eq_true, decide_eq_true_eq] at hg ⊢
    refine ⟨hg.1, ?_⟩
    rw [← Bool.not_eq_false]
    intro hpass
    rw [hreads.kept hpass] at hg
    cases hg.2
  · simp [hlt.le, hmem.2.2]
  · rw [hreads.passed hlast, Bool.and_false]

/-- A row the reader does not have is at some distance. -/
theorem distance_pos (h : Sound tenant log) (he : e ∈ log.committed.entries)
    (hsc : e.2.scope = tenant) (hmiss : eventOf e ∉ log.received) : 0 < log.distance e.1 := by
  refine countP_pos_iff.mpr ⟨e, h.committed e he, ?_⟩
  rw [decide_eq_true le_rfl, Bool.true_and, ← Bool.not_eq_false]
  exact fun hpass => hmiss (h.complete e he hsc hpass)

/-- The reads of a run bring the reader to every row that is in the table when it
starts. -/
theorem received_of_reads (h : Sound tenant log) (he : e ∈ log.committed.entries)
    (hsc : e.2.scope = tenant)
    (hmeets : Run.Meets (step tenant) (fun log op => log.Increasing op ∧ log.InTime tenant op)
      log l) (hreads : log.distance e.1 ≤ l.countP EventOp.isRead ∨ eventOf e ∈ log.received) :
    eventOf e ∈ (Run.exec (step tenant) log l).received := by
  induction l generalizing log with
  | nil =>
    rcases hreads with hreads | hreads
    · by_contra hmiss
      exact absurd (distance_pos h he hsc hmiss) (Nat.not_lt.mpr hreads)
    · exact hreads
  | cons op l ih =>
    obtain ⟨⟨hinc, hintime⟩, hmeets⟩ := hmeets
    refine ih (h.step hinc hintime) (h.stays he op) hmeets ?_
    rcases hreads with hreads | hreads
    · rcases hread : op.isRead with - | -
      · rw [countP_cons_of_neg (by simp [hread])] at hreads
        exact .inl ((distance_step h he hinc hread).trans hreads)
      · rw [countP_cons_of_pos hread] at hreads
        cases op with
        | read limit =>
          rcases distance_read h he hsc limit with hrecv | hcloser
          · exact .inr hrecv
          · exact .inl (by omega)
        | _ => cases hread
    · exact .inr (received_step op hreads)

/-- A list of events in the order of their ids has one event under an id it has. -/
theorem filter_id_eq {l : List (StoredTenantEvent Id)}
    (hsort : l.Pairwise fun event event' => event.id < event'.id) (h : event ∈ l) :
    l.filter (fun event' => event'.id = event.id) = [event] := by
  refine filter_eq_singleton (hsort.imp fun hlt hsame => ?_) h (by simp)
  simp only [decide_eq_true_eq] at hsame
  exact absurd (hsame.1.trans hsame.2.symm) (ne_of_lt hlt)

theorem sound_run
    (h : Run.Meets (step tenant) (fun log op => log.Increasing op ∧ log.InTime tenant op)
      initial l) : Sound tenant (run tenant l) :=
  Run.Meets.invariant (P := Sound tenant) (fun _ _ hsound hop => hsound.step hop.1 hop.2)
    sound_initial h

/-- **Every event that is committed in time reaches the reader, exactly once**: a row
of the tenant that is in the table after `l` has been returned, once and as it was
written, after any continuation with enough reads. -/
theorem committed_event_reaches_reader (tenant : TenantScope) (l l' : List (EventOp Id))
    (h : Run.Meets (step tenant) (fun log op => log.Increasing op ∧ log.InTime tenant op) initial
      (l ++ l'))
    (e : Id × EventRow) (he : e ∈ (run tenant l).committed.entries) (hscope : e.2.scope = tenant)
    (hreads : (run tenant l).distance e.1 ≤ l'.countP EventOp.isRead) :
    (run tenant (l ++ l')).received.filter (fun event => event.id = e.1) = [eventOf e] := by
  obtain ⟨hbef, hrest⟩ := Run.meets_append.mp h
  have hrecv := received_of_reads (sound_run hbef) he hscope hrest (.inl hreads)
  rw [← Run.exec_append] at hrecv
  exact filter_id_eq (sound_run h).sorted hrecv

/-- **A reader never goes back**: in every run, whatever ids are generated and in
whatever order transactions commit, it receives an id at most once and in order. -/
theorem reader_ordered (tenant : TenantScope) (l : List (EventOp Id)) :
    Ordered (run tenant l) := by
  have hmeets : Run.Meets (step tenant) (fun _ _ => True) initial l :=
    Run.meets_of_forall (fun _ _ _ => trivial) _
  refine hmeets.invariant (P := Ordered) (fun log op h _ => ?_) ⟨.nil, forall_mem_nil _⟩
  cases op with
  | read limit => exact h.read limit
  | _ =>
    unfold Ordered
    rw [(step_reader rfl).1, (step_reader rfl).2]
    exact h

/-- **An event committed behind the cursor is lost**: whatever happens next, the
reader does not get it. -/
theorem overtaken_event_is_lost (hpass : ahead log.after id = false)
    (hmiss : ∀ event ∈ log.received, event.id ≠ id) (l : List (EventOp Id)) :
    ∀ event ∈ (Run.exec (step tenant) log l).received, event.id ≠ id := by
  induction l generalizing log with
  | nil => exact hmiss
  | cons op l ih =>
    cases op with
    | read limit =>
      obtain ⟨page, hreads⟩ := reads log tenant limit
      refine ih (hreads.kept hpass) ?_
      rw [hreads.received, forall_mem_append, forall_mem_map]
      refine ⟨hmiss, ?_⟩
      rintro e he rfl
      have hahead := (mem_unread.mp (hreads.unread e he)).2.2
      rw [show ahead log.after e.1 = false from hpass] at hahead
      cases hahead
    | _ =>
      refine ih ?_ ?_
      · rw [(step_reader rfl).1]
        exact hpass
      · rw [(step_reader rfl).2]
        exact hmiss

/-! ### Samples -/

namespace Sample

def live : TenantScope := ⟨"workspace", "live"⟩

def row (eventType : String) : EventRow := ⟨live, eventType, "\x7b\x7d", none⟩

/-- Two writers: the first event gets the first id. -/
def proposals : List (EventOp Nat) :=
  [.propose 1 1 (row "job.created"), .insert 1, .propose 2 2 (row "job.updated"), .insert 2]

/-- The writers commit in the order of their ids. -/
def inOrder : List (EventOp Nat) := proposals ++ [.commit 1, .read 100, .commit 2]

/-- The second writer commits first, and is read. -/
def overtaken : List (EventOp Nat) := proposals ++ [.commit 2, .read 100, .commit 1]

end Sample

open Sample

/-- The second event is read after the first. -/
theorem committed_event_reaches_reader_in_order :
    (run live (inOrder ++ [.read 100])).received.filter
      (fun event => event.id = 2) = [⟨2, "job.updated", "\x7b\x7d"⟩] :=
  committed_event_reaches_reader live inOrder [.read 100] (by decide +kernel)
    (2, row "job.updated") (by decide +kernel) rfl (by decide +kernel)

/-- The event of the writer that generated its id first and committed last is in the
table, and no continuation of the run returns it. -/
theorem overtaken_event_never_read :
    Run.Meets (step live) (fun log op => log.Increasing op) initial overtaken ∧
    (1, row "job.created") ∈ (run live overtaken).committed.entries ∧
    ∀ l : List (EventOp Nat), ∀ event ∈ (run live (overtaken ++ l)).received, event.id ≠ 1 := by
  refine ⟨by decide +kernel, by decide +kernel, fun l => ?_⟩
  rw [run, Run.exec_append]
  exact overtaken_event_is_lost (by decide +kernel) (by decide +kernel) l

end EventLog

end Piqae.Server
