/-
Piqae/Lib/Exclusion.lean

Mutual exclusion of groups whose membership changes.  Members of a table
belong to groups; to work, a member takes the lock of the domain it is
assigned to (`key`).  Locks outlive regrouping: a lock stays under the key it
was taken for while the groups, the assigned keys and the rows themselves
change.

A table is `Coherent` when one group uses one domain, and every lock held for
a member of a group is the domain of the whole group, unless the group is
blocked.  Coherence is kept by taking a free domain, by releasing locks and by
dropping rows, and a plan that assigns every group one domain or blocks it
establishes it (`coherent_of_plan`).  In a coherent table, a member that is
not blocked shares its group with no lock outside its domain
(`Coherent.group_ne`).
-/
import Mathlib

namespace Exclusion

variable {μ γ κ : Type*}

/-- A member, the group it belongs to, its lock domain, and whether it is
barred from taking locks. -/
structure Row (μ γ κ : Type*) where
  member : μ
  group : γ
  key : κ
  blocked : Bool

/-- The members, and the locks held, each with the member it was taken for. -/
structure Table (μ γ κ : Type*) where
  rows : Set (Row μ γ κ)
  held : Set (κ × μ)

namespace Table

structure Coherent (t : Table μ γ κ) : Prop where
  /-- A group is blocked as a whole, and otherwise uses one domain. -/
  uniform : ∀ r ∈ t.rows, ∀ r' ∈ t.rows, r.group = r'.group →
    r.blocked = r'.blocked ∧ (r.blocked = false → r.key = r'.key)
  /-- A lock held for a member is the domain of its whole group. -/
  fenced : ∀ lock ∈ t.held, ∀ r' ∈ t.rows, r'.member = lock.2 →
    ∀ r ∈ t.rows, r.group = r'.group → r.key = lock.1 ∨ r.blocked = true

variable {t : Table μ γ κ} {r : Row μ γ κ}

/-- **Exclusion**: no lock of another domain is held for a member of the
group of an unblocked member. -/
theorem Coherent.group_ne (h : t.Coherent) {r' : Row μ γ κ} (hr : r ∈ t.rows)
    (hblk : r.blocked = false) {lock : κ × μ} (hlock : lock ∈ t.held) (hne : lock.1 ≠ r.key)
    (hr' : r' ∈ t.rows) (hm : r'.member = lock.2) : r'.group ≠ r.group := by
  intro hg
  rcases h.fenced lock hlock r' hr' hm r hr hg.symm with hk | hb
  · exact hne hk.symm
  · rw [hblk] at hb
    cases hb

/-- Dropping rows and releasing locks keeps coherence. -/
theorem Coherent.mono (h : t.Coherent) {t' : Table μ γ κ} (hrows : t'.rows ⊆ t.rows)
    (hheld : t'.held ⊆ t.held) : t'.Coherent where
  uniform r hr r' hr' := h.uniform r (hrows hr) r' (hrows hr')
  fenced lock hlock r' hr' hm r hr := h.fenced lock (hheld hlock) r' (hrows hr') hm r (hrows hr)

/-- An unblocked member may take the lock of its domain. -/
theorem Coherent.acquire (h : t.Coherent) (hr : r ∈ t.rows) (hblk : r.blocked = false)
    (huniq : ∀ r' ∈ t.rows, r'.member = r.member → r'.group = r.group) :
    (Table.mk t.rows (insert (r.key, r.member) t.held)).Coherent where
  uniform := h.uniform
  fenced := by
    rintro lock (rfl | hlock) r' hr' hm s hs hg
    · -- the new lock: the whole group uses its key, because the group is uniform
      have hsr : r.group = s.group := (hg.trans (huniq r' hr' hm)).symm
      exact Or.inl ((h.uniform r hr s hs hsr).2 hblk).symm
    · exact h.fenced lock hlock r' hr' hm s hs hg

/-- A lock for a member that has no row concerns no group. -/
theorem Coherent.acquire_unlisted (h : t.Coherent) {k : κ} {m : μ}
    (hm : ∀ r ∈ t.rows, r.member ≠ m) : (Table.mk t.rows (insert (k, m) t.held)).Coherent where
  uniform := h.uniform
  fenced := by
    rintro lock (rfl | hlock) r' hr' hm' s hs hg
    · exact absurd hm' (hm r' hr')
    · exact h.fenced lock hlock r' hr' hm' s hs hg

/-- **A plan makes a table coherent**: each group is given one domain, or
blocked, and the domain given to a group is the only one locked for its
members. -/
theorem coherent_of_plan (plan : γ → Option κ)
    (hgiven : ∀ r ∈ t.rows, ∀ k, plan r.group = some k → r.key = k ∧ r.blocked = false)
    (hbar : ∀ r ∈ t.rows, plan r.group = none → r.blocked = true)
    (hheld : ∀ lock ∈ t.held, ∀ r ∈ t.rows, r.member = lock.2 →
      ∀ k, plan r.group = some k → k = lock.1) : t.Coherent where
  uniform := by
    intro r hr r' hr' hg
    rcases hp : plan r.group with - | k
    · have hb := hbar r hr hp
      have hb' := hbar r' hr' (hg ▸ hp)
      exact ⟨hb.trans hb'.symm, fun hf => absurd (hf.symm.trans hb) Bool.false_ne_true⟩
    · obtain ⟨hk, hb⟩ := hgiven r hr k hp
      obtain ⟨hk', hb'⟩ := hgiven r' hr' k (hg ▸ hp)
      exact ⟨hb.trans hb'.symm, fun _ => hk.trans hk'.symm⟩
  fenced := by
    intro lock hlock r' hr' hm r hr hg
    rcases hp : plan r.group with - | k
    · exact Or.inr (hbar r hr hp)
    · have hk := hheld lock hlock r' hr' hm k (hg ▸ hp)
      exact Or.inl ((hgiven r hr k hp).1.trans hk)

end Table

end Exclusion
