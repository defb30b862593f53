/-
Piqae/Lib/SortedMap.lean

Finite maps kept as a list of entries in strictly increasing key order: the
observable behaviour of an ordered tree map.  The order of iteration is part
of the value, so `find`-style scans over a map have a determined answer, and
two maps with the same lookups are equal.

The order is a field of the structure, so an unsorted map cannot be built.
Insertion, removal, retention and value-wise update are all written with
`List.filter` and `List.map`; every membership fact about them is then a
statement about filters, and every lookup fact follows from

    m.get? k = some v ↔ (k, v) ∈ m.entries      (`get?_eq_some_iff`).
-/
import Mathlib

variable {κ ν : Type*} [LinearOrder κ]

/-- A finite map: its entries, in strictly increasing order of their keys. -/
@[ext] structure SortedMap (κ ν : Type*) [LinearOrder κ] where
  entries : List (κ × ν)
  sorted : entries.Pairwise fun a b => a.1 < b.1

namespace SortedMap

open List

instance [DecidableEq ν] : DecidableEq (SortedMap κ ν) := fun m m' =>
  decidable_of_iff (m.entries = m'.entries) SortedMap.ext_iff.symm

/-! ### Operations -/

/-- The map with no entry. -/
def empty : SortedMap κ ν := ⟨[], List.Pairwise.nil⟩

/-- The value stored at `k`, if any. -/
def get? (m : SortedMap κ ν) (k : κ) : Option ν :=
  (m.entries.find? fun e => e.1 = k).map Prod.snd

/-- Does the map have an entry at `k`? -/
def contains (m : SortedMap κ ν) (k : κ) : Bool := (m.get? k).isSome

/-- The keys, in increasing order. -/
def keys (m : SortedMap κ ν) : List κ := m.entries.map Prod.fst

/-- The values, in the order of their keys. -/
def values (m : SortedMap κ ν) : List ν := m.entries.map Prod.snd

/-- The number of entries. -/
def size (m : SortedMap κ ν) : Nat := m.entries.length

/-- Store `v` at `k`, replacing what was there. -/
def insert (m : SortedMap κ ν) (k : κ) (v : ν) : SortedMap κ ν where
  entries := m.entries.filter (fun e => e.1 < k) ++ (k, v) :: m.entries.filter (fun e => k < e.1)
  sorted := by
    refine pairwise_append.mpr ⟨m.sorted.filter _, ?_, ?_⟩
    · refine pairwise_cons.mpr ⟨?_, m.sorted.filter _⟩
      intro e he
      simpa using (mem_filter.mp he).2
    · intro a ha b hb
      have hak : a.1 < k := by simpa using (mem_filter.mp ha).2
      rcases mem_cons.mp hb with rfl | hb
      · exact hak
      · have hkb : k < b.1 := by simpa using (mem_filter.mp hb).2
        exact hak.trans hkb

/-- Keep only the entries that satisfy `p`. -/
def retain (m : SortedMap κ ν) (p : κ → ν → Bool) : SortedMap κ ν where
  entries := m.entries.filter fun e => p e.1 e.2
  sorted := m.sorted.filter _

/-- Remove the entry at `k`. -/
def erase (m : SortedMap κ ν) (k : κ) : SortedMap κ ν := m.retain fun k' _ => k' ≠ k

/-- Replace every value, in place. -/
def mapValues (m : SortedMap κ ν) (f : κ → ν → ν) : SortedMap κ ν where
  entries := m.entries.map fun e => (e.1, f e.1 e.2)
  sorted := pairwise_map.mpr m.sorted

/-- The first entry, in key order, whose key and value satisfy `p`. -/
def findEntry? (m : SortedMap κ ν) (p : κ → ν → Bool) : Option (κ × ν) :=
  m.entries.find? fun e => p e.1 e.2

/-- Replace the value at `k`, if there is one. -/
def modify (m : SortedMap κ ν) (k : κ) (f : ν → ν) : SortedMap κ ν :=
  m.mapValues fun k' v => if k' = k then f v else v

/-- Some entry that satisfies `p`: the one at `choice` if it does, else the first
in key order.  A map without an order of its own may yield any of them. -/
def pick? (m : SortedMap κ ν) (p : κ → ν → Bool) (choice : κ) : Option (κ × ν) :=
  match m.findEntry? fun k v => decide (k = choice) && p k v with
  | some e => some e
  | none => m.findEntry? p

/-! ### Lookup is membership -/

variable {m : SortedMap κ ν} {k k' : κ} {v v' : ν} {e : κ × ν} {p : κ → ν → Bool} {f : κ → ν → ν}
  {key : ν → κ} {l : List ν} {choice : κ}

theorem nodup_keys : m.keys.Nodup :=
  pairwise_map.mpr (m.sorted.imp fun h => ne_of_lt h)

/-- Two entries of one map under the same key are the same entry. -/
theorem eq_of_mem_of_mem {e' : κ × ν} (he : e ∈ m.entries) (he' : e' ∈ m.entries)
    (hk : e.1 = e'.1) : e = e' :=
  inj_on_of_nodup_map nodup_keys he he' hk

theorem get?_eq_some_iff : m.get? k = some v ↔ (k, v) ∈ m.entries := by
  unfold get?
  constructor
  · intro h
    obtain ⟨e, he, rfl⟩ := Option.map_eq_some_iff.mp h
    have hk : e.1 = k := by simpa using List.find?_some he
    have hm := mem_of_find?_eq_some he
    rwa [← hk]
  · intro hmem
    rcases hf : m.entries.find? (fun e => e.1 = k) with - | e
    · have := List.find?_eq_none.mp hf _ hmem
      simp at this
    · have hk : e.1 = k := by simpa using List.find?_some hf
      have he := eq_of_mem_of_mem (mem_of_find?_eq_some hf) hmem hk
      rw [hf, he]
      rfl

theorem forall_get?_iff {P : κ → ν → Prop} :
    (∀ k v, m.get? k = some v → P k v) ↔ ∀ e ∈ m.entries, P e.1 e.2 := by
  simp [get?_eq_some_iff]

theorem get?_eq_none_iff : m.get? k = none ↔ ∀ v, (k, v) ∉ m.entries := by
  rw [← not_iff_not, ← ne_eq, Option.ne_none_iff_exists']
  simp [get?_eq_some_iff]

theorem contains_iff : m.contains k = true ↔ ∃ v, (k, v) ∈ m.entries := by
  rw [contains, Option.isSome_iff_exists]
  simp [get?_eq_some_iff]

theorem contains_eq_false_iff : m.contains k = false ↔ m.get? k = none := by
  simp [contains]

theorem mem_values : v ∈ m.values ↔ ∃ k, (k, v) ∈ m.entries := by
  simp [values]

theorem mem_keys : k ∈ m.keys ↔ ∃ v, (k, v) ∈ m.entries := by
  simp [keys]

@[simp] theorem length_keys : m.keys.length = m.size := by
  simp [keys, size]

/-! ### Membership after each operation -/

@[simp] theorem mem_empty : e ∈ (empty : SortedMap κ ν).entries ↔ False := by
  simp [empty]

@[simp] theorem get?_empty : (empty : SortedMap κ ν).get? k = none := rfl

@[simp] theorem size_empty : (empty : SortedMap κ ν).size = 0 := rfl

theorem mem_insert : e ∈ (m.insert k v).entries ↔ e = (k, v) ∨ (e.1 ≠ k ∧ e ∈ m.entries) := by
  simp only [insert, mem_append, mem_cons, mem_filter, decide_eq_true_eq]
  constructor
  · rintro (⟨he, hlt⟩ | rfl | ⟨he, hlt⟩)
    · exact .inr ⟨ne_of_lt hlt, he⟩
    · exact .inl rfl
    · exact .inr ⟨ne_of_gt hlt, he⟩
  · rintro (rfl | ⟨hne, he⟩)
    · exact .inr (.inl rfl)
    · rcases lt_or_gt_of_ne hne with hlt | hgt
      · exact .inl ⟨he, hlt⟩
      · exact .inr (.inr ⟨he, hgt⟩)

theorem forall_mem_insert {P : κ × ν → Prop} (hnew : P (k, v)) (hold : ∀ e ∈ m.entries, P e) :
    ∀ e ∈ (m.insert k v).entries, P e := by
  intro e he
  rcases mem_insert.mp he with rfl | ⟨-, he⟩
  · exact hnew
  · exact hold e he

theorem mem_retain : e ∈ (m.retain p).entries ↔ e ∈ m.entries ∧ p e.1 e.2 = true := by
  simp [retain]

theorem mem_erase : e ∈ (m.erase k).entries ↔ e ∈ m.entries ∧ e.1 ≠ k := by
  simp [erase, mem_retain]

theorem mem_mapValues :
    e ∈ (m.mapValues f).entries ↔ ∃ v, (e.1, v) ∈ m.entries ∧ e.2 = f e.1 v := by
  obtain ⟨k, v⟩ := e
  simp only [mapValues, mem_map, Prod.mk.injEq]
  constructor
  · rintro ⟨⟨k', v'⟩, hmem, rfl, rfl⟩
    exact ⟨v', hmem, rfl⟩
  · rintro ⟨v', hmem, rfl⟩
    exact ⟨(k, v'), hmem, rfl, rfl⟩

theorem mapValues_mapValues {g : κ → ν → ν} :
    (m.mapValues f).mapValues g = m.mapValues fun k v => g k (f k v) :=
  SortedMap.ext map_map

theorem mem_mapValues_of_mem (h : (k, v) ∈ m.entries) : (k, f k v) ∈ (m.mapValues f).entries :=
  mem_mapValues.mpr ⟨v, h, rfl⟩

/-! ### Lookups after each operation -/

@[simp] theorem get?_insert_self : (m.insert k v).get? k = some v :=
  get?_eq_some_iff.mpr (mem_insert.mpr (.inl rfl))

theorem get?_insert_ne (h : k' ≠ k) : (m.insert k v).get? k' = m.get? k' := by
  ext w
  rw [get?_eq_some_iff, get?_eq_some_iff, mem_insert]
  simp [h]

theorem get?_erase_self : (m.erase k).get? k = none := by
  rw [get?_eq_none_iff]
  intro w hw
  exact (mem_erase.mp hw).2 rfl

theorem get?_erase_ne (h : k' ≠ k) : (m.erase k).get? k' = m.get? k' := by
  ext w
  rw [get?_eq_some_iff, get?_eq_some_iff, mem_erase]
  simp [h]

theorem get?_mapValues : (m.mapValues f).get? k = (m.get? k).map (f k) := by
  ext w
  rw [get?_eq_some_iff, mem_mapValues, Option.map_eq_some_iff]
  simp only [get?_eq_some_iff, eq_comm (a := w)]

theorem get?_modify {f : ν → ν} (k' : κ) :
    (m.modify k f).get? k' = if k' = k then (m.get? k).map f else m.get? k' := by
  rw [modify, get?_mapValues]
  split
  · next h => rw [h]
  · exact Option.map_id'

theorem get?_modify_self {f : ν → ν} : (m.modify k f).get? k = (m.get? k).map f :=
  (get?_modify k).trans (if_pos rfl)

/-- Rewriting the values changes nothing iff every value is what it is rewritten to. -/
theorem mapValues_eq_self_iff : m.mapValues f = m ↔ ∀ e ∈ m.entries, f e.1 e.2 = e.2 := by
  constructor
  · intro h e he
    have hmem : (e.1, f e.1 e.2) ∈ m.entries := h ▸ mem_mapValues_of_mem he
    exact congrArg Prod.snd (eq_of_mem_of_mem hmem he rfl)
  · intro h
    ext1
    refine (map_congr_left fun e he => ?_).trans (map_id _)
    exact Prod.ext rfl (h e he)

theorem modify_eq_self_iff {f : ν → ν} : m.modify k f = m ↔ ∀ v ∈ m.get? k, f v = v := by
  rw [modify, mapValues_eq_self_iff]
  constructor
  · intro h v hv
    simpa using h (k, v) (get?_eq_some_iff.mp hv)
  · intro h e he
    split
    · next hk => exact h e.2 (get?_eq_some_iff.mpr (hk ▸ he))
    · rfl

theorem mem_foldl_insert (h : e ∈ (l.foldl (fun m w => m.insert (key w) w) m).entries) :
    e ∈ m.entries ∨ ∃ w ∈ l, e = (key w, w) := by
  induction l generalizing m with
  | nil => exact .inl h
  | cons w l ih =>
    rcases ih h with h | ⟨w', hw', heq⟩
    · rcases mem_insert.mp h with rfl | ⟨-, h⟩
      · exact .inr ⟨w, mem_cons_self, rfl⟩
      · exact .inl h
    · exact .inr ⟨w', mem_cons_of_mem _ hw', heq⟩

theorem entries_insert_of_lt (h : ∀ e ∈ m.entries, e.1 < k) :
    (m.insert k v).entries = m.entries ++ [(k, v)] := by
  have hbef : m.entries.filter (fun e => e.1 < k) = m.entries :=
    filter_eq_self.mpr fun e he => decide_eq_true (h e he)
  have haft : m.entries.filter (fun e => k < e.1) = [] :=
    filter_eq_nil_iff.mpr fun e he => by simpa using (h e he).le
  show m.entries.filter (fun e => e.1 < k) ++ (k, v) :: m.entries.filter (fun e => k < e.1) = _
  rw [hbef, haft]

/-- Entries in order are stored one behind the other. -/
theorem entries_foldl_insert {l : List (κ × ν)}
    (h : (m.entries ++ l).Pairwise fun a b => a.1 < b.1) :
    (l.foldl (fun m e => m.insert e.1 e.2) m).entries = m.entries ++ l := by
  induction l generalizing m with
  | nil => simp
  | cons e l ih =>
    have hlast : ∀ e' ∈ m.entries, e'.1 < e.1 := fun e' he' =>
      (pairwise_append.mp h).2.2 e' he' e mem_cons_self
    have hents := entries_insert_of_lt (v := e.2) hlast
    rw [foldl_cons, ih (by rw [hents]; simpa using h), hents]
    simp

theorem contains_insert_of_contains (h : m.contains k' = true) :
    (m.insert k v).contains k' = true := by
  by_cases hkey : k' = k
  · rw [contains, hkey, get?_insert_self]
    rfl
  · rwa [contains, get?_insert_ne hkey]

theorem contains_foldl_insert (h : m.contains k = true) :
    (l.foldl (fun m w => m.insert (key w) w) m).contains k = true := by
  induction l generalizing m with
  | nil => exact h
  | cons w l ih => exact ih (contains_insert_of_contains h)

/-- Values stored one after the other leave the entries at other keys. -/
theorem get?_foldl_insert_of_ne (h : ∀ w ∈ l, key w ≠ k) :
    (l.foldl (fun m w => m.insert (key w) w) m).get? k = m.get? k := by
  induction l generalizing m with
  | nil => rfl
  | cons w l ih =>
    rw [foldl_cons, ih fun w' hw' => h w' (mem_cons_of_mem _ hw')]
    exact get?_insert_ne (h w mem_cons_self).symm

/-- If all the values for one key are the same, it is found there. -/
theorem get?_foldl_insert (key : ν → κ) (hv : v ∈ l) (h : ∀ w ∈ l, key w = key v → w = v) :
    (l.foldl (fun m w => m.insert (key w) w) m).get? (key v) = some v := by
  induction l generalizing m with
  | nil => cases hv
  | cons w l ih =>
    rw [foldl_cons]
    have htail := fun w' hw' => h w' (mem_cons_of_mem _ hw')
    by_cases hmem : v ∈ l
    · exact ih hmem htail
    · obtain rfl : v = w := (mem_cons.mp hv).resolve_right hmem
      rw [get?_foldl_insert_of_ne, get?_insert_self]
      intro w' hw' heq
      exact hmem (htail w' hw' heq ▸ hw')

/-! ### Sizes -/

@[simp] theorem size_mapValues : (m.mapValues f).size = m.size := by
  simp [size, mapValues]

theorem size_retain_le (p : κ → ν → Bool) : (m.retain p).size ≤ m.size :=
  length_filter_le _ _

/-- A map is no larger than any list of keys that covers it. -/
theorem size_le_of_keys_subset {l : List κ} (h : ∀ e ∈ m.entries, e.1 ∈ l) : m.size ≤ l.length := by
  rw [← length_keys]
  refine (subperm_of_subset nodup_keys ?_).length_le
  intro k hk
  obtain ⟨v, hv⟩ := mem_keys.mp hk
  exact h _ hv

theorem size_insert_le : (m.insert k v).size ≤ m.size + 1 := by
  have := size_le_of_keys_subset (m := m.insert k v) (l := k :: m.keys) (by
    intro e he
    rcases mem_insert.mp he with rfl | ⟨-, he⟩
    · exact mem_cons_self
    · exact mem_cons_of_mem _ (mem_keys.mpr ⟨e.2, he⟩))
  simpa using this

/-- Overwriting an existing key does not make the map larger. -/
theorem size_insert_le_of_contains (h : m.contains k = true) : (m.insert k v).size ≤ m.size := by
  have := size_le_of_keys_subset (m := m.insert k v) (l := m.keys) (by
    intro e he
    rcases mem_insert.mp he with rfl | ⟨-, he⟩
    · exact mem_keys.mpr (contains_iff.mp h)
    · exact mem_keys.mpr ⟨e.2, he⟩)
  simpa using this

/-! ### Scans in key order -/

theorem findEntry?_some (h : m.findEntry? p = some e) : e ∈ m.entries ∧ p e.1 e.2 = true :=
  ⟨mem_of_find?_eq_some h, by simpa using List.find?_some h⟩

theorem findEntry?_none (h : m.findEntry? p = none) : ∀ e ∈ m.entries, p e.1 e.2 = false := by
  intro e he
  simpa using List.find?_eq_none.mp h e he

/-- The first entry that satisfies `p` is the first that satisfies less. -/
theorem findEntry?_of_imp {q : κ → ν → Bool} (h : m.findEntry? p = some e) (hq : q e.1 e.2 = true)
    (himp : ∀ e ∈ m.entries, q e.1 e.2 = true → p e.1 e.2 = true) : m.findEntry? q = some e := by
  unfold findEntry? at h ⊢
  rw [List.find?_eq_some_iff_append] at h ⊢
  obtain ⟨-, before, after, heq, hbef⟩ := h
  refine ⟨hq, before, after, heq, ?_⟩
  intro e' he'
  have hp := hbef e' he'
  rw [Bool.not_eq_true'] at hp ⊢
  by_contra hq'
  rw [himp e' (heq ▸ mem_append_left _ he') (by simpa using hq')] at hp
  cases hp

theorem pick?_some (h : m.pick? p choice = some e) : e ∈ m.entries ∧ p e.1 e.2 = true := by
  unfold pick? at h
  split at h
  · next hfound =>
    cases h
    obtain ⟨hmem, hp⟩ := findEntry?_some hfound
    exact ⟨hmem, (Bool.and_eq_true _ _ ▸ hp).2⟩
  · exact findEntry?_some h

theorem pick?_none (h : m.pick? p choice = none) : ∀ e ∈ m.entries, p e.1 e.2 = false := by
  unfold pick? at h
  split at h
  · cases h
  · exact findEntry?_none h

end SortedMap
