/-
Piqae/Lib/Code.lean

Self-delimiting codes.  A code `e : α → List β` is self-delimiting on the
values that satisfy `P` when a code word shows where it ends, whatever
follows it:

    e a ++ r = e b ++ s  →  a = b ∧ r = s.

Such a code is injective, code words may be written one after the other, and
a sequence of them can be read back.  A code of constant length is
self-delimiting as soon as it is injective, and so is any text that follows
its own length.
-/
import Mathlib

variable {α α' β : Type*}

/-- Every code word of a value that satisfies `P` shows where it ends. -/
def SelfDelimiting (P : α → Prop) (e : α → List β) : Prop :=
  ∀ ⦃a b : α⦄, P a → P b → ∀ ⦃r s : List β⦄, e a ++ r = e b ++ s → a = b ∧ r = s

namespace SelfDelimiting

variable {P : α → Prop} {Q : α' → Prop} {e : α → List β} {f : α' → List β}

theorem of_length {n : Nat} (hlen : ∀ a, P a → (e a).length = n)
    (hinj : ∀ a b, P a → P b → e a = e b → a = b) : SelfDelimiting P e := by
  intro a b ha hb r s heq
  have hwords := List.append_inj heq ((hlen a ha).trans (hlen b hb).symm)
  exact ⟨hinj a b ha hb hwords.1, hwords.2⟩

/-- Two code words in a row. -/
theorem pair (he : SelfDelimiting P e) (hf : SelfDelimiting Q f) :
    SelfDelimiting (fun p : α × α' => P p.1 ∧ Q p.2) fun p => e p.1 ++ f p.2 := by
  rintro ⟨a, a'⟩ ⟨b, b'⟩ ⟨ha, ha'⟩ ⟨hb, hb'⟩ r s heq
  simp only [List.append_assoc] at heq
  obtain ⟨rfl, hrest⟩ := he ha hb heq
  obtain ⟨rfl, rfl⟩ := hf ha' hb' hrest
  exact ⟨rfl, rfl⟩

/-- A text after its own length. -/
theorem framed {N : Nat → Prop} {count : Nat → List β} (h : SelfDelimiting N count) :
    SelfDelimiting (fun w : List β => N w.length) fun w => count w.length ++ w := by
  intro a b ha hb r s heq
  simp only [List.append_assoc] at heq
  obtain ⟨hlen, hrest⟩ := h ha hb heq
  exact List.append_inj hrest hlen

/-- A sequence of code words, none of them empty, is read back from the front. -/
theorem flatMap_injective (h : SelfDelimiting P e) (hne : ∀ a, P a → e a ≠ []) :
    ∀ {l l' : List α}, (∀ a ∈ l, P a) → (∀ a ∈ l', P a) → l.flatMap e = l'.flatMap e → l = l'
  | [], [], _, _, _ => rfl
  | [], b :: l', _, hl', heq => by
    have : e b = [] := (List.append_eq_nil_iff.mp heq.symm).1
    exact absurd this (hne b (hl' b (List.mem_cons_self ..)))
  | a :: l, [], hl, _, heq => by
    have : e a = [] := (List.append_eq_nil_iff.mp heq).1
    exact absurd this (hne a (hl a (List.mem_cons_self ..)))
  | a :: l, b :: l', hl, hl', heq => by
    obtain ⟨rfl, hrest⟩ := h (hl a (List.mem_cons_self ..)) (hl' b (List.mem_cons_self ..)) heq
    have htail := flatMap_injective h hne (fun c hc => hl c (List.mem_cons_of_mem _ hc))
      (fun c hc => hl' c (List.mem_cons_of_mem _ hc)) hrest
    rw [htail]

end SelfDelimiting
