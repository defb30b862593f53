/-
Piqae/Base.lean

The standard-library values every part of the node uses: UTF-8 bytes of a
string, big-endian integers, saturating and checked machine arithmetic,
errors, UUIDs and instants.

Counters that the source keeps in a `u64` are natural numbers here, and each
arithmetic step says whether it saturates or is checked; nothing in the node
adds to a counter in any other way.
-/
import Mathlib

namespace Piqae

theorem forall_mem_concat {α : Type*} {P : α → Prop} {l : List α} {a : α} (h : ∀ x ∈ l, P x)
    (ha : P a) : ∀ x ∈ l ++ [a], P x :=
  List.forall_mem_append.mpr ⟨h, List.forall_mem_singleton.mpr ha⟩

/-! ### Bytes -/

/-- The UTF-8 bytes of a string. -/
def asBytes (s : String) : List UInt8 := s.toUTF8.data.toList

/-- The eight big-endian bytes of a 64-bit value. -/
def toBeBytes (n : Nat) : List UInt8 :=
  (List.range 8).map fun i => UInt8.ofNat (n / 256 ^ (7 - i) % 256)

theorem asBytes_injective : Function.Injective asBytes := by
  intro s t h
  exact String.toByteArray_inj.mp (ByteArray.ext (Array.toList_inj.mp h))

@[simp] theorem length_toBeBytes (n : Nat) : (toBeBytes n).length = 8 := by simp [toBeBytes]

variable {n m : Nat}

/-- A number below `b ^ k` is determined by its `k` digits in base `b`. -/
theorem eq_of_digits {b k : Nat} (hn : n < b ^ k) (hm : m < b ^ k)
    (h : ∀ i < k, n / b ^ i % b = m / b ^ i % b) : n = m := by
  induction k generalizing n m with
  | zero =>
    rw [Nat.pow_zero] at hn hm
    omega
  | succ k ih =>
    rw [Nat.pow_succ] at hn hm
    have hlow : n % b = m % b := by simpa using h 0 (Nat.succ_pos k)
    have hhigh : n / b = m / b := by
      refine ih (Nat.div_lt_of_lt_mul (by rwa [Nat.mul_comm])) (Nat.div_lt_of_lt_mul (by
        rwa [Nat.mul_comm])) fun i hi => ?_
      simpa [Nat.pow_succ', Nat.div_div_eq_div_mul] using h (i + 1) (Nat.succ_lt_succ hi)
    rw [← Nat.div_add_mod n b, ← Nat.div_add_mod m b, hlow, hhigh]

theorem toBeBytes_injective (hn : n < 2 ^ 64) (hm : m < 2 ^ 64) (h : toBeBytes n = toBeBytes m) :
    n = m := by
  have hdigit : ∀ i < 8, n / 256 ^ (7 - i) % 256 = m / 256 ^ (7 - i) % 256 := by
    intro i hi
    have hbyte := List.map_inj_left.mp h i (List.mem_range.mpr hi)
    simpa [UInt8.ofNat_eq_iff_mod_eq_toNat] using hbyte
  refine eq_of_digits (b := 256) (k := 8) (by simpa using hn) (by simpa using hm) fun i hi => ?_
  have hrev := hdigit (7 - i) (by omega)
  rwa [show 7 - (7 - i) = i by omega] at hrev

/-- The first `n` characters of an ASCII text. -/
def prefixText (n : Nat) (s : String) : String := String.ofList (s.toList.take n)

/-! ### Characters -/

/-- The white space of the Unicode standard. -/
def isWhitespace (c : Char) : Bool :=
  let n := c.toNat
  (9 ≤ n && n ≤ 13) || n = 32 || n = 0x85 || n = 0xa0 || n = 0x1680 || (0x2000 ≤ n && n ≤ 0x200a)
    || n = 0x2028 || n = 0x2029 || n = 0x202f || n = 0x205f || n = 0x3000

/-- The text without the white space at its ends. -/
def trimText (s : String) : String :=
  String.ofList ((s.toList.dropWhile isWhitespace).reverse.dropWhile isWhitespace).reverse

/-! ### Machine integers -/

def u64Max : Nat := 2 ^ 64 - 1

def i64Max : Int := 2 ^ 63 - 1

def i64Min : Int := -2 ^ 63

/-- Addition of `u64` values that stops at the largest one. -/
def saturatingAdd (a b : Nat) : Nat := min (a + b) u64Max

/-- Addition of `u64` values that fails on overflow. -/
def checkedAdd (a b : Nat) : Option Nat := if a + b ≤ u64Max then some (a + b) else none

/-- Addition of `i64` values that stops at the ends of the range. -/
def saturatingAddI64 (a b : Int) : Int := max i64Min (min (a + b) i64Max)

/-! ### Lists -/

variable {α : Type} {ε β : Type}

/-- At most one entry satisfies `p`, and `a` does. -/
theorem filter_eq_singleton {p : α → Bool} {l : List α} {a : α}
    (hpair : l.Pairwise fun a b => ¬(p a = true ∧ p b = true)) (ha : a ∈ l) (hp : p a = true) :
    l.filter p = [a] := by
  obtain ⟨l₁, l₂, rfl⟩ := List.append_of_mem ha
  obtain ⟨-, htail, hcross⟩ := List.pairwise_append.mp hpair
  have h₁ : l₁.filter p = [] := by
    rw [List.filter_eq_nil_iff]
    exact fun b hb hpb => hcross b hb a (List.mem_cons_self ..) ⟨hpb, hp⟩
  have h₂ : l₂.filter p = [] := by
    rw [List.filter_eq_nil_iff]
    exact fun b hb hpb => (List.pairwise_cons.mp htail).1 b hb ⟨hp, hpb⟩
  rw [List.filter_append, h₁, List.filter_cons_of_pos hp, h₂, List.nil_append]

/-! ### Errors -/

/-- A fallible result; the error is its chain of messages, outermost first. -/
abbrev Fallible := Except (List String)

def bail {α : Type} (message : String) : Fallible α := .error [message]

theorem Except.map_eq_ok {f : α → β} {x : Except ε α} {b : β} (h : x.map f = .ok b) :
    ∃ a, x = .ok a ∧ f a = b := by
  cases x with
  | error e => cases h
  | ok a => exact ⟨a, rfl, Except.ok.inj h⟩

theorem Except.bind_eq_ok {f : α → Except ε β} {x : Except ε α} {b : β} (h : x >>= f = .ok b) :
    ∃ a, x = .ok a ∧ f a = .ok b := by
  cases x with
  | error e => cases h
  | ok a => exact ⟨a, rfl, h⟩

/-- The value of an option, or an error that says what is missing. -/
def orBail {α : Type} (o : Option α) (message : String) : Fallible α :=
  match o with
  | some a => .ok a
  | none => bail message

/-! ### Identifiers and time -/

/-- A UUID, as its 128 bits. -/
abbrev Uuid := BitVec 128

/-- The sixteen bytes of a UUID, most significant first. -/
def Uuid.asBytes (u : Uuid) : List UInt8 :=
  (List.range 16).map fun i => UInt8.ofNat (u.toNat / 256 ^ (15 - i) % 256)

/-- The hyphenated lower-case text of a UUID. -/
def Uuid.text (u : Uuid) : String :=
  let hex := ((List.range 32).map fun i => Nat.digitChar (u.toNat / 16 ^ (31 - i) % 16))
  String.ofList (hex.take 8 ++ '-' :: (hex.drop 8).take 4 ++ '-' :: (hex.drop 12).take 4
    ++ '-' :: (hex.drop 16).take 4 ++ '-' :: hex.drop 20)

/-- An instant on the UTC clock, in nanoseconds since the Unix epoch. -/
abbrev DateTime := Int

/-- The instant in whole milliseconds since the Unix epoch. -/
def DateTime.timestampMillis (t : DateTime) : Int := t / 1000000

end Piqae
