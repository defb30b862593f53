/-
Piqae/Lib/BinaryFloat.lean

Binary floating-point numbers as their bits: one sign bit, `w` exponent bits
and `f` fraction bits, in the interchange layout, so `w = 8, f = 23` and
`w = 11, f = 52` are single and double precision.  A rational is rounded to
the nearest number, ties to even.

The magnitude bits are read as a mantissa and an exponent,

    magnitude = e * 2^f + m,      value = m * 2^(e + minExponent),

where `m < 2^f` only if `e = 0`; rounding up to the next power of two then
carries into the exponent by itself.

The decimal text of a number has the shortest digits that are read back as
the same number.
-/
import Mathlib

/-! ### Quotients of natural numbers -/

/-- `n / d` rounded to the nearest natural number, ties to even. -/
def roundDiv (n d : Nat) : Nat :=
  let q := n / d
  let r := n % d
  if 2 * r < d then q else if d < 2 * r then q + 1 else q + q % 2

/-- `⌊log₂ (n / d)⌋`, for positive `n` and `d`. -/
def floorLog2 (n d : Nat) : Int :=
  let k : Int := (Nat.log2 n : Int) - Nat.log2 d
  if d * 2 ^ k.toNat ≤ n * 2 ^ (-k).toNat then k else k - 1

/-- `⌊log₁₀ (n / d)⌋`, for positive `n` and `d`. -/
def floorLog10 (n d : Nat) : Int :=
  let k : Int := (Nat.log 10 n : Int) - Nat.log 10 d
  if d * 10 ^ k.toNat ≤ n * 10 ^ (-k).toNat then k else k - 1

/-! ### Decimal texts -/

/-- The last `k` decimal digits of `n`. -/
def lastDigits (k n : Nat) : List Char :=
  (List.range k).map fun i => Nat.digitChar (n / 10 ^ (k - 1 - i) % 10)

/-- The sign of a number, if it shows. -/
def signText (negative : Bool) : List Char := if negative then ['-'] else []

/-- An exponent after its mark. -/
def exponentText (e : Int) : List Char := 'e' :: signText (e < 0) ++ Nat.toDigits 10 e.natAbs

/-- The text of the digits `digits * 10^k`, plain where that is short. -/
def scientific (negative : Bool) (digits : Nat) (k : Int) : List Char :=
  let text := Nat.toDigits 10 digits
  let point : Int := text.length + k
  signText negative ++
    if 0 ≤ k ∧ point ≤ 16 then text ++ lastDigits k.toNat 0 ++ ['.', '0']
    else if 0 < point ∧ point ≤ 16 then
      Nat.toDigits 10 (digits / 10 ^ (-k).toNat) ++ '.' :: lastDigits (-k).toNat digits
    else if -5 < point ∧ point ≤ 0 then '0' :: '.' :: lastDigits (-k).toNat digits
    else if text.length = 1 then text ++ exponentText (point - 1)
    else Nat.toDigits 10 (digits / 10 ^ (text.length - 1)) ++ '.'
      :: lastDigits (text.length - 1) digits ++ exponentText (point - 1)

/-! ### Numbers -/

/-- A floating-point number with `w` exponent bits and `f` fraction bits. -/
structure BinaryFloat (w f : Nat) where
  bits : Nat
  bound : bits < 2 ^ (1 + w + f)
deriving DecidableEq

namespace BinaryFloat

variable {w f : Nat}

variable (w f) in
/-- The exponent of the smallest positive number. -/
def minExponent : Int := 2 - 2 ^ (w - 1) - f

variable (w f) in
/-- The magnitude bits of infinity, the first that are not finite. -/
def infinite : Nat := (2 ^ w - 1) * 2 ^ f

def negative (x : BinaryFloat w f) : Bool := 2 ^ (w + f) ≤ x.bits

def magnitude (x : BinaryFloat w f) : Nat := x.bits % 2 ^ (w + f)

/-! ### Values -/

/-- The exponent field of magnitude bits, counted from the smallest exponent. -/
def exponentOf (f magnitude : Nat) : Nat := magnitude / 2 ^ f - 1

/-- The mantissa of magnitude bits, its leading bit included. -/
def mantissaOf (f magnitude : Nat) : Nat := magnitude - exponentOf f magnitude * 2 ^ f

/-- The value of finite magnitude bits. -/
def magnitudeRat (w f magnitude : Nat) : ℚ :=
  let e := exponentOf f magnitude + minExponent w f
  mkRat (mantissaOf f magnitude * 2 ^ e.toNat : Nat) (2 ^ (-e).toNat)

/-- The value of a finite number. -/
def toRat (x : BinaryFloat w f) : ℚ :=
  if x.negative then -magnitudeRat w f x.magnitude else magnitudeRat w f x.magnitude

/-- The magnitude bits nearest to `n / d`. -/
def roundMagnitude (w f n d : Nat) : Nat :=
  if n = 0 then 0
  else
    let e := (floorLog2 n d - f - minExponent w f).toNat
    let q := e + minExponent w f
    min (e * 2 ^ f + roundDiv (n * 2 ^ (-q).toNat) (d * 2 ^ q.toNat)) (infinite w f)

/-! ### Texts -/

/-- The `k` significant digits nearest to `n / d`, and the power of ten they count. -/
def roundDigits (k n d : Nat) : Nat × Int :=
  let e := floorLog10 n d - k + 1
  (roundDiv (n * 10 ^ (-e).toNat) (d * 10 ^ e.toNat), e)

/-- The fewest significant digits that are read back as the magnitude, from `k` on. -/
def shortestDigits (w f magnitude : Nat) : Nat → Nat → Nat × Int
  | 0, k => roundDigits k (magnitudeRat w f magnitude).num.natAbs (magnitudeRat w f magnitude).den
  | fuel + 1, k =>
    let x := magnitudeRat w f magnitude
    let candidate := roundDigits k x.num.natAbs x.den
    let n := candidate.1 * 10 ^ candidate.2.toNat
    let d := 10 ^ (-candidate.2).toNat
    if roundMagnitude w f n d = magnitude then candidate
    else shortestDigits w f magnitude fuel (k + 1)

/-- The shortest text that is read back as the same number. -/
def toShortest (x : BinaryFloat w f) : List Char :=
  if x.magnitude = 0 then signText x.negative ++ ['0', '.', '0']
  else
    let shortest := shortestDigits w f x.magnitude 17 1
    scientific x.negative shortest.1 shortest.2

end BinaryFloat
