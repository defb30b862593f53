/-
Piqae/Json.lean

JSON values, as the libraries of the source keep them: integers and floats
are different numbers, an object is a list of members in key order, and
`beq` is the equality of the source, which compares two floats by value.

`Json.text` is the compact text of a value.
-/
import Piqae.Lib.BinaryFloat

namespace Piqae

abbrev F64 := BinaryFloat 11 52

/-- A JSON number: an integer, or a finite float. -/
inductive Number
  | integer (i : Int)
  | float (x : F64)
deriving DecidableEq

namespace Number

/-- Integers and floats are never equal. -/
def beq : Number → Number → Bool
  | integer i, integer j => i = j
  | float x, float y => x.toRat = y.toRat
  | _, _ => false

def text : Number → List Char
  | integer i => signText (i < 0) ++ Nat.toDigits 10 i.natAbs
  | float x => x.toShortest

end Number

/-- A JSON value. -/
inductive Json
  | null
  | bool (b : Bool)
  | number (n : Number)
  | string (s : String)
  | array (items : List Json)
  | object (members : List (String × Json))

namespace Json

def isObject : Json → Bool
  | object _ => true
  | _ => false

/-! ### Equality -/

mutual

def beq : Json → Json → Bool
  | null, null => true
  | bool a, bool b => a == b
  | number m, number n => m.beq n
  | string s, string t => s == t
  | array l, array l' => beqItems l l'
  | object m, object m' => beqMembers m m'
  | _, _ => false

def beqItems : List Json → List Json → Bool
  | [], [] => true
  | a :: l, b :: l' => a.beq b && beqItems l l'
  | _, _ => false

def beqMembers : List (String × Json) → List (String × Json) → Bool
  | [], [] => true
  | (k, a) :: m, (k', b) :: m' => k == k' && a.beq b && beqMembers m m'
  | _, _ => false

end

/-! ### Compact text -/

/-- The four hexadecimal digits of a character code. -/
def hex4 (n : Nat) : List Char :=
  [Nat.digitChar (n / 4096 % 16), Nat.digitChar (n / 256 % 16), Nat.digitChar (n / 16 % 16),
    Nat.digitChar (n % 16)]

/-- A character inside a JSON string. -/
def escapeChar (c : Char) : List Char :=
  if c = '"' then ['\\', '"']
  else if c = '\\' then ['\\', '\\']
  else if c = '\n' then ['\\', 'n']
  else if c = '\r' then ['\\', 'r']
  else if c = '\t' then ['\\', 't']
  else if c.toNat = 8 then ['\\', 'b']
  else if c.toNat = 12 then ['\\', 'f']
  else if c.toNat < 32 then '\\' :: 'u' :: hex4 c.toNat
  else [c]

def quote (s : String) : List Char := '"' :: s.toList.flatMap escapeChar ++ ['"']

mutual

/-- The compact text of a value. -/
def text : Json → List Char
  | null => "null".toList
  | bool b => (toString b).toList
  | number n => n.text
  | string s => quote s
  | array items => '[' :: textItems items ++ [']']
  | object members => '\x7b' :: textMembers members ++ ['\x7d']

def textItems : List Json → List Char
  | [] => []
  | [a] => a.text
  | a :: l => a.text ++ ',' :: textItems l

def textMembers : List (String × Json) → List Char
  | [] => []
  | [(k, a)] => quote k ++ ':' :: a.text
  | (k, a) :: m => quote k ++ ':' :: a.text ++ ',' :: textMembers m

end

end Json

end Piqae
