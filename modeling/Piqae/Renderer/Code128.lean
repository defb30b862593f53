/-
Piqae/Renderer/Code128.lean

Bar codes in Code 128, code set B.

A symbol of the table is a row of bars and spaces in turn.  No two symbols have
the same first eleven modules, so that a row of symbols shows where each of them
ends (`selfDelimiting_symbol`), the decoder finds every symbol in the table, and
what it reads is the text that was written.
-/
import Piqae.Base
import Piqae.Lib.Code

namespace Piqae.Renderer

open List

/-- The patterns, start, checksum and stop included: each digit is the width of a bar or space. -/
def CODE128 : List Nat := [
  212222, 222122, 222221, 121223, 121322, 131222, 122213, 122312, 132212, 221213, 221312, 231212,
  112232, 122132, 122231, 113222, 123122, 123221, 223211, 221132, 221231, 213212, 223112, 312131,
  311222, 321122, 321221, 312212, 322112, 322211, 212123, 212321, 232121, 111323, 131123, 131321,
  112313, 132113, 132311, 211313, 231113, 231311, 112133, 112331, 132131, 113123, 113321, 133121,
  313121, 211331, 231131, 213113, 213311, 213131, 311123, 311321, 331121, 312113, 312311, 332111,
  314111, 221411, 431111, 111224, 111422, 121124, 121421, 141122, 141221, 112214, 112412, 122114,
  122411, 142112, 142211, 241211, 221114, 413111, 241112, 134111, 111242, 121142, 121241, 114212,
  124112, 124211, 411212, 421112, 421211, 212141, 214121, 412121, 111143, 111341, 131141, 114113,
  114311, 411113, 411311, 113141, 114131, 311141, 411131, 211412, 211214, 211232, 2331112]

/-- Bars and spaces in turn. -/
def stripes (bar : Bool) : List Char → List Bool
  | [] => []
  | d :: digits => replicate (d.toNat - '0'.toNat) bar ++ stripes (!bar) digits

def modules (pattern : Nat) : List Bool := stripes true (Nat.toDigits 10 pattern)

/-- The symbols are weighted with their positions.  `barcode` admits 80 characters at most, so
that the sum is far below the limit of `usize`. -/
def checksum (codes : List Nat) : Nat :=
  (codes.zipIdx.drop 1).foldl (fun sum entry => sum + entry.2 * entry.1) 104 % 103

def code128Codes (s : String) : List Nat :=
  let codes := 104 :: (asBytes s).map fun b => (b - 32).toNat
  codes ++ [checksum codes] ++ [106]

/-- Ten light modules on both sides. -/
def quieted (payload : List Bool) : List Bool :=
  replicate 10 false ++ payload ++ replicate 10 false

/-- There is no result when an index is not in the table. -/
def code128Bits (s : String) : Option (List Bool) :=
  ((code128Codes s).mapM fun code => CODE128[code]?.map modules).map (quieted ·.flatten)

/-! ### The decoder -/

def decodeSymbols (payload : List Bool) : Except String (List Nat) :=
  if payload = [] then .ok []
  else
    let width := if payload.length = 13 then 13 else 11
    if payload.length < width then .error "truncated symbol"
    else match CODE128.findIdx? fun pattern => modules pattern == payload.take width with
      | none => .error "unknown codeword"
      | some code => (decodeSymbols (payload.drop width)).map (code :: ·)
termination_by payload.length
decreasing_by
  simp only [length_drop]
  have := length_pos_iff.mpr ‹¬payload = []›
  split <;> omega

def decodeChar (code : Nat) : Except String Char :=
  if code + 32 < 256 then .ok (Char.ofNat (code + 32)) else .error "non-Code-128-B codeword"

def decodeText (codes : List Nat) : Except String String :=
  let data := codes.take (codes.length - 2)
  if codes.head? ≠ some 104 ∨ codes.getLast? ≠ some 106 ∨ codes.length < 3 then
    .error "invalid start/stop"
  else if codes[codes.length - 2]? ≠ some (checksum data) then .error "checksum mismatch"
  else ((data.drop 1).mapM decodeChar).map String.ofList

def decodeCode128B (bits : List Bool) : Except String (List Nat × String) :=
  if bits.length < 20 ∨ (bits.take 10).any id ∨ (bits.drop (bits.length - 10)).any id then
    .error "missing quiet zone"
  else do
    let codes ← decodeSymbols ((bits.take (bits.length - 10)).drop 10)
    return (codes, ← decodeText codes)

/-! ### The table -/

/-- The modules of the symbol at an index. -/
def symbol (code : Nat) : List Bool := modules (CODE128[code]?.getD 0)

theorem length_symbol : ∀ code < 107, (symbol code).length = if code = 106 then 13 else 11 := by
  decide +kernel

theorem take_symbol_inj :
    ∀ a < 107, ∀ b < 107, (symbol a).take 11 = (symbol b).take 11 → a = b := by
  decide +kernel

theorem findIdx_symbol : ∀ code < 107,
    CODE128.findIdx? (fun pattern => modules pattern == symbol code) = some code := by
  decide +kernel

theorem selfDelimiting_symbol : SelfDelimiting (· < 107) symbol := by
  have hlen : ∀ code < 107, 11 ≤ (symbol code).length := by
    intro code hcode
    rw [length_symbol code hcode]
    split <;> decide
  intro a b ha hb r s heq
  have htake := congrArg (take 11) heq
  rw [take_append_of_le_length (hlen a ha), take_append_of_le_length (hlen b hb)] at htake
  obtain rfl := take_symbol_inj a ha b hb htake
  exact ⟨rfl, append_cancel_left heq⟩

theorem mapM_symbol {codes : List Nat} (h : ∀ code ∈ codes, code < 107) :
    (codes.mapM fun code => CODE128[code]?.map modules) = some (codes.map symbol) := by
  induction codes with
  | nil => rfl
  | cons code codes ih =>
    obtain ⟨hcode, hcodes⟩ := forall_mem_cons.mp h
    have hget : CODE128[code]? = some (CODE128[code]) := getElem?_eq_getElem hcode
    simp [mapM_cons, ih hcodes, hget, symbol]

/-! ### Reading -/

theorem decodeSymbols_symbol {code : Nat} {rest : List Bool} (hcode : code < 107)
    (hwidth : (symbol code).length = if (symbol code ++ rest).length = 13 then 13 else 11) :
    decodeSymbols (symbol code ++ rest) = (decodeSymbols rest).map (code :: ·) := by
  have hpos : 0 < (symbol code).length := by
    rw [hwidth]
    split <;> decide
  rw [decodeSymbols, if_neg (by simp [ne_nil_of_length_pos hpos])]
  dsimp only
  rw [← hwidth, if_neg (by simp), take_left, drop_left, findIdx_symbol code hcode]

theorem decodeSymbols_flatMap {body : List Nat} (h : ∀ code ∈ body, code < 106) :
    decodeSymbols ((body ++ [106]).flatMap symbol) = .ok (body ++ [106]) := by
  induction body with
  | nil =>
    have hstop := length_symbol 106 (by decide)
    rw [nil_append, flatMap_singleton, ← append_nil (symbol 106),
      decodeSymbols_symbol (by decide) (by simp [hstop]), decodeSymbols]
    rfl
  | cons code body ih =>
    obtain ⟨hcode, hbody⟩ := forall_mem_cons.mp h
    have hlen : (symbol code).length = 11 := by
      rw [length_symbol code (by omega), if_neg (by omega)]
    have hstop := length_symbol 106 (by decide)
    rw [cons_append, flatMap_cons, decodeSymbols_symbol (by omega), ih hbody]
    · rfl
    · rw [hlen, if_neg]
      simp [hlen, hstop]
      omega

/-- The characters of the code set. -/
def Printable (s : String) : Prop := ∀ c ∈ s.toList, 32 ≤ c.toNat ∧ c.toNat ≤ 126

/-- The start symbol and those of the characters. -/
def dataOf (s : String) : List Nat := 104 :: s.toList.map fun c => c.toNat - 32

section

variable {s : String} (h : Printable s)

include h

theorem code128Codes_eq : code128Codes s = dataOf s ++ [checksum (dataOf s)] ++ [106] := by
  have hbytes : asBytes s = s.toList.flatMap String.utf8EncodeChar := by
    rw [asBytes, String.toUTF8, ← String.utf8Encode_toList, utf8Encode, data_toByteArray]
  have hcodes : ((asBytes s).map fun b => (b - 32).toNat) = s.toList.map fun c => c.toNat - 32 := by
    rw [hbytes, map_flatMap, map_eq_flatMap]
    refine flatMap_congr fun c hc => ?_
    obtain ⟨hlo, hhi⟩ := h c hc
    rw [String.utf8EncodeChar, if_pos (show c.val.toNat ≤ 127 from Nat.le_succ_of_le hhi)]
    simp [UInt8.toNat_sub, UInt8.toNat_ofNat]
    omega
  simp only [code128Codes, dataOf, hcodes]

theorem codes_lt : ∀ code ∈ dataOf s ++ [checksum (dataOf s)], code < 106 := by
  simp only [dataOf, cons_append, forall_mem_cons, forall_mem_append,
    forall_mem_map]
  refine ⟨by decide, fun c hc => ?_, ?_, nofun⟩
  · have := (h c hc).2
    omega
  · exact Nat.lt_trans (Nat.mod_lt _ (by decide)) (by decide)

theorem code128Codes_lt : ∀ code ∈ code128Codes s, code < 107 := by
  rw [code128Codes_eq h, forall_mem_append]
  exact ⟨fun code hcode => Nat.lt_succ_of_lt (codes_lt h code hcode), by simp⟩

theorem code128Bits_eq : code128Bits s = some (quieted ((code128Codes s).flatMap symbol)) := by
  rw [code128Bits, mapM_symbol (code128Codes_lt h)]
  rfl

theorem decodeText_eq : decodeText (code128Codes s) = .ok s := by
  have hchars : ∀ {chars : List Char}, (∀ c ∈ chars, 32 ≤ c.toNat ∧ c.toNat ≤ 126) →
      (chars.map fun c => c.toNat - 32).mapM decodeChar = .ok chars := by
    intro chars hall
    induction chars with
    | nil => rfl
    | cons c chars ih =>
      obtain ⟨⟨hlo, hhi⟩, hrest⟩ := forall_mem_cons.mp hall
      have hc : decodeChar (c.toNat - 32) = .ok c := by
        rw [decodeChar, Nat.sub_add_cancel hlo, if_pos (by omega), Char.ofNat_toNat]
      rw [map_cons, mapM_cons, hc, ih hrest]
      rfl
  have hlast : (dataOf s ++ [checksum (dataOf s)] ++ [106]).getLast? = some 106 :=
    getLast?_concat
  rw [code128Codes_eq h, decodeText, if_neg, if_neg (by simp)]
  · simp [dataOf, hchars h, Except.map]
  · rw [hlast]
    simp [dataOf]

theorem decodeCode128B_eq :
    decodeCode128B (quieted ((code128Codes s).flatMap symbol)) = .ok (code128Codes s, s) := by
  have hread := decodeSymbols_flatMap (codes_lt h)
  rw [← code128Codes_eq h] at hread
  generalize (code128Codes s).flatMap symbol = payload at hread ⊢
  have hzone : ((quieted payload).take ((quieted payload).length - 10)).drop 10 = payload := by
    simp [quieted]
  rw [decodeCode128B, if_neg (by simp [quieted]), hzone, hread]
  show (do return (_, ← decodeText _)) = _
  rw [decodeText_eq h]
  rfl

end

/-- **A bar code reads as its text**: every index is in the table, the modules between the quiet
zones are a row of symbols of eleven modules and the stop symbol in one way only, and the decoder
finds the text, so that no other text has the bar code. -/
theorem code128Bits_decodes (s : String) (hs : Printable s) :
    ∃ codes payload, codes = dataOf s ++ [checksum (dataOf s)] ++ [106] ∧
      (∀ code ∈ codes, code < CODE128.length) ∧ code128Bits s = some (quieted payload) ∧
      payload = codes.flatMap symbol ∧ (∀ code ∈ codes.dropLast, (symbol code).length = 11) ∧
      (symbol 106).length = 13 ∧
      (∀ other : List Nat, (∀ code ∈ other, code < CODE128.length) →
        other.flatMap symbol = payload → other = codes) ∧
      decodeCode128B (quieted payload) = .ok (codes, s) ∧
      ∀ t, Printable t → code128Bits t = code128Bits s → t = s := by
  refine ⟨code128Codes s, _, code128Codes_eq hs, code128Codes_lt hs, code128Bits_eq hs, rfl,
    fun code hcode => ?_, length_symbol 106 (by decide), fun other hother heq => ?_,
    decodeCode128B_eq hs, fun t ht heq => ?_⟩
  · rw [code128Codes_eq hs, dropLast_concat] at hcode
    have hlt := codes_lt hs code hcode
    rw [length_symbol code (by omega), if_neg (by omega)]
  · refine selfDelimiting_symbol.flatMap_injective (fun code hcode hnil => ?_) hother
      (code128Codes_lt hs) heq
    have hlen := length_symbol code hcode
    rw [hnil] at hlen
    split at hlen <;> cases hlen
  · rw [code128Bits_eq ht, code128Bits_eq hs] at heq
    have hread := decodeCode128B_eq ht
    rw [Option.some.inj heq, decodeCode128B_eq hs] at hread
    exact (congrArg Prod.snd (Except.ok.inj hread)).symm

theorem code128Bits_decodes_digits : ∃ codes payload,
    code128Bits "42" = some (quieted payload) ∧
      decodeCode128B (quieted payload) = .ok (codes, "42") := by
  obtain ⟨codes, payload, -, -, hbits, -, -, -, -, hread, -⟩ :=
    code128Bits_decodes "42" (by simp [Printable])
  exact ⟨codes, payload, hbits, hread⟩

end Piqae.Renderer
