/-
Piqae/Renderer/Jpeg.lean

The dimensions of a JPEG image.

`jpegDimensions` follows the lengths that the segments declare, from the start
marker to the first frame header.  A read outside of the bytes is `none` in the
model, so that the scan is safe if it is never `none`; the loop ends because an
iteration moves the offset past a marker and a length (`iteration_advances`).
-/
import Mathlib

namespace Piqae.Renderer

open List

inductive RenderError
  | invalid (message : String)
  | unsupported (message : String)
  | limit (message : String)
deriving DecidableEq

/-- The bytes from one index to another. -/
def slice (bytes : List UInt8) (start stop : Nat) : Option (List UInt8) :=
  if start ≤ stop ∧ stop ≤ bytes.length then some ((bytes.take stop).drop start) else none

def fromBeBytes (high low : UInt8) : Nat := 256 * high.toNat + low.toNat

/-- The fill bytes in front of a marker. -/
def skipFill (bytes : List UInt8) (offset : Nat) : Nat :=
  if h : bytes[offset]? = some 0xFF then skipFill bytes (offset + 1) else offset
termination_by bytes.length - offset
decreasing_by
  have := (List.getElem?_eq_some_iff.mp h).1
  omega

/-- The width and height in a frame header. -/
def frameDimensions : List UInt8 → Except RenderError (Nat × Nat)
  | precision :: h₁ :: h₂ :: w₁ :: w₂ :: components :: _ =>
    let height := fromBeBytes h₁ h₂
    let width := fromBeBytes w₁ w₂
    if precision ≠ 8 ∨ components ≠ 3 then
      .error (.unsupported "JPEG must use 8-bit baseline/progressive RGB samples")
    else if width = 0 ∨ height = 0 then .error (.invalid "JPEG has zero dimensions")
    else if width * height > 50000000 then .error (.limit "JPEG pixels")
    else .ok (width, height)
  | _ => .error (.unsupported "JPEG must use 8-bit baseline/progressive RGB samples")

/-- How an iteration of the loop ends. -/
inductive Iteration
  | finished (result : Except RenderError (Nat × Nat))
  | advanced (offset : Nat)

def isFrame (marker : UInt8) : Bool := 0xC0 ≤ marker && marker ≤ 0xC2

/-- The end of the image, or the start of a scan. -/
def isEnd (marker : UInt8) : Bool := marker = 0xD9 || marker = 0xDA

def iteration (bytes : List UInt8) (offset : Nat) : Option Iteration := do
  if (← bytes[offset]?) ≠ 0xFF then
    return .finished (.error (.invalid "malformed JPEG marker"))
  let place := skipFill bytes offset
  match bytes[place]? with
  | none => return .finished (.error (.invalid "malformed JPEG marker"))
  | some marker =>
    let offset := place + 1
    if isEnd marker then
      return .finished (.error (.invalid "JPEG dimensions were not found"))
    match bytes[offset]?, bytes[offset + 1]? with
    | some high, some low =>
      let length := fromBeBytes high low
      if length < 2 ∨ offset + length > bytes.length then
        return .finished (.error (.invalid "malformed JPEG segment"))
      if isFrame marker then
        return .finished (frameDimensions (← slice bytes (offset + 2) (offset + length)))
      return .advanced (offset + length)
    | _, _ => return .finished (.error (.invalid "malformed JPEG segment"))

/-! ### The format -/

section

variable (bytes : List UInt8)

/-- A number of two bytes is stored at an index. -/
def Stored (index n : Nat) : Prop :=
  ∃ high low, bytes[index]? = some high ∧ bytes[index + 1]? = some low ∧ n = fromBeBytes high low

/-- A segment: fill bytes, the marker, and as many bytes as its length says. -/
structure SegmentAt (offset : Nat) (marker : UInt8) (body length : Nat) : Prop where
  filled : offset + 2 ≤ body ∧ ∀ i, offset ≤ i → i + 1 < body → bytes[i]? = some 0xFF
  marker : bytes[body - 1]? = some marker ∧ marker ≠ 0xFF
  declared : Stored bytes body length
  within : 2 ≤ length ∧ body + length ≤ bytes.length

/-- Where the segments begin, up to the first frame header, scan or end. -/
inductive Chain : Nat → Prop
  | start : Chain 2
  | next {offset body length : Nat} {marker : UInt8} (h : Chain offset)
      (hseg : SegmentAt bytes offset marker body length) (hframe : isFrame marker = false)
      (hend : isEnd marker = false) : Chain (body + length)

end

/-! ### Iterations -/

variable {bytes : List UInt8} {offset : Nat}

theorem skipFill_spec (bytes : List UInt8) (offset : Nat) :
    offset ≤ skipFill bytes offset ∧
      (∀ i, offset ≤ i → i < skipFill bytes offset → bytes[i]? = some 0xFF) ∧
      bytes[skipFill bytes offset]? ≠ some 0xFF := by
  fun_induction skipFill bytes offset with
  | case1 offset h ih =>
    obtain ⟨hle, hfill, hstop⟩ := ih
    refine ⟨by omega, fun i hi hlt => ?_, hstop⟩
    rcases Nat.eq_or_lt_of_le hi with rfl | hi
    · exact h
    · exact hfill i hi hlt
  | case2 offset h => exact ⟨Nat.le_refl _, fun i _ _ => by omega, h⟩

/-- The dimensions are positive, not too large, and stored in the frame header at the offset. -/
def Declares (bytes : List UInt8) (offset width height : Nat) : Prop :=
  0 < width ∧ 0 < height ∧ width * height ≤ 50000000 ∧
    ∃ marker body length, SegmentAt bytes offset marker body length ∧ isFrame marker = true ∧
      7 ≤ length ∧ Stored bytes (body + 3) height ∧ Stored bytes (body + 5) width

theorem declares_of_frameDimensions {marker : UInt8} {body length width height : Nat}
    (hseg : SegmentAt bytes offset marker body length) (hframe : isFrame marker = true)
    (h : frameDimensions ((bytes.take (body + length)).drop (body + 2)) = .ok (width, height)) :
    Declares bytes offset width height := by
  have hget : ∀ {i b}, ((bytes.take (body + length)).drop (body + 2))[i]? = some b →
      bytes[body + 2 + i]? = some b ∧ 2 + i < length := by
    intro i b hb
    rw [getElem?_drop, getElem?_take] at hb
    split_ifs at hb
    exact ⟨hb, by omega⟩
  unfold frameDimensions at h
  split at h
  next precision h₁ h₂ w₁ w₂ components rest heq =>
    rw [heq] at hget
    dsimp only at h
    split_ifs at h with hfmt hzero hlimit
    cases h
    have hlen := (hget (i := 5) rfl).2
    exact ⟨by omega, by omega, by omega, marker, body, length, hseg, hframe, by omega,
      ⟨h₁, h₂, (hget (i := 1) rfl).1, (hget (i := 2) rfl).1, rfl⟩,
      ⟨w₁, w₂, (hget (i := 3) rfl).1, (hget (i := 4) rfl).1, rfl⟩⟩
  · cases h

/-- An iteration that ends with the dimensions or at the next segment. -/
def Iteration.Follows (bytes : List UInt8) (offset : Nat) : Iteration → Prop
  | finished result => ∀ width height, result = .ok (width, height) →
      Declares bytes offset width height
  | advanced next => ∃ marker body length, SegmentAt bytes offset marker body length ∧
      isFrame marker = false ∧ isEnd marker = false ∧ next = body + length

theorem iteration_follows (bytes : List UInt8) (offset : Nat) (h : offset < bytes.length) :
    ∃ it, iteration bytes offset = some it ∧ it.Follows bytes offset := by
  obtain ⟨hle, hfill, hstop⟩ := skipFill_spec bytes offset
  unfold iteration
  rw [getElem?_eq_getElem h, Option.bind_eq_bind, Option.bind_some]
  by_cases hff : bytes[offset] ≠ 0xFF
  · exact ⟨_, if_pos hff, nofun⟩
  rw [if_neg hff]
  have hlt : offset < skipFill bytes offset := by
    refine Nat.lt_of_le_of_ne hle fun heq => hstop ?_
    rw [← heq, getElem?_eq_getElem h, not_not.mp hff]
  dsimp only
  split
  · exact ⟨_, rfl, nofun⟩
  next marker hmarker =>
  by_cases hend : isEnd marker = true
  · exact ⟨_, if_pos hend, nofun⟩
  rw [if_neg hend]
  split
  next high low hhigh hlow =>
    by_cases hlen : fromBeBytes high low < 2 ∨
        skipFill bytes offset + 1 + fromBeBytes high low > bytes.length
    · exact ⟨_, if_pos hlen, nofun⟩
    have hseg : SegmentAt bytes offset marker (skipFill bytes offset + 1) (fromBeBytes high low) :=
      ⟨⟨by omega, fun i hi hlt => hfill i hi (by omega)⟩,
        ⟨hmarker, fun heq => hstop (heq ▸ hmarker)⟩, ⟨high, low, hhigh, hlow, rfl⟩, by omega⟩
    rw [if_neg hlen]
    split_ifs with hframe
    · rw [slice, if_pos ⟨by omega, by omega⟩]
      exact ⟨_, rfl, fun width height => declares_of_frameDimensions hseg hframe⟩
    · exact ⟨_, rfl, marker, _, _, hseg, Bool.eq_false_iff.mpr hframe,
        Bool.eq_false_iff.mpr hend, rfl⟩
  · exact ⟨_, rfl, nofun⟩

theorem iteration_advances {next : Nat} (h : iteration bytes offset = some (.advanced next)) :
    offset + 2 ≤ next := by
  have hlt : offset < bytes.length := by
    by_contra hge
    rw [iteration, getElem?_eq_none (Nat.le_of_not_lt hge)] at h
    cases h
  obtain ⟨it, heq, hfollows⟩ := iteration_follows bytes offset hlt
  cases heq.symm.trans h
  obtain ⟨marker, body, length, hseg, -, -, rfl⟩ := hfollows
  exact Nat.le_trans hseg.filled.1 (Nat.le_add_right body length)

def scan (bytes : List UInt8) (offset : Nat) : Option (Except RenderError (Nat × Nat)) :=
  if offset + 4 ≤ bytes.length then
    match _h : iteration bytes offset with
    | none => none
    | some (.finished result) => some result
    | some (.advanced next) => scan bytes next
  else some (.error (.invalid "JPEG dimensions were not found"))
termination_by bytes.length - offset
decreasing_by
  have := iteration_advances _h
  omega

def jpegDimensions (bytes : List UInt8) : Option (Except RenderError (Nat × Nat)) :=
  if bytes.length < 4 ∨ bytes.take 2 ≠ [0xFF, 0xD8] ∨ bytes.drop (bytes.length - 2) ≠ [0xFF, 0xD9]
  then some (.error (.invalid "malformed JPEG"))
  else scan bytes 2

theorem scan_safe (h : Chain bytes offset) : ∃ result, scan bytes offset = some result ∧
    ∀ width height, result = .ok (width, height) →
      ∃ offset, Chain bytes offset ∧ Declares bytes offset width height := by
  fun_induction scan bytes offset with
  | case1 offset hlen heq =>
    obtain ⟨it, hit, -⟩ := iteration_follows bytes offset (by omega)
    cases heq.symm.trans hit
  | case2 offset hlen result heq =>
    obtain ⟨it, hit, hfollows⟩ := iteration_follows bytes offset (by omega)
    cases heq.symm.trans hit
    exact ⟨result, rfl, fun width height hok => ⟨offset, h, hfollows width height hok⟩⟩
  | case3 offset hlen next heq ih =>
    obtain ⟨it, hit, hfollows⟩ := iteration_follows bytes offset (by omega)
    cases heq.symm.trans hit
    obtain ⟨marker, body, length, hseg, hframe, hend, rfl⟩ := hfollows
    exact ih (h.next hseg hframe hend)
  | case4 => exact ⟨_, rfl, nofun⟩

/-- **The header scan is safe**: it ends without a read outside of the bytes, every iteration
moves the offset on by two bytes or more, and the dimensions it returns are the ones that the
first frame header declares. -/
theorem jpegDimensions_safe (bytes : List UInt8) :
    (∃ result, jpegDimensions bytes = some result) ∧
      (∀ offset next, iteration bytes offset = some (.advanced next) → offset + 2 ≤ next) ∧
      ∀ width height, jpegDimensions bytes = some (.ok (width, height)) →
        ∃ offset, Chain bytes offset ∧ Declares bytes offset width height := by
  obtain ⟨result, hscan, hdims⟩ := scan_safe (.start : Chain bytes 2)
  refine ⟨?_, fun offset next h => iteration_advances h, fun width height h => ?_⟩
  · unfold jpegDimensions
    split_ifs
    · exact ⟨_, rfl⟩
    · exact ⟨_, hscan⟩
  · unfold jpegDimensions at h
    split_ifs at h
    · cases h
    · exact hdims width height (Option.some.inj (hscan.symm.trans h))

end Piqae.Renderer
