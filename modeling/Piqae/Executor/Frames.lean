/-
Piqae/Executor/Frames.lean

The frames of the executor protocol (`executor-protocol/src/lib.rs`): the length of
a message in four bytes, then its JSON text.  The text is read and written by a
library, here `fromSlice` and `toVec`.

The decoder keeps what it has not decoded yet, so it does not matter where the stream
is cut, except that the messages of a chunk are dropped with its first bad frame.
-/
import Mathlib

namespace Piqae.Executor

open List

def maxFrameBytes : Nat := 1024 * 1024

inductive FrameError
  | tooLarge (length : Nat)
  | io
  | json
deriving DecidableEq

/-- `u32::to_be_bytes`. -/
def toBeBytes32 (n : Nat) : List UInt8 :=
  [.ofNat (n / 256 ^ 3), .ofNat (n / 256 ^ 2), .ofNat (n / 256), .ofNat n]

/-- `u32::from_be_bytes`. -/
def fromBeBytes (header : List UInt8) : Nat := header.foldl (fun n b => n * 256 + b.toNat) 0

section

variable {T : Type} (toVec : T → Option (List UInt8)) (fromSlice : List UInt8 → Option T)

def encodeFrame (value : T) : Except FrameError (List UInt8) :=
  match toVec value with
  | none => .error .json
  | some body =>
    if maxFrameBytes < body.length then .error (.tooLarge body.length)
    else .ok (toBeBytes32 body.length ++ body)

/-- What is at the start of a buffer. -/
inductive Found (T : Type)
  | incomplete
  | bad (error : FrameError) (rest : List UInt8)
  | message (message : T) (rest : List UInt8)

/-- One round of the loop of `push`. -/
def nextFrame (buffer : List UInt8) : Found T :=
  if buffer.length < 4 then .incomplete
  else
    let bodyLen := fromBeBytes (buffer.take 4)
    if maxFrameBytes < bodyLen then .bad (.tooLarge bodyLen) buffer
    else if buffer.length < bodyLen + 4 then .incomplete
    else
      let rest := (buffer.drop 4).drop bodyLen
      match fromSlice ((buffer.drop 4).take bodyLen) with
      | none => .bad .json rest
      | some message => .message message rest

theorem length_of_message {buffer rest : List UInt8} {message : T}
    (h : nextFrame fromSlice buffer = .message message rest) : rest.length < buffer.length := by
  unfold nextFrame at h
  dsimp only at h
  split_ifs at h
  split at h
  · cases h
  · cases h
    simp only [length_drop]
    omega

/-- The loop of `push`: the messages decoded from the buffer, the error that ends it,
and the buffer that is left. -/
def pushLoop (buffer : List UInt8) : List T × Option FrameError × List UInt8 :=
  match _h : nextFrame fromSlice buffer with
  | .incomplete => ([], none, buffer)
  | .bad error rest => ([], some error, rest)
  | .message message rest => (message :: (pushLoop rest).1, (pushLoop rest).2)
termination_by buffer.length
decreasing_by all_goals exact length_of_message fromSlice _h

def push (buffer bytes : List UInt8) : Except FrameError (List T) × List UInt8 :=
  match pushLoop fromSlice (buffer ++ bytes) with
  | (decoded, none, rest) => (.ok decoded, rest)
  | (_, some error, rest) => (.error error, rest)

/-- `read_frame_async` on a stream, if it ends by the time the stream has these bytes. -/
def readFrame (stream : List UInt8) (closed : Bool) : Option (Except FrameError T) :=
  match nextFrame fromSlice stream with
  | .incomplete => if closed then some (.error .io) else none
  | .bad error _ => some (.error error)
  | .message message _ => some (.ok message)

/-- Chunks are pushed up to the first error: the messages returned, and the error. -/
def pushAll (buffer : List UInt8) : List (List UInt8) → List T × Option FrameError
  | [] => ([], none)
  | chunk :: chunks =>
    match push fromSlice buffer chunk with
    | (.error error, _) => ([], some error)
    | (.ok decoded, rest) => (decoded ++ (pushAll rest chunks).1, (pushAll rest chunks).2)

/-- The bytes are a frame with the text of this message. -/
def Carries (message : T) (frame : List UInt8) : Prop :=
  ∃ header body, header.length = 4 ∧ fromBeBytes header = body.length ∧
    body.length ≤ maxFrameBytes ∧ fromSlice body = some message ∧ frame = header ++ body

/-- The bytes start with a frame that is too large, or whose text is not that of a message. -/
def Bad (bytes : List UInt8) : Prop :=
  ∃ header rest, header.length = 4 ∧ bytes = header ++ rest ∧
    (maxFrameBytes < fromBeBytes header ∨ fromBeBytes header ≤ rest.length ∧
      fromSlice (rest.take (fromBeBytes header)) = none)

end

variable {T : Type} {toVec : T → Option (List UInt8)} {fromSlice : List UInt8 → Option T}
  {buffer : List UInt8}

def Found.append (more : List UInt8) : Found T → Found T
  | incomplete => incomplete
  | bad error rest => bad error (rest ++ more)
  | message m rest => message m (rest ++ more)

/-- What has been found stays so when bytes are added. -/
theorem nextFrame_append (more : List UInt8) {found : Found T}
    (h : nextFrame fromSlice buffer = found) (hfound : found ≠ .incomplete) :
    nextFrame fromSlice (buffer ++ more) = found.append more := by
  subst h
  unfold nextFrame at hfound ⊢
  dsimp only at hfound ⊢
  split_ifs at hfound with hshort hlarge hlong
  · contradiction
  · rw [take_append_of_le_length (by omega), if_neg (by simp; omega), if_pos hlarge,
      if_neg hshort, if_pos hlarge]
    rfl
  · contradiction
  · rw [take_append_of_le_length (by omega), if_neg (by simp; omega), if_neg hlarge,
      if_neg (by simp; omega), if_neg hshort, if_neg hlarge, if_neg hlong,
      drop_append_of_le_length (by omega), take_append_of_le_length (by simp; omega),
      drop_append_of_le_length (by simp; omega)]
    split <;> rfl

theorem pushLoop_eq : pushLoop fromSlice buffer =
    match nextFrame fromSlice buffer with
    | .incomplete => ([], none, buffer)
    | .bad error rest => ([], some error, rest)
    | .message message rest =>
      (message :: (pushLoop fromSlice rest).1, (pushLoop fromSlice rest).2) := by
  rw [pushLoop]
  split <;> rename_i h <;> rw [h]

/-- Bytes that are added are decoded after what is left of the buffer. -/
theorem pushLoop_append (more : List UInt8) : pushLoop fromSlice (buffer ++ more) =
    match pushLoop fromSlice buffer with
    | (decoded, none, rest) =>
      (decoded ++ (pushLoop fromSlice (rest ++ more)).1, (pushLoop fromSlice (rest ++ more)).2)
    | (decoded, some error, rest) => (decoded, some error, rest ++ more) := by
  induction buffer using pushLoop.induct fromSlice with
  | case1 buffer h =>
    rw [@pushLoop_eq _ _ buffer, h]
    rfl
  | case2 buffer error rest h =>
    rw [pushLoop_eq, nextFrame_append more h nofun, @pushLoop_eq _ _ buffer, h]
    rfl
  | case3 buffer message rest h ih =>
    rw [pushLoop_eq, nextFrame_append more h nofun, @pushLoop_eq _ _ buffer, h]
    dsimp only [Found.append]
    rw [ih]
    rcases pushLoop fromSlice rest with ⟨decoded, - | error, left⟩ <;> rfl

theorem nextFrame_rest {decoded : List T} {rest : List UInt8}
    (h : pushLoop fromSlice buffer = (decoded, none, rest)) :
    nextFrame fromSlice rest = .incomplete := by
  induction buffer using pushLoop.induct fromSlice generalizing decoded with
  | case1 buffer hfound =>
    rw [pushLoop_eq, hfound] at h
    cases h
    exact hfound
  | case2 buffer error left hfound =>
    rw [pushLoop_eq, hfound] at h
    cases h
  | case3 buffer message left hfound ih =>
    rw [pushLoop_eq, hfound] at h
    exact ih (Prod.ext rfl (Prod.mk.inj h).2)

/-- Chunks after a buffer without a whole frame: the error is that of all bytes
together, and the messages are unless they come before a bad frame. -/
theorem pushAll_eq {c : List (List UInt8)} {whole : List T × Option FrameError × List UInt8}
    (hidle : nextFrame fromSlice buffer = .incomplete)
    (h : pushLoop fromSlice (buffer ++ c.flatten) = whole) :
    (pushAll fromSlice buffer c).2 = whole.2.1 ∧
      (whole.2.1 = none ∨ whole.1 = [] → (pushAll fromSlice buffer c).1 = whole.1) := by
  subst h
  induction c generalizing buffer with
  | nil =>
    rw [flatten_nil, append_nil, pushLoop_eq, hidle]
    exact ⟨rfl, fun _ => rfl⟩
  | cons chunk chunks ih =>
    rw [flatten_cons, ← append_assoc, pushLoop_append, pushAll, push]
    rcases hdrain : pushLoop fromSlice (buffer ++ chunk) with ⟨decoded, - | error, rest⟩
    · obtain ⟨herror, hmessages⟩ := ih (nextFrame_rest hdrain)
      refine ⟨herror, fun h => congrArg (decoded ++ ·) (hmessages (h.imp_right fun hnil => ?_))⟩
      exact (append_eq_nil_iff.mp hnil).2
    · exact ⟨rfl, fun h => (h.resolve_left nofun).symm⟩

/-! ### Good and bad frames -/

variable {frame rest : List UInt8} {message : T}

theorem Carries.nextFrame (h : Carries fromSlice message frame) (rest : List UInt8) :
    nextFrame fromSlice (frame ++ rest) = .message message rest := by
  obtain ⟨header, body, hheader, hlength, hmax, hmessage, rfl⟩ := h
  unfold Executor.nextFrame
  rw [append_assoc, take_left' hheader, drop_left' hheader, hlength]
  dsimp only
  rw [take_left' rfl, drop_left' rfl, hmessage, if_neg (by simp; omega), if_neg (by omega),
    if_neg (by simp; omega)]

/-- A message stands in a frame at the start of the buffer. -/
theorem carries_of_nextFrame (h : nextFrame fromSlice buffer = .message message rest) :
    ∃ frame, Carries fromSlice message frame ∧ buffer = frame ++ rest := by
  unfold nextFrame at h
  dsimp only at h
  split_ifs at h with hshort hlarge hlong
  split at h <;> cases h
  next hmessage =>
  refine ⟨_, ⟨buffer.take 4, _, ?_, ?_, ?_, hmessage, rfl⟩, ?_⟩
  · exact length_take_of_le (by omega)
  · rw [length_take_of_le (by rw [length_drop]; omega)]
  · rw [length_take_of_le (by rw [length_drop]; omega)]
    omega
  · rw [append_assoc, take_append_drop, take_append_drop]

theorem bad_iff :
    Bad fromSlice buffer ↔ ∃ error rest, nextFrame fromSlice buffer = .bad error rest := by
  constructor
  · rintro ⟨header, rest, hheader, rfl, hbad⟩
    unfold nextFrame
    rw [take_left' hheader, drop_left' hheader, if_neg (by simp; omega)]
    dsimp only
    split_ifs with hlarge hlong
    · exact ⟨_, _, rfl⟩
    · rcases hbad with hbad | ⟨hbad, -⟩
      · omega
      · simp only [length_append] at hlong
        omega
    · rw [(hbad.resolve_left hlarge).2]
      exact ⟨_, _, rfl⟩
  · rintro ⟨error, rest, h⟩
    unfold nextFrame at h
    dsimp only at h
    split_ifs at h with hshort hlarge hlong
    · exact ⟨_, _, length_take_of_le (by omega), (take_append_drop 4 buffer).symm, .inl hlarge⟩
    · split at h <;> cases h
      next hnone =>
      refine ⟨_, _, length_take_of_le (by omega), (take_append_drop 4 buffer).symm,
        .inr ⟨?_, hnone⟩⟩
      rw [length_drop]
      omega

theorem fromBeBytes_toBeBytes32 {n : Nat} (h : n ≤ maxFrameBytes) :
    fromBeBytes (toBeBytes32 n) = n := by
  unfold maxFrameBytes at h
  simp [fromBeBytes, toBeBytes32]
  omega

/-- A frame that was encoded carries its message. -/
theorem carries_encodeFrame
    (hround : ∀ body, toVec message = some body → fromSlice body = some message)
    (h : encodeFrame toVec message = .ok frame) : Carries fromSlice message frame := by
  unfold encodeFrame at h
  split at h
  · cases h
  next body hbody =>
  split_ifs at h with hlarge
  cases h
  exact ⟨_, body, rfl, fromBeBytes_toBeBytes32 (by omega), by omega, hround body hbody, rfl⟩

/-- Messages are decoded from their frames, and then what stands behind them. -/
theorem pushLoop_frames {messages : List T} {frames : List (List UInt8)}
    (h : Forall₂ (Carries fromSlice) messages frames) (rest : List UInt8) :
    pushLoop fromSlice (frames.flatten ++ rest) =
      (messages ++ (pushLoop fromSlice rest).1, (pushLoop fromSlice rest).2) := by
  induction h with
  | nil => rfl
  | cons hframe _ ih =>
    rw [flatten_cons, append_assoc, pushLoop_eq, hframe.nextFrame]
    dsimp only
    rw [ih, cons_append]

/-- An error comes from a bad frame behind those of the messages. -/
theorem exists_bad (h : (pushLoop fromSlice buffer).2.1 ≠ none) :
    ∃ frames rest, Forall₂ (Carries fromSlice) (pushLoop fromSlice buffer).1 frames ∧
      Bad fromSlice rest ∧ buffer = frames.flatten ++ rest := by
  induction buffer using pushLoop.induct fromSlice with
  | case1 buffer hfound =>
    rw [pushLoop_eq, hfound] at h
    contradiction
  | case2 buffer error rest hfound =>
    rw [pushLoop_eq, hfound]
    exact ⟨[], buffer, .nil, bad_iff.mpr ⟨error, rest, hfound⟩, rfl⟩
  | case3 buffer message rest hfound ih =>
    rw [pushLoop_eq, hfound] at h ⊢
    obtain ⟨frame, hframe, rfl⟩ := carries_of_nextFrame hfound
    obtain ⟨frames, last, hframes, hbad, rfl⟩ := ih h
    exact ⟨frame :: frames, last, .cons hframe hframes, hbad, by simp⟩

/-- **Frames and chunks**: how a stream is cut does not matter to what is returned if
and only if no good frame stands before its first bad one; and frames that were encoded
are decoded, however they are cut, even with a part of another one behind them. -/
theorem decoding_independent_of_cut_iff (toVec : T → Option (List UInt8))
    (fromSlice : List UInt8 → Option T) :
    (∀ stream, (∀ cut cut' : List (List UInt8), cut.flatten = stream → cut'.flatten = stream →
        pushAll fromSlice [] cut = pushAll fromSlice [] cut') ↔
      ∀ messages frames rest, Forall₂ (Carries fromSlice) messages frames →
        Bad fromSlice rest → stream = frames.flatten ++ rest → frames = []) ∧
    ((∀ message body, toVec message = some body → fromSlice body = some message) →
      ∀ (messages : List T) (frames : List (List UInt8)) (last : T) (frame tail : List UInt8)
        (cut : List (List UInt8)),
        Forall₂ (fun message frame => encodeFrame toVec message = .ok frame) messages frames →
        encodeFrame toVec last = .ok frame → tail <+: frame → tail ≠ frame →
        cut.flatten = frames.flatten ++ tail → pushAll fromSlice [] cut = (messages, none)) := by
  have hidle : nextFrame fromSlice [] = .incomplete := rfl
  refine ⟨fun stream => ⟨fun h messages frames rest hframes hbad hstream => ?_,
    fun h cut cut' hcut hcut' => ?_⟩, ?_⟩
  · cases hframes with
    | nil => rfl
    | @cons message frame messages frames hframe hframes =>
      -- the message is returned only if the stream is cut behind it
      subst hstream
      have hsame := h [frame ++ frames.flatten ++ rest] [frame, frames.flatten ++ rest]
        (by simp) (by simp)
      have hone := pushLoop_frames (.cons hframe .nil) []
      have hall := pushLoop_frames (.cons hframe hframes) rest
      obtain ⟨error, left, hrest⟩ := bad_iff.mp hbad
      rw [@pushLoop_eq _ _ rest, hrest] at hall
      rw [@pushLoop_eq _ _ [], hidle] at hone
      simp only [flatten_cons, flatten_nil, append_nil, append_assoc] at hone hall hsame
      rw [pushAll, pushAll, push, push, nil_append, nil_append, hone, hall] at hsame
      cases (Prod.mk.inj hsame).1
  · have hclean : (pushLoop fromSlice stream).2.1 = none ∨ (pushLoop fromSlice stream).1 = [] := by
      refine or_iff_not_imp_left.mpr fun herror => ?_
      obtain ⟨frames, rest, hframes, hbad, hstream⟩ := exists_bad herror
      rw [h _ frames rest hframes hbad hstream] at hframes
      exact forall₂_nil_right_iff.mp hframes
    obtain ⟨herror, hmessages⟩ := pushAll_eq hidle (congrArg _ hcut)
    obtain ⟨herror', hmessages'⟩ := pushAll_eq hidle (congrArg _ hcut')
    exact Prod.ext ((hmessages hclean).trans (hmessages' hclean).symm) (herror.trans herror'.symm)
  · intro hround messages frames last frame tail cut hframes hlast hprefix hne hcut
    have htail : nextFrame fromSlice tail = .incomplete := by
      by_contra hfound
      obtain ⟨more, rfl⟩ := hprefix
      have hread := nextFrame_append more rfl hfound
      have hwhole := (carries_encodeFrame (hround _) hlast).nextFrame []
      rw [append_nil, hread] at hwhole
      cases h : nextFrame fromSlice tail with
      | incomplete => exact hfound h
      | bad => rw [h] at hwhole; cases hwhole
      | message m rest =>
        rw [h] at hwhole
        have hnil := (Found.message.inj hwhole).2
        exact hne (by rw [(append_eq_nil_iff.mp hnil).2, append_nil])
    have hcarry : Forall₂ (Carries fromSlice) messages frames :=
      hframes.imp fun _ _ => carries_encodeFrame (hround _)
    have hdrain := pushLoop_frames hcarry tail
    rw [@pushLoop_eq _ _ tail, htail, append_nil] at hdrain
    obtain ⟨herror, hmessages⟩ := pushAll_eq hidle ((congrArg _ hcut).trans hdrain)
    exact Prod.ext (hmessages (.inl rfl)) herror

/-- The text of a digit is read. -/
def digit : List UInt8 → Option Nat
  | [b] => if 48 ≤ b ∧ b ≤ 57 then some (b.toNat - 48) else none
  | _ => none

def digitText (n : Nat) : Option (List UInt8) := if n < 10 then some [.ofNat (48 + n)] else none

theorem digit_digitText (n : Nat) (body : List UInt8) (h : digitText n = some body) :
    digit body = some n := by
  unfold digitText at h
  split_ifs at h with hn
  cases h
  revert n
  decide

theorem decoding_independent_of_cut_iff_digit :
    pushAll digit [] [[0, 0], [0, 1, 55, 0], [0]] = ([7], none) :=
  (decoding_independent_of_cut_iff digitText digit).2 digit_digitText [7] [[0, 0, 0, 1, 55]] 7
    [0, 0, 0, 1, 55] [0, 0] _ (.cons rfl .nil) rfl ⟨[0, 1, 55], rfl⟩ (by decide) rfl

/-- A message and a bad frame, in one chunk and in two. -/
theorem message_lost :
    pushAll digit [] [[0, 0, 0, 1, 55, 0, 0, 0, 1, 120]] = ([], some .json) ∧
      pushAll digit [] [[0, 0, 0, 1, 55], [0, 0, 0, 1, 120]] = ([7], some .json) := by
  have hnil : pushLoop digit [] = ([], none, []) := pushLoop_eq
  have hbad : pushLoop digit [0, 0, 0, 1, 120] = ([], some .json, []) := by
    rw [pushLoop_eq]
    simp [nextFrame, fromBeBytes, maxFrameBytes, digit]
  have hframe : Forall₂ (Carries digit) [7] [[0, 0, 0, 1, 55]] :=
    .cons (carries_encodeFrame (digit_digitText 7) rfl) .nil
  have hgood : ∀ rest, pushLoop digit ([0, 0, 0, 1, 55] ++ rest) =
      (7 :: (pushLoop digit rest).1, (pushLoop digit rest).2) := pushLoop_frames hframe
  have hone : pushLoop digit [0, 0, 0, 1, 55] = ([7], none, []) := (hgood []).trans (by rw [hnil])
  have hboth : pushLoop digit [0, 0, 0, 1, 55, 0, 0, 0, 1, 120] = ([7], some .json, []) :=
    (hgood _).trans (by rw [hbad])
  simp [pushAll, push, hbad, hone, hboth]

end Piqae.Executor
