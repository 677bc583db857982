/-
  Subject:   The usage of a Bedrock event stream (src/worker/bedrock-eventstream.ts,
             `createBedrockEventStreamInspector`), and that it is that of its frames.

  The inspector copies what the network brings into a prelude of twelve bytes and then into a frame of
  the length the prelude names. A stream is also a list of frames, each decoded as a whole.

  * **`push_run`**: a push runs over the frames of what was held and what came;
  * **`metering_of_frames`**: the result is that of the frames of all bytes, however they were cut.
-/
import ClawRouter.Inspect.BedrockFrames
import ClawRouter.Inspect.SseUsage
import ClawRouter.Lib.Framed

namespace ClawRouter.Bedrock

open Utf16 Js Fallible Inspect

/-! ## 1. Payloads -/

def sextet (u : UInt16) : Option Nat :=
  let n := u.toNat
  if 0x41 ≤ n ∧ n ≤ 0x5a then some (n - 0x41)
  else if 0x61 ≤ n ∧ n ≤ 0x7a then some (n - 0x61 + 26)
  else if 0x30 ≤ n ∧ n ≤ 0x39 then some (n - 0x30 + 52)
  else if n = 0x2b then some 62
  else if n = 0x2f then some 63
  else none

/-- `/^[A-Za-z0-9+/]*={0,2}$/`, and a length that is a multiple of four. -/
def isBase64 (t : Text) : Bool :=
  let rest := t.dropWhile fun u => (sextet u).isSome
  t.length % 4 == 0 && (rest == [] || rest == text "=" || rest == text "==")

/-- The bytes of sextets; the bits that do not fill a byte are dropped. -/
def bytesOf : List Nat → Bytes
  | a :: b :: c :: d :: rest =>
    UInt8.ofNat (a * 4 + b / 16) :: UInt8.ofNat (b * 16 + c / 4) :: UInt8.ofNat (c * 64 + d) :: bytesOf rest
  | [a, b, c] => [UInt8.ofNat (a * 4 + b / 16), UInt8.ofNat (b * 16 + c / 4)]
  | [a, b] => [UInt8.ofNat (a * 4 + b / 16)]
  | _ => []

/-- `Uint8Array.from(atob(t), char => char.charCodeAt(0))`, of a text that `isBase64`. -/
def atob (t : Text) : Bytes := bytesOf (t.filterMap sextet)

example : atob (text "AQIDBA==") = [1, 2, 3, 4] := by decide

def novaUsage (usage : Option Members) : Option UsageTokens := do
  let number := fun (value : Option Value) =>
    match value with
    | some (.num n) => if isCount n then some n else none
    | _ => none
  let input ← number (usage.bind (get · "inputTokens"))
  let output ← number (usage.bind (get · "outputTokens"))
  let total ← number (usage.bind (get · "totalTokens"))
  if input.add output ≠ total then none
  else some {
    reasoning := none, webSearchRequests := none, serviceTier := none, anthropic := none
    input := some input, output := some output, total := some total
    cached := none, cacheWrite := none, cacheWrite5m := none, cacheWrite1h := none
    unbilled := false, billedTokens := none }

/-! ## 2. What the frames tell -/

/-- The variables of the closure apart from its buffers. -/
structure Handler where
  stopped : Bool
  failed : Bool
  novaSeen : Bool
  nova : Option UsageTokens
  messages : Accumulator

namespace Handler

def start : Handler := ⟨false, false, false, none, createSseUsageAccumulator false⟩

def invalid (s : Handler) : Handler := { s with stopped := true, failed := true, nova := none }

def leave (s : Handler) : Handler := { s with stopped := true, nova := none }

def accept (s : Handler) (value : Members) : Handler :=
  let s := if has value "metadata" then
      { s with
        novaSeen := true
        nova := novaUsage (record ((record (get value "metadata")).bind (get · "usage"))) }
    else s
  if (textOf (get value "type")).isSome then
    { s with messages := s.messages.accept none false (.data (.obj value)) }
  else s

section Parse

variable (parse : Text → Option Value)

/-- `object(JSON.parse(decoder.decode(bytes)))`, or that one of them threw. -/
def document (bytes : Bytes) : Option (Option Members) := do
  let decoded ← TextDecoder.decode true bytes
  let value ← parse decoded
  some (record (some value))

def consume (s : Handler) (frame : Bytes) : Handler :=
  match decodeBedrockEventFrame frame with
  | .error _ => s.invalid
  | .ok ⟨headers, envelopeBytes⟩ =>
    let messageType := headers.lookup (text ":message-type")
    if messageType = some (text "exception") ∨ messageType = some (text "error") then
      { s with failed := true }
    else if messageType ≠ some (text "event") ∨ headers.lookup (text ":event-type") ≠ some (text "chunk") then
      s.leave
    else
      match document parse envelopeBytes with
      | none => s.invalid
      | some envelope =>
        match textOf (envelope.bind (get · "bytes")) with
        | none => s.invalid
        | some encoded =>
          if !isBase64 encoded then s.invalid
          else
            match document parse (atob encoded) with
            | some (some value) => s.accept value
            | _ => s.invalid

end Parse

end Handler

/-! ## 3. Buffers -/

/-- How many of the bytes still fit a buffer of which `offset` bytes are filled. -/
def room (buffer : Bytes) (offset : Nat) (bytes : Bytes) : Nat := min (buffer.length - offset) bytes.length

def fill (buffer : Bytes) (offset : Nat) (bytes : Bytes) : Bytes :=
  setBytes buffer (bytes.take (room buffer offset bytes)) offset

def frameOf (length : Nat) (prelude : Bytes) : Bytes := setBytes (List.replicate length 0) prelude 0

variable {buffer bytes xs : Bytes}

theorem room_pos {offset : Nat} (hlt : offset < buffer.length) (hne : bytes ≠ []) :
    0 < room buffer offset bytes := by
  have := List.length_pos_iff.mpr hne
  unfold room
  omega

section Fill

variable {buffer : Bytes} {offset : Nat} (h : offset ≤ buffer.length) (bytes : Bytes)

include h

theorem room_fits : offset + (bytes.take (room buffer offset bytes)).length ≤ buffer.length := by
  unfold room
  rw [List.length_take]
  omega

theorem length_fill : (fill buffer offset bytes).length = buffer.length := length_setBytes (room_fits h bytes)

theorem room_le : offset + room buffer offset bytes ≤ buffer.length := by
  unfold room
  omega

theorem take_fill : (fill buffer offset bytes).take (offset + room buffer offset bytes) =
    buffer.take offset ++ bytes.take (room buffer offset bytes) := by
  have htake := take_setBytes (room_fits h bytes)
  have hroom : min (room buffer offset bytes) bytes.length = room buffer offset bytes :=
    Nat.min_eq_left (Nat.min_le_right _ _)
  rwa [List.length_take, hroom] at htake

theorem take_fill_append : (fill buffer offset bytes).take (offset + room buffer offset bytes) ++
    bytes.drop (room buffer offset bytes) = buffer.take offset ++ bytes := by
  rw [take_fill h, List.append_assoc, List.take_append_drop]

theorem take_fill_front {n : Nat} (hn : n ≤ offset) : (fill buffer offset bytes).take n = buffer.take n := by
  have htake := congrArg (List.take n) (take_fill h bytes)
  rwa [List.take_take, Nat.min_eq_left (by omega), List.take_append_of_le_length
    (by rw [List.length_take]; omega), List.take_take, Nat.min_eq_left hn] at htake

end Fill

section Frame

variable {length : Nat} {prelude : Bytes} (h : prelude.length ≤ length)

include h

theorem frameOf_fits : 0 + prelude.length ≤ (List.replicate length (0 : UInt8)).length := by
  rw [Nat.zero_add, List.length_replicate]
  exact h

theorem length_frameOf : (frameOf length prelude).length = length :=
  (length_setBytes (frameOf_fits h)).trans List.length_replicate

theorem take_frameOf : (frameOf length prelude).take prelude.length = prelude := by
  have htake := take_setBytes (frameOf_fits h)
  rwa [Nat.zero_add] at htake

end Frame

/-! ## 4. The inspector -/

/-- A frame that begins with a prelude, which names its length. -/
structure Begun (buffer : Bytes) (offset : Nat) : Prop where
  whole : 12 ≤ offset
  short : offset < buffer.length
  limit : buffer.length ≤ usageInspectionLimit
  named : ∃ p, eventPrelude (buffer.take 12) = .ok p ∧ p.length = buffer.length

/-- The prelude and the frame are buffers of their whole size, of which `offset` bytes are filled. -/
structure Inspector where
  handler : Handler
  prelude : Bytes
  frame : Option Bytes
  offset : Nat
  twelve : prelude.length = 12
  short : handler.stopped = false → frame = none → offset < 12
  begun : handler.stopped = false → ∀ buffer, frame = some buffer → Begun buffer offset

theorem Begun.fill {offset : Nat} (h : Begun buffer offset) (bytes : Bytes)
    (hne : offset + room buffer offset bytes ≠ (Bedrock.fill buffer offset bytes).length) :
    Begun (Bedrock.fill buffer offset bytes) (offset + room buffer offset bytes) := by
  have hle := h.short.le
  have hwhole := h.whole
  have hroom := room_le hle bytes
  have hlength := length_fill hle bytes
  refine ⟨by omega, by omega, hlength ▸ h.limit, ?_⟩
  rw [take_fill_front hle bytes hwhole, hlength]
  exact h.named

theorem Begun.start {prelude : Bytes} {p : Prelude} (htwelve : prelude.length = 12)
    (hp : eventPrelude prelude = .ok p) (hlimit : ¬ usageInspectionLimit < p.length) {offset : Nat}
    (hoffset : offset = 12) : Begun (frameOf p.length prelude) offset := by
  have hbegun := p.begun
  have hends := p.ends
  have hfits : prelude.length ≤ p.length := by omega
  have hlength := length_frameOf hfits
  have htake := take_frameOf hfits
  rw [htwelve] at htake
  refine ⟨by omega, by omega, by omega, p, ?_, hlength.symm⟩
  rw [htake]
  exact hp

namespace Inspector

def waiting (handler : Handler) (prelude : Bytes) (offset : Nat) (twelve : prelude.length = 12)
    (h : offset < 12) : Inspector := ⟨handler, prelude, none, offset, twelve, fun _ _ => h, nofun⟩

def halted (handler : Handler) (prelude : Bytes) (offset : Nat) (twelve : prelude.length = 12)
    (h : handler.stopped = true) : Inspector :=
  ⟨handler, prelude, none, offset, twelve, fun hs => absurd h (hs ▸ Bool.false_ne_true),
    fun hs => absurd h (hs ▸ Bool.false_ne_true)⟩

def assembling (handler : Handler) (prelude buffer : Bytes) (offset : Nat) (twelve : prelude.length = 12)
    (h : Begun buffer offset) : Inspector :=
  ⟨handler, prelude, some buffer, offset, twelve, nofun, fun _ _ hbuffer => Option.some.inj hbuffer ▸ h⟩

end Inspector

def createBedrockEventStreamInspector : Inspector :=
  .waiting .start (List.replicate 12 0) 0 List.length_replicate (by decide)

namespace Inspector

/-- The part of the loop that fills the prelude, and the bytes it leaves. -/
def takePrelude (s : Inspector) (h : s.offset < 12) (bytes : Bytes) : Inspector × Bytes :=
  let count := room s.prelude s.offset bytes
  let prelude := fill s.prelude s.offset bytes
  let offset := s.offset + count
  have hle : s.offset ≤ s.prelude.length := by rw [s.twelve]; exact h.le
  have htwelve : prelude.length = 12 := (length_fill hle bytes).trans s.twelve
  let next := if hshort : offset < 12 then waiting s.handler prelude offset htwelve hshort
    else
      match hp : eventPrelude prelude with
      | .error _ => halted s.handler.invalid prelude offset htwelve rfl
      | .ok p =>
        -- an inspection cap, not a wire limit
        if hlimit : usageInspectionLimit < p.length then halted s.handler.leave prelude offset htwelve rfl
        else
          have hoffset : offset = 12 := by have := room_le hle bytes; have := s.twelve; omega
          assembling s.handler prelude (frameOf p.length prelude) offset htwelve
            (.start htwelve hp hlimit hoffset)
  (next, bytes.drop count)

section Parse

variable (parse : Text → Option Value)

/-- The part that fills the frame, and hands over a complete one. -/
def takeFrame (s : Inspector) (buffer : Bytes) (h : Begun buffer s.offset) (bytes : Bytes) :
    Inspector × Bytes :=
  let count := room buffer s.offset bytes
  let frame := fill buffer s.offset bytes
  let next := if hne : s.offset + count = frame.length then
      waiting (s.handler.consume parse frame) s.prelude 0 s.twelve (by decide)
    else assembling s.handler s.prelude frame (s.offset + count) s.twelve (h.fill bytes hne)
  (next, bytes.drop count)

def turn (s : Inspector) (hs : s.handler.stopped = false) (bytes : Bytes) : Inspector × Bytes :=
  match hf : s.frame with
  | some buffer => s.takeFrame parse buffer (s.begun hs buffer hf) bytes
  | none =>
    let r := s.takePrelude (s.short hs hf) bytes
    if h : r.1.handler.stopped = false then
      match hb : r.1.frame with
      | some buffer => r.1.takeFrame parse buffer (r.1.begun h buffer hb) r.2
      | none => r
    else r

theorem drop_room_lt {offset : Nat} (hlt : offset < buffer.length)
    (hne : bytes ≠ []) : (bytes.drop (room buffer offset bytes)).length < bytes.length := by
  have hpos := room_pos hlt hne
  have := List.length_pos_iff.mpr hne
  rw [List.length_drop]
  omega

theorem takeFrame_le (s : Inspector) (buffer : Bytes) (h : Begun buffer s.offset) (bytes : Bytes) :
    (s.takeFrame parse buffer h bytes).2.length ≤ bytes.length := by
  show (bytes.drop _).length ≤ _
  rw [List.length_drop]
  omega

theorem turn_lt (s : Inspector) (hs : s.handler.stopped = false) (hne : bytes ≠ []) :
    (s.turn parse hs bytes).2.length < bytes.length := by
  unfold turn
  split
  · rename_i buffer hf
    exact drop_room_lt (s.begun hs buffer hf).short hne
  · rename_i hf
    have hprelude : (s.takePrelude (s.short hs hf) bytes).2.length < bytes.length :=
      drop_room_lt (by rw [s.twelve]; exact s.short hs hf) hne
    dsimp only
    split
    · split
      · exact Nat.lt_of_le_of_lt (takeFrame_le parse _ _ _ _) hprelude
      · exact hprelude
    · exact hprelude

def push (s : Inspector) (bytes : Bytes) : Inspector :=
  if h : bytes ≠ [] ∧ s.handler.stopped = false then
    let r := s.turn parse h.2 bytes
    push r.1 r.2
  else s
termination_by bytes.length
decreasing_by exact turn_lt parse s h.2 h.1

end Parse

end Inspector

/-- What is reported; `whole` says that no frame is incomplete. -/
def Handler.report (s : Handler) (ended whole : Bool) : UsageInspection :=
  let failure := if s.failed then some ResponseOutcome.providerError else none
  if s.stopped then ⟨none, failure⟩
  else if !ended then ⟨none, failure⟩
  else if !whole then ⟨none, some .providerError⟩
  else
    let message := (s.messages.result true false).1
    ⟨if s.novaSeen then s.nova else message.tokens,
      if s.failed then some .providerError else if s.novaSeen then some .success else message.outcome⟩

def Inspector.result (s : Inspector) (ended : Bool) : UsageInspection :=
  s.handler.report ended (s.offset == 0)

def inspect (parse : Text → Option Value) (chunks : List Bytes) : Inspector :=
  chunks.foldl (Inspector.push parse) createBedrockEventStreamInspector

/-! ## 5. The frames of a stream -/

/-- Why a stream is given up. -/
inductive Stop
  | invalid
  | oversized
  deriving DecidableEq

open Framed (Front Framing Sink)

def front (bytes : Bytes) : Front Stop :=
  if bytes.length < 12 then .short
  else
    match eventPrelude (bytes.take 12) with
    | .error _ => .broken .invalid
    | .ok p =>
      if usageInspectionLimit < p.length then .broken .oversized
      else if bytes.length < p.length then .short
      else .frame p.length

theorem take_twelve_append (h : ¬ xs.length < 12) (ys : Bytes) : (xs ++ ys).take 12 = xs.take 12 :=
  List.take_append_of_le_length (Nat.le_of_not_lt h)

theorem front_frame {size : Nat} (h : front xs = .frame size) :
    ¬ xs.length < 12 ∧ ∃ p, eventPrelude (xs.take 12) = .ok p ∧ ¬ usageInspectionLimit < p.length ∧
      p.length = size ∧ size ≤ xs.length := by
  unfold front at h
  split at h
  · cases h
  · rename_i hlt
    split at h
    · cases h
    · rename_i p hp
      split at h
      · cases h
      · rename_i hlimit
        split at h
        · cases h
        · rename_i hle
          cases h
          exact ⟨hlt, p, hp, hlimit, rfl, Nat.le_of_not_lt hle⟩

theorem front_of_frame {p : Prelude} (hlt : ¬ xs.length < 12) (hp : eventPrelude (xs.take 12) = .ok p)
    (hlimit : ¬ usageInspectionLimit < p.length) (hle : p.length ≤ xs.length) :
    front xs = .frame p.length := by
  unfold front
  rw [if_neg hlt, hp]
  dsimp only
  rw [if_neg hlimit, if_neg (Nat.not_lt.mpr hle)]

theorem front_of_invalid {e : Failure} (hlt : ¬ xs.length < 12)
    (hp : eventPrelude (xs.take 12) = .error e) : front xs = .broken .invalid := by
  unfold front
  rw [if_neg hlt, hp]

theorem front_of_oversized {p : Prelude} (hlt : ¬ xs.length < 12)
    (hp : eventPrelude (xs.take 12) = .ok p) (hlimit : usageInspectionLimit < p.length) :
    front xs = .broken .oversized := by
  unfold front
  rw [if_neg hlt, hp]
  exact if_pos hlimit

theorem front_broken_append {reason : Stop} (ys : Bytes) (h : front xs = .broken reason) :
    front (xs ++ ys) = .broken reason := by
  unfold front at h
  split at h
  · cases h
  · rename_i hlt
    have hlt' : ¬ (xs ++ ys).length < 12 := by
      rw [List.length_append]
      omega
    split at h
    · rename_i e he
      cases h
      exact front_of_invalid hlt' (by rw [take_twelve_append hlt]; exact he)
    · rename_i p hp
      split at h
      · rename_i hlimit
        cases h
        exact front_of_oversized hlt' (by rw [take_twelve_append hlt]; exact hp) hlimit
      · split at h <;> cases h

def framing : Framing UInt8 Stop where
  front :=
  front
  fits := by
    intro xs size h
    obtain ⟨_, p, _, _, hsize, hle⟩ := front_frame h
    have := p.ends
    exact ⟨by omega, hle⟩
  frame_append := by
    intro xs size ys h
    obtain ⟨hlt, p, hp, hlimit, hsize, hle⟩ := front_frame h
    have hlong : size ≤ (xs ++ ys).length := by
      rw [List.length_append]
      omega
    have hp' : eventPrelude ((xs ++ ys).take 12) = .ok p := by
      rw [take_twelve_append hlt]
      exact hp
    have := front_of_frame (by rw [List.length_append]; omega) hp' hlimit (by omega)
    rw [this, hsize]
  broken_append := front_broken_append

variable {r : Inspector × Bytes}

section Sink

variable (parse : Text → Option Value)

def Handler.refuse (s : Handler) : Stop → Handler
  | .invalid => s.invalid
  | .oversized => s.leave

def sink : Sink Handler UInt8 Stop where
  consume :=
  Handler.consume parse
  fail := Handler.refuse
  stopped := Handler.stopped
  fail_stops := by
    intro s reason
    cases reason <;> rfl

/-- The report of the frames of a stream: each is decoded as a whole, in order, until the first stop, and
bytes that are no complete frame are reported. -/
def framesResult (bytes : Bytes) (ended : Bool) : UsageInspection :=
  let (frames, rest, why) := Framed.split framing bytes
  let (handler, rest) := Framed.close (sink parse) (Framed.consumeAll (sink parse) .start frames) rest why
  handler.report ended rest.isEmpty

/-! ## 6. Turns and runs -/

def Inspector.held (s : Inspector) : Bytes := (s.frame.getD s.prelude).take s.offset

/-- What a turn makes of the bytes held and the bytes at hand is what the frames make of them. -/
def Follows (s : Inspector) (bytes : Bytes) (r : Inspector × Bytes) : Prop :=
  Framed.run framing (sink parse) s.handler (s.held ++ bytes) =
    Framed.run framing (sink parse) r.1.handler (r.1.held ++ r.2)

section Follows

variable {parse} {s : Inspector} {bytes : Bytes}

theorem Follows.held (hhandler : r.1.handler = s.handler)
    (hheld : r.1.held ++ r.2 = s.held ++ bytes) : Follows parse s bytes r := by
  unfold Follows
  rw [hhandler, hheld]

section

variable (hs : s.handler.stopped = false)
include hs

theorem Follows.refused {reason : Stop}
    (hfront : front (s.held ++ bytes) = .broken reason) (hhandler : r.1.handler = s.handler.refuse reason) :
    Follows parse s bytes r := by
  unfold Follows
  rw [Framed.run_broken framing (sink parse) hs hfront, hhandler]
  exact (Framed.run_stopped framing (sink parse) ((sink parse).fail_stops s.handler reason)).symm

theorem Follows.consumed {size : Nat} (hfront : front (s.held ++ bytes) = .frame size)
    (hhandler : r.1.handler = s.handler.consume parse ((s.held ++ bytes).take size))
    (hheld : r.1.held ++ r.2 = (s.held ++ bytes).drop size) : Follows parse s bytes r := by
  unfold Follows
  rw [Framed.run_frame framing (sink parse) hs hfront, hhandler, hheld]
  rfl

theorem takePrelude_follows (hf : s.frame = none) :
    Follows parse s bytes (s.takePrelude (s.short hs hf) bytes) := by
  have hle : s.offset ≤ s.prelude.length := by
    rw [s.twelve]
    exact (s.short hs hf).le
  have hheld : s.held = s.prelude.take s.offset := by
    unfold Inspector.held
    rw [hf]
    rfl
  have hsame := take_fill_append hle bytes
  have hlength := (length_fill hle bytes).trans s.twelve
  have hroom := room_le hle bytes
  rw [s.twelve] at hroom
  unfold Inspector.takePrelude
  dsimp only
  split
  · refine .held rfl ?_
    rw [hheld]
    exact hsame
  · rename_i hlong
    -- the prelude is complete: it is what the bytes begin with
    have hfull : s.offset + room s.prelude s.offset bytes = 12 := by omega
    have hprelude :
    fill s.prelude s.offset bytes ++ bytes.drop (room s.prelude s.offset bytes) = s.held ++ bytes := by
      rw [hheld, ← hsame, hfull, ← hlength, List.take_length]
    have htake : (s.held ++ bytes).take 12 = fill s.prelude s.offset bytes := by
      rw [← hprelude, ← hlength, List.take_left]
    have hmany : ¬ (s.held ++ bytes).length < 12 := by
      rw [← hprelude, List.length_append, hlength]
      omega
    split
    · rename_i e he
      exact .refused hs (front_of_invalid hmany (by rw [htake]; exact he)) rfl
    · rename_i p hp
      split
      · rename_i hlimit
        exact .refused hs (front_of_oversized hmany (by rw [htake]; exact hp) hlimit) rfl
      · refine .held rfl ?_
        have hbegun := p.begun
        have hends := p.ends
        have htaken := @take_frameOf p.length (fill s.prelude s.offset bytes) (by omega)
        show (frameOf p.length (fill s.prelude s.offset bytes)).take
          (s.offset + room s.prelude s.offset bytes) ++
          bytes.drop (room s.prelude s.offset bytes) = s.held ++ bytes
        rw [← hprelude, hfull, ← hlength, htaken]

theorem takeFrame_follows (hf : s.frame = some buffer)
    (h : Begun buffer s.offset) : Follows parse s bytes (s.takeFrame parse buffer h bytes) := by
  have hle := h.short.le
  have hheld : s.held = buffer.take s.offset := by
    unfold Inspector.held
    rw [hf]
    rfl
  have hsame := take_fill_append hle bytes
  have hlength := length_fill hle bytes
  unfold Inspector.takeFrame
  dsimp only
  split
  · rename_i hfull
    -- the frame is complete: it is what the bytes begin with, and its length is that of its prelude
    have hframe : fill buffer s.offset bytes ++ bytes.drop (room buffer s.offset bytes) = s.held ++
      bytes := by
      rw [hheld, ← hsame, hfull, List.take_length]
    have htake : (s.held ++ bytes).take buffer.length = fill buffer s.offset bytes := by
      rw [← hframe, ← hlength, List.take_left]
    obtain ⟨p, hp, hsize⟩ := h.named
    have hmany : buffer.length ≤ (s.held ++ bytes).length := by
      rw [← hframe, List.length_append, hlength]
      omega
    have htwelve := h.whole
    have hshort := h.short
    have hp' : eventPrelude ((s.held ++ bytes).take 12) = .ok p := by
      rw [← hp, ← take_fill_front hle bytes htwelve, ← htake, List.take_take, Nat.min_eq_left (by omega)]
    have hfront : front (s.held ++ bytes) = .frame buffer.length := by
      have := h.limit
      have hnamed := @front_of_frame (s.held ++ bytes) p (by omega) hp' (by omega) (by omega)
      rw [hnamed, hsize]
    refine .consumed hs hfront (by rw [htake]; rfl) ?_
    rw [← hframe, ← hlength, List.drop_left]
    rfl
  · refine .held rfl ?_
    rw [hheld]
    exact hsame

end

theorem Follows.trans {t : Inspector × Bytes} (h : Follows parse s bytes r) (h' : Follows parse r.1 r.2 t) :
    Follows parse s bytes t := Eq.trans h h'

theorem turn_follows (hs : s.handler.stopped = false) : Follows parse s bytes (s.turn parse hs bytes) := by
  unfold Inspector.turn
  split
  · rename_i buffer hf
    exact takeFrame_follows hs hf _
  · rename_i hf
    have hprelude : Follows parse s bytes (s.takePrelude (s.short hs hf) bytes) := takePrelude_follows hs hf
    dsimp only
    split
    · rename_i h
      split
      · rename_i buffer hb
        exact hprelude.trans (takeFrame_follows h hb _)
      · exact hprelude
    · exact hprelude

end Follows

theorem front_held (s : Inspector) (hs : s.handler.stopped = false) : front s.held = .short := by
  cases hf : s.frame with
  | none =>
    have hshort := s.short hs hf
    have hlength : s.held.length < 12 := by
      unfold Inspector.held
      rw [List.length_take]
      omega
    exact if_pos hlength
  | some buffer =>
    have hbegun := s.begun hs buffer hf
    have hwhole := hbegun.whole
    have hshort := hbegun.short
    have hlimit := hbegun.limit
    obtain ⟨p, hp, hsize⟩ := hbegun.named
    have hheld : s.held = buffer.take s.offset := by
      unfold Inspector.held
      rw [hf]
      rfl
    have hlength : s.held.length = s.offset := by
      rw [hheld, List.length_take]
      omega
    have htake : s.held.take 12 = buffer.take 12 := by
      rw [hheld, List.take_take, Nat.min_eq_left hwhole]
    unfold front
    rw [if_neg (by omega), htake, hp]
    dsimp only
    rw [if_neg (by omega), if_pos (by omega)]

/-- What an inspector has come to: its handler, and the bytes that are no frame yet. -/
def Inspector.reached (s : Inspector) : Handler × Bytes :=
  (s.handler, if s.handler.stopped then [] else s.held)

/-- **A push runs over the frames of what was held and what came.** -/
theorem push_run (s : Inspector) (bytes : Bytes) :
    (s.push parse bytes).reached = Framed.run framing (sink parse) s.handler (s.held ++ bytes) := by
  by_cases h : bytes ≠ [] ∧ s.handler.stopped = false
  · rw [Inspector.push, dif_pos h]
    rw [push_run]
    exact (turn_follows h.2).symm
  · rw [Inspector.push, dif_neg h]
    unfold Inspector.reached
    cases hs : s.handler.stopped with
    | true => exact (Framed.run_stopped framing (sink parse) hs).symm
    | false =>
      have hnil : bytes = [] := by
        by_contra hne
        exact h ⟨hne, hs⟩
      rw [hnil, List.append_nil]
      exact (Framed.run_short framing (sink parse) hs (front_held s hs)).symm
termination_by bytes.length
decreasing_by exact Inspector.turn_lt parse s h.2 h.1

theorem pushes_run (s : Inspector) (chunks : List Bytes) : (chunks.foldl (Inspector.push parse) s).reached =
      Framed.run framing (sink parse) s.handler (s.held ++ chunks.flatten) := by
  induction chunks generalizing s with
  | nil =>
    have hpush := push_run parse s []
    rw [Inspector.push, dif_neg fun h => h.1 rfl] at hpush
    exact hpush
  | cons chunk rest ih =>
    rw [List.foldl_cons, ih, List.flatten_cons, ← List.append_assoc,
      Framed.run_append framing (sink parse) s.handler (s.held ++ chunk), ← push_run parse s chunk]
    unfold Inspector.reached
    cases hs : (s.push parse chunk).handler.stopped with
    | true => rw [Framed.run_stopped framing (sink parse) hs, Framed.run_stopped framing (sink parse) hs]
    | false => rfl

theorem result_reached (s : Inspector) (ended : Bool) :
    s.result ended = s.reached.1.report ended s.reached.2.isEmpty := by
  unfold Inspector.result Inspector.reached
  cases hs : s.handler.stopped with
  | true =>
    unfold Handler.report
    rw [hs]
    rfl
  | false =>
    have hwhole : (s.offset == 0) = s.held.isEmpty := by
      have hlt : s.offset < (s.frame.getD s.prelude).length := by
        cases hf : s.frame with
        | none =>
          have hshort := s.short hs hf
          rw [← s.twelve] at hshort
          exact hshort
        | some buffer => exact (s.begun hs buffer hf).short
      have hlength : s.held.length = s.offset := by
        unfold Inspector.held
        rw [List.length_take]
        omega
      rw [← hlength]
      cases s.held <;> rfl
    rw [hwhole]
    rfl

theorem framesResult_run (bytes : Bytes) (ended : Bool) : framesResult parse bytes ended =
      (Framed.run framing (sink parse) .start bytes).1.report ended
        (Framed.run framing (sink parse) .start bytes).2.isEmpty := by
  rw [Framed.run_split]
  rfl

theorem inspect_result (chunks : List Bytes) (ended : Bool) :
    (inspect parse chunks).result ended = framesResult parse chunks.flatten ended := by
  rw [result_reached, framesResult_run]
  unfold inspect
  rw [pushes_run]
  rfl

end Sink

/-- **Metering is whole-frame decoding.** For every cut of a stream the inspector reports what decoding its
complete frames in order until the first stop reports, with a provider error where bytes remain; so no cut
changes the tokens or the outcome. Both checksums of a frame that is accepted match, and its headers end
exactly where its prelude says; whatever a frame is, no byte outside of it is read. -/
theorem metering_of_frames (parse : Text → Option Value) :
    (∀ chunks ended, (inspect parse chunks).result ended = framesResult parse chunks.flatten ended) ∧
    (∀ xs ys : List Bytes, xs.flatten = ys.flatten →
      ∀ ended, (inspect parse xs).result ended = (inspect parse ys).result ended) ∧
    (∀ frame d, decodeBedrockEventFrame frame = .ok d → Accepted frame d) ∧
    ∀ frame, Inside (decodeBedrockEventFrame frame) := by
  refine ⟨inspect_result parse, fun xs ys h ended => ?_, fun _ _ => decode_accepted, decode_inside⟩
  rw [inspect_result, inspect_result, h]

/-- A frame of no payload, with `:message-type` as its only header. -/
def exceptionFrame : Bytes :=
  [0x00, 0x00, 0x00, 0x2a, 0x00, 0x00, 0x00, 0x1a, 0x13, 0x31, 0x11, 0xb6, 0x0d, 0x3a, 0x6d, 0x65,
    0x73, 0x73, 0x61, 0x67, 0x65, 0x2d, 0x74, 0x79, 0x70, 0x65, 0x07, 0x00, 0x09, 0x65, 0x78, 0x63,
    0x65, 0x70, 0x74, 0x69, 0x6f, 0x6e, 0x24, 0xd6, 0xac, 0xed]

/-- It is accepted, and cut inside its prelude and inside its header it is the failure that it is as
    a whole. -/
theorem metering_of_frames_exception :
    Accepted exceptionFrame ⟨[(text ":message-type", text "exception")], []⟩ ∧
    (inspect (fun _ => none) [exceptionFrame.take 7, [], exceptionFrame.drop 7]).result true =
      (inspect (fun _ => none) [exceptionFrame]).result true := by
  obtain ⟨_, hcut, haccepted, _⟩ := metering_of_frames fun _ => none
  exact ⟨haccepted _ _ (by decide +kernel), hcut _ _ (by decide) true⟩

end ClawRouter.Bedrock
