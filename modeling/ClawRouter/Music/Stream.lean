/-
  Subject:   The state of a music stream (`MusicState` of src/worker/openrouter-music.ts), which either
             retains the audio and the transcript or only inspects them.

  Every payload goes through the same checks. What is retained is checked at the end, as a whole; what is
  inspected is checked as it comes, and a fault is found with the payload that brings it.

  * `result`, `inspection`: what the two come to.
-/
import ClawRouter.Inspect.ResponsesUsage
import ClawRouter.Lib.Coupled
import ClawRouter.Music.Base64

namespace ClawRouter.Music

open Utf16 Js Commands Commands.Command
open Base64 (sextet atob)
open Inspect (Token Tokenizer mergeChunks)

/-! ## 1. Limits -/

def maxAudio : Nat := 16 * 1024 * 1024

def maxTranscript : Nat := 1024 * 1024

def maxFrame : Nat := 2 * 1024 * 1024

/-- The format of the audio. -/
inductive MusicFormat
  | mp3
  | wav
  deriving DecidableEq

/-- What a stream is read with: the model and the format of its request, and the functions of the
    platform and of the tokenizer. -/
structure MusicContext where
  parse : Text → Option Value
  stringify : Value → Text
  tokenizer : Tokenizer
  model : Text
  format : MusicFormat

/-! ## 2. The length of a text in UTF-8 -/

def stringChunk : Nat := 4096

def scratchBytes : Nat := 3 * (6 * stringChunk + 2)

/-- `utf8Length` of src/worker/json-body.ts: the text goes piece by piece through a buffer. -/
def utf8Length (t : Text) : Nat :=
  if t.length ≤ stringChunk then (encodeInto t scratchBytes).length
  else ((pieces stringChunk (by decide) t).map fun piece => (encodeInto piece scratchBytes).length).sum

theorem encodeInto_scratch {t : Text} (h : t.length ≤ stringChunk) : encodeInto t scratchBytes = encode t := by
  refine encodeInto_eq ?_
  have hle := encode_length_le t
  unfold scratchBytes
  omega

theorem utf8Length_eq (t : Text) : utf8Length t = (encode t).length := by
  unfold utf8Length
  split
  · rename_i hshort
    rw [encodeInto_scratch hshort]
  · have hpieces : ∀ piece ∈ pieces stringChunk (by decide) t,
        (encodeInto piece scratchBytes).length = (encode piece).length := fun piece hpiece => by
      rw [encodeInto_scratch (length_le_of_mem_pieces hpiece)]
    rw [List.map_congr_left hpieces, ← List.length_flatMap]
    exact congrArg List.length (flatMap_points_pieces Point.utf8 stringChunk (by decide) t)

/-! ## 3. The structure of a document -/

/-- The variables of `inspectStructure`; the top of the stack is first, an object or not, with a count. -/
structure Structure where
  stack : List (Bool × Nat)
  nodes : Nat
  properties : Nat
  units : Nat
  scalar : Nat
  key : Bool
  number : Bool

def Structure.fresh : Structure := ⟨[], 0, 0, 0, 0, false, false⟩

def Structure.node (s : Structure) : Option Structure :=
  if 4096 < s.nodes + 1 then none
  else
    let s := { s with nodes := s.nodes + 1 }
    match s.stack with
    | (false, count) :: rest =>
      if 4096 < count + 1 then none else some { s with stack := (false, count + 1) :: rest }
    | _ => some s

def Structure.enter (s : Structure) (object : Bool) : Option Structure := do
  let s ← s.node
  if 32 ≤ s.stack.length then none else some { s with stack := (object, 0) :: s.stack }

def Structure.chunk (s : Structure) (value : Text) : Option Structure :=
  let s := { s with scalar := s.scalar + value.length, units := s.units + value.length }
  if maxFrame < s.units ∨ s.key ∧ 256 < s.scalar ∨ s.number ∧ 128 < s.scalar then none else some s

def Structure.accept (s : Structure) : Token → Option Structure
  | .startObject => s.enter true
  | .startArray => s.enter false
  | .endObject => some { s with stack := s.stack.tail }
  | .endArray => some { s with stack := s.stack.tail }
  | .startKey => some { s with key := true, number := false, scalar := 0 }
  | .startString => { s with key := false, number := false, scalar := 0 }.node
  | .startNumber => { s with key := false, number := true, scalar := 0 }.node
  | .stringChunk value => s.chunk value
  | .numberChunk value => s.chunk value
  | .endKey =>
    match s.stack with
    | (true, count) :: rest =>
      if 128 < count + 1 ∨ 4096 < s.properties + 1 then none
      else some { s with
        stack := (true, count + 1) :: rest, properties := s.properties + 1, key := false }
    | _ => none
  | .nullValue => s.node
  | .trueValue => s.node
  | .falseValue => s.node
  | .endString => some s
  | .endNumber => some s

/-- One feed of the tokenizer, with its tokens. -/
def feedStructure (T : Tokenizer) (s : T.State × Structure) (input : Option Text) :
    Option (T.State × Structure) := do
  let (state, tokens) ← T.step s.1 input
  let found ← (mergeChunks tokens).foldlM Structure.accept s.2
  return (state, found)

def inspectStructure (T : Tokenizer) (data : Text) : Bool :=
  ((data.toChunks 1024).foldlM (fun s slice => feedStructure T s (some slice))
    (T.start, Structure.fresh) >>= (feedStructure T · none)).isSome

/-! ## 4. The state -/

/-- The scalar fields, the same in both ways of reading. -/
structure Evidence where
  audioCharacters : Nat
  transcriptBytes : Nat
  frames : Nat
  usage : Option Members
  responseId : Option Text
  stopped : Bool
  done : Bool
  failed : Bool

/-- What a stream has shown. -/
structure MusicState where
  evidence : Evidence
  audioBase64 : Text
  audioCounter : Base64Counter
  transcript : Text
  transcriptHigh : Bool

def MusicState.fresh : MusicState := ⟨⟨0, 0, 0, none, none, false, false, false⟩, [], .fresh, [], false⟩

/-- `new Error("invalid_openrouter_music_" + reason)`. -/
abbrev Reason := String

variable {σ : Type}

def demand (condition : Bool) (reason : Reason) : Command σ Reason PUnit :=
  if condition then pure ⟨⟩ else fail reason

def object (value : Option Value) : Command σ Reason Members :=
  match record value with
  | some members => pure members
  | none => fail "object"

/-- What a payload adds: the audio of its delta, and whether it is the last one. -/
structure Delta where
  audio : Option Value
  stops : Bool

section Head

variable (c : MusicContext)

def isIdUnit (first : Bool) (u : UInt16) : Bool :=
  let n := u.toNat
  48 ≤ n && n ≤ 57 || 65 ≤ n && n ≤ 90 || 97 ≤ n && n ≤ 122 || !first && (n = 45 || n = 95)

def isResponseId : Text → Bool
  | [] => false
  | u :: rest => isIdUnit true u && rest.length ≤ 255 && rest.all (isIdUnit false)

def acceptIdentity (frame : Members) : Command Evidence Reason PUnit :=
  match get frame "id" with
  | none => pure ⟨⟩
  | some value => do
    let e ← query id
    match textOf (some value) with
    | none => fail "identity"
    | some found => do
      demand (isResponseId found && e.responseId.all (· == found)) "identity"
      update fun e => { e with responseId := some found }

/-- A cost is missing, null or a number that is finite and not negative. -/
def isCost : Option Value → Bool
  | none => true
  | some .null => true
  | some (.num (.finite q)) => 0 ≤ q
  | _ => false

def acceptUsage (frame : Members) : Command Evidence Reason PUnit :=
  match nullish (get frame "usage") with
  | none => pure ⟨⟩
  | some value => do
    let usage ← object (some value)
    demand ((encode (c.stringify (.obj usage))).length ≤ 65536 && isCost (get usage "cost")) "usage"
    update fun e => { e with usage := some usage }

def isZero : Value → Bool
  | .num n => n == .finite 0
  | _ => false

/-- The delta of the only choice; none where there is no choice. -/
def readDelta (frame : Members) : Command Evidence Reason (Option Delta) :=
  match get frame "choices" with
  | some (.arr []) => do
    demand (nullish (get frame "usage")).isSome "empty_frame"
    return none
  | some (.arr [item]) => do
    let choice ← object (some item)
    let finish := nullish (get choice "finish_reason")
    demand ((get choice "index").all isZero && finish.all fun _ => isText finish "stop") "finish_reason"
    let delta ← object (get choice "delta")
    demand (!has delta "tool_calls" && !has delta "function_call" && (nullish (get delta "refusal")).isNone)
      "unexpected_output"
    return some ⟨nullish (get delta "audio"), finish.isSome⟩
  | _ => fail "choices"

/-- `encoder.encode(text).length` where the text is retained, and `utf8Length(text)` otherwise. -/
def byteLength (retain : Bool) (t : Text) : Nat := if retain then (encode t).length else utf8Length t

def acceptHead (retain : Bool) (data : Text) : Command Evidence Reason (Option Delta) := do
  let e ← query id
  demand (!e.failed && !e.done) "state"
  update fun e => { e with frames := e.frames + 1 }
  demand (e.frames + 1 ≤ 8192 && data.length ≤ maxFrame && byteLength retain data ≤ maxFrame) "state"
  if data = text "[DONE]" then do
    update fun e => { e with done := true }
    return none
  else do
    demand (retain || inspectStructure c.tokenizer data) "structure"
    let frame ← object (c.parse data)
    let model := nullish (get frame "model")
    demand ((nullish (get frame "error")).isNone && model.all fun _ => textOf model == some c.model) "frame"
    acceptIdentity frame
    acceptUsage c frame
    readDelta frame

end Head

/-! ## 5. The delta -/

section Body

variable (c : MusicContext) (retain : Bool)

def isAudioUnit (u : UInt16) : Bool := (sextet u).isSome || u = 61

def acceptData (value : Value) : Command MusicState Reason PUnit :=
  match textOf (some value) with
  | none => fail "audio"
  | some data => do
    let s ← query id
    demand (data.all isAudioUnit && s.evidence.audioCharacters + data.length ≤ (maxAudio + 2) / 3 * 4) "audio"
    update fun s => { s with
      evidence := { s.evidence with audioCharacters := s.evidence.audioCharacters + data.length } }
    if retain then update fun s => { s with audioBase64 := s.audioBase64 ++ data }
    else
      match s.audioCounter.accept maxAudio false data with
      | some counter => update fun s => { s with audioCounter := counter }
      | none => fail "base64"

/-- A unit of the transcript, after the first half of a pair or not. -/
def scanUnit (high : Bool) (u : UInt16) : Option Bool :=
  if high then if isTrail u then some false else none
  else if isLead u then some true
  else if isTrail u then none
  else some false

def acceptTranscript (value : Value) : Command MusicState Reason PUnit :=
  match textOf (some value) with
  | none => fail "transcript"
  | some transcript => do
    let s ← query id
    update fun s => { s with
      evidence := { s.evidence with
        transcriptBytes := s.evidence.transcriptBytes + byteLength retain transcript } }
    demand (s.evidence.transcriptBytes + byteLength retain transcript ≤ maxTranscript) "transcript_limit"
    if retain then update fun s => { s with transcript := s.transcript ++ transcript }
    else
      match transcript.foldlM scanUnit s.transcriptHigh with
      | some high => update fun s => { s with transcriptHigh := high }
      | none => fail "transcript_unicode"

def acceptMember (member : Option Value) (take : Value → Command MusicState Reason PUnit) :
    Command MusicState Reason PUnit :=
  match member with
  | none => pure ⟨⟩
  | some value => take value

def acceptAudio (audio : Value) : Command MusicState Reason PUnit := do
  let s ← query id
  demand (!s.evidence.stopped) "after_stop"
  let audio ← object (some audio)
  acceptMember (get audio "data") (acceptData retain)
  acceptMember (get audio "transcript") (acceptTranscript retain)

def acceptDelta (delta : Delta) : Command MusicState Reason PUnit := do
  acceptMember delta.audio (acceptAudio retain)
  if delta.stops then update fun s => { s with evidence := { s.evidence with stopped := true } }
  else pure ⟨⟩

def onEvidence {α : Type} (command : Command Evidence Reason α) : Command MusicState Reason α :=
  fun s =>
  ((command s.evidence).1, { s with evidence := (command s.evidence).2 })

def acceptPayload (data : Text) : Command MusicState Reason PUnit := do
  let delta ← onEvidence (acceptHead c retain data)
  match delta with
  | none => pure ⟨⟩
  | some delta => acceptDelta retain delta

/-- `accept`: a fault of any kind is the fault of the frame, and the end of the stream. -/
def accept (data : Text) : Command MusicState Reason PUnit :=
  attempt (acceptPayload c retain data) fun _ => do
    update fun s => { s with evidence := { s.evidence with failed := true } }
    fail "frame"

/-- The state after all payloads, whether they threw or not. -/
def acceptAll (payloads : List Text) : MusicState :=
  payloads.foldl (fun s data => (accept c retain data s).2) .fresh

end Body

/-! ## 6. The end -/

/-- The result of a stream. -/
structure Observation where
  audio : List UInt8
  transcript : Text
  format : MusicFormat
  usage : Option Members
  responseId : Option Text

/-- The result without its texts. -/
structure Inspection where
  audioBytes : Nat
  transcriptBytes : Nat
  format : MusicFormat
  usage : Option Members
  responseId : Option Text

def result (c : MusicContext) (s : MusicState) : Except Reason Observation :=
  if s.evidence.failed || !s.evidence.done || s.audioBase64 = [] then .error "incomplete_audio"
  else if (points s.transcript).any isLone then .error "transcript_unicode"
  else
    match canonicalMediaBase64 s.audioBase64 maxAudio with
    | none => .error "base64"
    | some encoded =>
      match atob encoded.base64 with
      | none => .error "atob"
      | some audio => .ok ⟨audio, s.transcript, c.format, s.evidence.usage, s.evidence.responseId⟩

def inspection (c : MusicContext) (s : MusicState) : Except Reason Inspection :=
  if s.evidence.failed || !s.evidence.done || s.evidence.audioCharacters = 0 then
    .error "incomplete_audio"
  else if s.transcriptHigh then .error "transcript_unicode"
  else
    match s.audioCounter.result maxAudio with
    | none => .error "base64"
    | some audioBytes =>
      .ok ⟨audioBytes, s.evidence.transcriptBytes, c.format, s.evidence.usage, s.evidence.responseId⟩

end ClawRouter.Music
