/-
  Subject:   The event stream of a Copilot answer (`copilotInferenceResponse` of src/worker/copilot-inference-response.ts):
             frames taken from the reads, checked, revalidated and handed on in windows.

  One call of the consumer, one answer of the reader, of a revalidation or of the retirement is one event; between
  two of them the pull runs to where it waits. `inspect` is `inspectCopilotInferenceJson` and `JSON.parse` of a text.

  * `advance`: a pull until it waits or ends; `step`: one event.
-/
import ClawRouter.Lib.EventFrames
import ClawRouter.Lib.TextDecoder
import ClawRouter.Lib.Trace
import ClawRouter.Lib.Value

namespace ClawRouter.CopilotInference

open Utf16 Js EventFrames

def windowBytes : Nat := 16 * 1024

/-- The bytes of `buffer`, so the longest frame. -/
def frameBytes : Nat := 64 * 1024

def maximum : Nat := 32 * 1024 * 1024

def maximumReads : Nat := 8192

/-! ## 1. Bytes -/

/-- `buffer` up to `used`, and what is known of its last line. -/
structure Scan where
  buffer : Bytes
  lineSize : Nat
  skipLF : Bool
  boundaryCR : Bool
  deriving DecidableEq

def Scan.start : Scan := ⟨[], 0, false, false⟩

/-- One round of the loop: the byte at the front may be taken, and the frame may be complete. -/
def Scan.byte (s : Scan) (byte : UInt8) : Option (Scan × Bool × Bool) :=
  if s.boundaryCR then
    if byte = 10 then
      if s.buffer.length = frameBytes then none
      else some ({ s with buffer := s.buffer ++ [byte], boundaryCR := false, skipLF := false }, true, true)
    else some ({ s with boundaryCR := false, skipLF := false }, false, true)
  else if s.buffer.length = frameBytes then none
  else
    let buffer := s.buffer ++ [byte]
    if s.skipLF && byte == 10 then some ({ s with buffer, skipLF := false }, true, false)
    else if byte = 13 then some (⟨buffer, 0, true, s.lineSize == 0⟩, true, false)
    else if byte = 10 then some (⟨buffer, 0, false, false⟩, true, s.lineSize == 0)
    else some (⟨buffer, s.lineSize + 1, false, false⟩, true, false)

/-- The bytes at hand until a frame is complete: what is left of them, and whether it is. -/
def scan (s : Scan) : Bytes → Option (Scan × Bytes × Bool)
  | [] => some (s, [], false)
  | byte :: rest =>
    match s.byte byte with
    | none => none
    | some (s, taken, true) => some (s, if taken then rest else byte :: rest, true)
    | some (s, _, false) => scan s rest

/-! ## 2. Frames -/

def splitLines (line : Text) : Text → List Text
  | [] => [line]
  | 13 :: 10 :: rest => line :: splitLines [] rest
  | unit :: rest => if unit = 13 ∨ unit = 10 then line :: splitLines [] rest else splitLines (line ++ [unit]) rest

/-- `slice(5).replace(/^ /, "")` of the lines that begin with `data:`, joined. -/
def dataOf (text : Text) : Text :=
  let lines := (splitLines [] text).filter fun line => Js.text "data:" <+: line
  let data := lines.map fun line =>
    match line.drop 5 with
    | 32 :: rest => rest
    | rest => rest
  List.intercalate (Js.text "\n") data

def validateFrame (inspect : Text → Bool) (frame : Bytes) : Bool :=
  match TextDecoder.decode true frame with
  | none => false
  | some text =>
    let data := dataOf text
    data.isEmpty || data == Js.text "[DONE]" || inspect data

/-! ## 3. Pulls -/

/-- What the pull waits for, or how the stream ended. -/
inductive Phase
  | idle
  | reading
  | revalidating
  | retiring
  | finalRevalidating
  | closed
  | failed
  deriving DecidableEq

/-- What a response is expected to be. -/
structure Config where
  /-- What is thrown of the headers is thrown by the first pull. -/
  headerError : Bool
  /-- The declared length. -/
  expected : Option Nat
  inspect : Text → Bool

/-- The relay of one response. -/
structure State where
  scan : Scan
  offset : Nat
  frameReady : Bool
  pending : Bytes
  upstreamEOF : Bool
  size : Nat
  reads : Nat
  phase : Phase
  /-- What was enqueued. -/
  delivered : List Bytes
  deriving DecidableEq

def State.start : State := ⟨.start, 0, false, [], false, 0, 0, .idle, []⟩

def State.fail (s : State) : State := { s with phase := .failed }

def State.ended (s : State) : Bool := s.phase == .closed || s.phase == .failed

def deliver (s : State) : State :=
  let window := (s.scan.buffer.drop s.offset).take windowBytes
  let s := { s with delivered := s.delivered ++ [window], offset := s.offset + window.length, phase := .idle }
  if s.offset = s.scan.buffer.length then
    { s with scan := { s.scan with buffer := [] }, offset := 0, frameReady := false }
  else s

def validate (config : Config) (s : State) : State :=
  if validateFrame config.inspect s.scan.buffer then { s with phase := .revalidating } else s.fail

def finishBody (config : Config) (s : State) : State :=
  if s.scan.buffer.isEmpty && s.size != 0 && config.expected.all (· == s.size) then
    { s with phase := .retiring }
  else s.fail

def read (s : State) : State :=
  if maximumReads < s.reads + 1 then s.fail else { s with reads := s.reads + 1, phase := .reading }

def advance (config : Config) (s : State) : State :=
  if s.frameReady && s.offset < s.scan.buffer.length then deliver s
  else
    match scan s.scan s.pending with
    | none => s.fail
    | some (scan, pending, complete) =>
      let s := { s with scan, pending }
      if complete then validate config s
      else if s.upstreamEOF && s.scan.boundaryCR then
        validate config { s with scan := { s.scan with boundaryCR := false, skipLF := false } }
      else if s.upstreamEOF then finishBody config s
      else read s

/-- An event of the relay. -/
inductive Event
  | pull
  | read (value : Bytes)
  | readEnd (value : Bytes)
  | readFailed
  | revalidated (ok : Bool)
  | retired (ok : Bool)
  | abort
  | cancel
  deriving DecidableEq

/-- The value of a read is no longer than its buffer, the window that was given to it. -/
def takeRead (config : Config) (s : State) (value : Bytes) (done : Bool) : State :=
  if windowBytes < value.length ∨ maximum - s.size < value.length then s.fail
  else advance config { s with size := s.size + value.length, pending := value, upstreamEOF := done }

/-- One event. What comes after the end of the stream changes nothing. -/
def step (config : Config) (s : State) (event : Event) : Option State :=
  if s.ended then some s
  else
    match event, s.phase with
    | .pull, .idle => some (if config.headerError then s.fail else advance config s)
    | .read value, .reading => some (takeRead config s value false)
    | .readEnd value, .reading => some (takeRead config s value true)
    | .readFailed, .reading => some s.fail
    | .revalidated true, .revalidating => some (advance config { s with frameReady := true, offset := 0 })
    | .revalidated true, .finalRevalidating => some { s with phase := .closed }
    | .revalidated false, .revalidating => some s.fail
    | .revalidated false, .finalRevalidating => some s.fail
    | .retired true, .retiring => some { s with phase := .finalRevalidating }
    | .retired false, .retiring => some s.fail
    | .abort, _ => some s.fail
    | .cancel, _ => some s.fail
    | _, _ => none

abbrev Step (config : Config) (s : State) (event : Event) (s' : State) : Prop := step config s event = some s'

end ClawRouter.CopilotInference
