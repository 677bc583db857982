/-
  Subject:   Usage of an event stream (src/worker/token-usage.ts, `createSseUsageInspector`), and that
             it does not depend on how the network cut the stream.

  * **`usage_of_bytes`**: two ways to cut the same bytes give the same.
-/
import ClawRouter.Inspect.Accumulator
import ClawRouter.Inspect.SseFrames

namespace ClawRouter.Inspect

open Utf16 Js Chunked

/-! ## 1. The inspector -/

/-- What an inspector is made with: `JSON.parse`, the context, and which callbacks there are. -/
structure Inspection where
  parse : Text → Option Value
  context : Option UsageTokenContext
  revokes : Bool
  accepts : Bool

/-- A call of `acceptJson`: a document, or that there was none to accept. -/
inductive Accepted
  | value (value : Value)
  | failed

/-- The inspection of a stream. -/
structure Inspector where
  frames : Frames
  accumulator : Accumulator
  /-- The calls of `acceptJson`. -/
  accepted : List Accepted

section Inspector

variable (c : Inspection)

def createSseUsageInspector : Inspector := ⟨createSseFrames, createSseUsageAccumulator c.revokes, []⟩

def isErrorLine (line : Text) : Bool := startsWith (text "event:") line && trim (line.drop 6) == text "error"

def evidence (frame : Option Text) : Option SseUsageEvidence :=
  match frame with
  | none => some .unavailable
  | some frame =>
    let lines := split 10 frame
    let data := join 10 ((lines.filter (startsWith (text "data:"))).map fun line => trim (line.drop 5))
    if lines.any isErrorLine then some (.error (c.parse data))
    else if data = [] then none
    else if data = text "[DONE]" then some .done
    else
      match c.parse data with
      | some value => some (.data value)
      | none => some .invalid

def acceptedOf : Option SseUsageEvidence → List Accepted
  | some (.data value) => if c.accepts then [.value value] else []
  | some (.error _) => if c.accepts then [.failed] else []
  | some .invalid => if c.accepts then [.failed] else []
  | some .unavailable => if c.accepts then [.failed] else []
  | some .done => []
  | none => []

/-- The accumulator and the calls, as the frames change them. -/
abbrev Sink := Accumulator × List Accepted

def consume (s : Sink) (frame : Option Text) : Sink :=
  let next := evidence c frame
  let accumulator := match next with
    | some next => s.1.accept c.context c.revokes next
    | none => s.1
  (accumulator, s.2 ++ acceptedOf c next)

namespace Inspector

/-- `push`: the framer consumes the chunk, and calls back with each frame it completes. -/
def push (s : Inspector) (bytes : List UInt8) : Inspector :=
  let (frames, completed) := s.frames.push false bytes
  let (accumulator, accepted) := completed.foldl (consume c) (s.accumulator, s.accepted)
  ⟨frames, accumulator, accepted⟩

/-- A line that is neither empty nor a comment. -/
def significant (line : Text) : Bool := trim line != [] && !startsWith (text ":") line

def finish (s : Inspector) : Inspector :=
  if !c.accepts then s
  else if s.frames.overflowed || (s.frames.pending false).any fun frame =>
    (split 10 frame).any significant then
    { s with accepted := s.accepted ++ [.failed] }
  else s

def result (s : Inspector) (ended : Bool) : UsageInspection × Inspector :=
  let accumulator :=
    if c.revokes then s.accumulator.unfinished c.context (evidence c (s.frames.pending false)) else
      s.accumulator
  let (inspection, accumulator) := accumulator.result ended s.frames.overflowed
  (inspection, { s with accumulator := accumulator })

end Inspector

/-! ## 2. Chunks -/

def inspect (chunks : List (List UInt8)) : Inspector :=
  chunks.foldl (Inspector.push c) (createSseUsageInspector c)

def delivered (chunks : List (List UInt8)) : List (Option Text) :=
  (pushAll (Frames.push false) createSseFrames chunks).2

theorem foldl_push (chunks : List (List UInt8)) (s : Inspector) : chunks.foldl (Inspector.push c) s =
      let r := pushAll (Frames.push false) s.frames chunks
      let sink := r.2.foldl (consume c) (s.accumulator, s.accepted)
      ⟨r.1, sink.1, sink.2⟩ := by
  induction chunks generalizing s with
  | nil => rfl
  | cons chunk rest ih =>
    rw [List.foldl_cons, ih]
    simp only [pushAll, List.foldl_append]
    rfl

theorem inspect_eq (chunks : List (List UInt8)) : inspect c chunks =
      let sink := (delivered chunks).foldl (consume c) (createSseUsageAccumulator c.revokes, [])
      ⟨(pushAll (Frames.push false) createSseFrames chunks).1, sink.1, sink.2⟩ :=
  foldl_push c chunks (createSseUsageInspector c)

/-- **Usage does not depend on network chunking.** Two ways to cut the same bytes deliver the same frames,
oversized ones included, leave the same pending frame and overflow flag, and so give the same tokens and
outcome, after the same calls of both callbacks, whether the stream ended or not. -/
theorem usage_of_bytes (xs ys : List (List UInt8)) (h : xs.flatten = ys.flatten) :
    delivered xs = delivered ys ∧
    (inspect c xs).frames.pending false = (inspect c ys).frames.pending false ∧
    (inspect c xs).frames.overflowed = (inspect c ys).frames.overflowed ∧
    (∀ ended, ((inspect c xs).result c ended).1 = ((inspect c ys).result c ended).1 ∧
      ((inspect c xs).result c ended).2.accumulator = ((inspect c ys).result c ended).2.accumulator) ∧
    (inspect c xs).accepted = (inspect c ys).accepted ∧
    ((inspect c xs).finish c).accepted = ((inspect c ys).finish c).accepted := by
  obtain ⟨hframes, hpending, hoverflowed⟩ := @frames_of_bytes false xs ys h
  have hdelivered : delivered xs = delivered ys := hframes
  have hp : (inspect c xs).frames.pending false = (inspect c ys).frames.pending false := by
    rw [inspect_eq, inspect_eq]
    exact hpending
  have ho : (inspect c xs).frames.overflowed = (inspect c ys).frames.overflowed := by
    rw [inspect_eq, inspect_eq]
    exact hoverflowed
  have hacc : (inspect c xs).accumulator = (inspect c ys).accumulator := by
    rw [inspect_eq, inspect_eq, hdelivered]
  have haccepted : (inspect c xs).accepted = (inspect c ys).accepted := by
    rw [inspect_eq, inspect_eq, hdelivered]
  refine ⟨hdelivered, hp, ho, fun ended => ?_, haccepted, ?_⟩
  · simp only [Inspector.result, hp, ho, hacc, and_self]
  · simp only [Inspector.finish, hp, ho]
    split
    · exact haccepted
    · split
      · exact congrArg (· ++ [Accepted.failed]) haccepted
      · exact haccepted

end Inspector

/-! ## 3. One stream -/

/-- `data: [DONE]` and an empty line, with the line ends of Windows. -/
def doneStream : List UInt8 :=
  [0x64, 0x61, 0x74, 0x61, 0x3a, 0x20, 0x5b, 0x44, 0x4f, 0x4e, 0x45, 0x5d, 13, 10, 13, 10]

def doneInspection : Inspection := ⟨fun _ => none, none, false, false⟩

/-- Cut between the halves of a line end, with an empty chunk, it gives the same frame. -/
theorem usage_of_bytes_crlf : delivered [doneStream.take 13, [], doneStream.drop 13] = delivered [doneStream] ∧
    delivered [doneStream] = [some (text "data: [DONE]\n")] ∧
    ((inspect doneInspection [doneStream.take 13, [], doneStream.drop 13]).result doneInspection true).1 =
      ((inspect doneInspection [doneStream]).result doneInspection true).1 := by
  obtain ⟨hframes, _, _, hresult, _⟩ :=
    usage_of_bytes doneInspection [doneStream.take 13, [], doneStream.drop 13] [doneStream] (by decide)
  exact ⟨hframes, by decide +kernel, (hresult true).1⟩

end ClawRouter.Inspect
