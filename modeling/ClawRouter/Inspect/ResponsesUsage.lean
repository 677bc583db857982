/-
  Subject:   What a Responses call used, from the bytes of its answer (src/worker/responses-usage.ts,
             `createResponsesUsageInspector`; src/worker/json-tokens.ts).

  The tokenizer is a parameter. Evidence for tools and receipts goes to other owners and is left out.

  * `Inspector`: the inspector, with `push`, `finish` and `result`.
-/
import ClawRouter.Inspect.Accumulator
import ClawRouter.Inspect.HostedUsage
import ClawRouter.Lib.TextDecoder

namespace ClawRouter.Inspect

open Utf16 Js

/-! ## 1. Documents -/

/-- The tokenizer stage: the tokens of a feed, none where it throws. The feed `none` ends the document. -/
structure Tokenizer where
  State : Type
  start : State
  step : State → Option Text → Option (State × List Token)

/-- What a document is evidence of. -/
inductive MetadataEvidence
  | data (value : Option Value)
  | invalid
  | unavailable

/-- Why there is no evidence. -/
inductive MetadataFailure
  | invalid
  | unavailable
  deriving DecidableEq

def MetadataFailure.evidence : MetadataFailure → MetadataEvidence
  | .invalid => .invalid
  | .unavailable => .unavailable

/-- `error instanceof InspectionLimit ? "unavailable" : "invalid"`. -/
def InspectionFailure.failure : InspectionFailure → MetadataFailure
  | .limit => .unavailable
  | .other => .invalid

/-- Which identities a document is inspected for. -/
structure Identities where
  inspectIdentity : Bool
  receipt : Bool

/-- The parser of one document. -/
structure MetadataParser (T : Tokenizer) where
  consume : Option T.State
  kept : Kept
  failure : Option MetadataFailure

namespace MetadataParser

variable {T : Tokenizer} (ids : Identities)

def fresh : MetadataParser T := ⟨some T.start, ⟨.fresh, .fresh⟩, none⟩

def cleared (kept : Kept) : Kept := ⟨.fresh, kept.tools.fail⟩

def failed (d : MetadataParser T) (failure : MetadataFailure) : MetadataParser T :=
  ⟨none, cleared d.kept, some failure⟩

/-- A feed of `createJsonTokenizer`: its tokens arrive merged, after all of it was tokenized. -/
def feed (d : MetadataParser T) (state : T.State) (input : Option Text) : MetadataParser T :=
  match T.step state input with
  | none => d.failed .invalid
  | some (state, tokens) =>
    match d.kept.acceptAll ids.inspectIdentity ids.receipt (mergeChunks tokens) with
    | .error error => d.failed error.failure
    | .ok kept => ⟨some state, kept, d.failure⟩

def push (d : MetadataParser T) (text : Text) : MetadataParser T :=
  match d.consume with
  | none => d
  | some state => if text = [] then d else d.feed ids state (some text)

def finish (d : MetadataParser T) : MetadataParser T :=
  match d.consume with
  | none => d
  | some state => { d.feed ids state none with consume := none }

def evidence (d : MetadataParser T) : MetadataEvidence :=
  match d.failure with
  | some failure => failure.evidence
  | none => .data d.kept.metadata.root

def unavailable (d : MetadataParser T) : Bool := d.failure = some .unavailable

def pending (d : MetadataParser T) : MetadataEvidence :=
  match d.failure with
  | some failure => failure.evidence
  | none => if d.kept.metadata.complete then .data d.kept.metadata.root else .unavailable

def tools (d : MetadataParser T) : Option Value := if d.failure.isSome then none else d.kept.tools.root

def stop (d : MetadataParser T) : MetadataParser T := { d with consume := none, kept := cleared d.kept }

end MetadataParser

/-! ## 2. Lines -/

/-- `literal`. A code point of two units is in none, and its first unit says so. -/
structure Literal where
  expected : Text
  trim : Bool
  offset : Nat
  valid : Bool
  deriving DecidableEq

def literal (expected : String) (trim : Bool) : Literal := ⟨text expected, trim, 0, true⟩

namespace Literal

def pushUnit (l : Literal) (u : UInt16) : Literal :=
  if !l.valid then l
  else if l.trim && isSpace u && (l.offset == 0 || l.offset == l.expected.length) then l
  else if l.expected[l.offset]? = some u then { l with offset := l.offset + 1 }
  else { l with valid := false }

def push (l : Literal) (t : Text) : Literal := t.foldl pushUnit l

def isComplete (l : Literal) : Bool := l.valid && l.offset == l.expected.length

end Literal

/-- `mode`; a line begins with the name of its field. -/
inductive Mode
  | field
  | data
  | event
  | ignored
  deriving DecidableEq

/-- The variables of the closure that read lines; `front` is what there is of the field's name. -/
structure Lines where
  front : Text
  mode : Mode
  lineNonempty : Bool
  optionalSpace : Bool
  skipLf : Bool
  hasData : Bool
  hasContent : Bool
  eventError : Bool
  eventName : Literal
  done : Literal
  deriving DecidableEq

/-- What is known of an event when an empty line ends it. -/
structure Boundary where
  eventError : Bool
  hasData : Bool
  hasContent : Bool
  done : Bool
  deriving DecidableEq

/-- What the lines do to the document: a text for it, or the end of its event. -/
inductive LineOp
  | data (text : Text)
  | boundary (boundary : Boundary)
  deriving DecidableEq

namespace Lines

def fresh : Lines :=
  ⟨[], .field, false, false, false, false, false, false, literal "error" false, literal "[DONE]" true⟩

/-- `data`, for the lines; the document gets the text. -/
def data (l : Lines) (t : Text) : Lines :=
  { l with done := l.done.push t, hasContent := l.hasContent || trim t != [] }

def beginData (l : Lines) : Lines × List Text :=
  if l.hasData then ({ l.data [10] with hasData := true }, [[10]]) else ({ l with hasData := true }, [])

/-- The loop of `line` over the name of a field, and the text after it. -/
def readField (l : Lines) : Text → Lines × List Text × Text
  | [] => (l, [], [])
  | char :: rest =>
    if l.mode ≠ .field then (l, [], char :: rest)
    else if char = 0x3a then
      if l.front = text "data" then
        let (l, texts) := { l with mode := .data, optionalSpace := true }.beginData
        (l, texts, rest)
      else if l.front = text "event" then
        ({ l with mode := .event, optionalSpace := true, eventName := literal "error" false }, [], rest)
      else ({ l with mode := .ignored, optionalSpace := true }, [], rest)
    else if l.front.length < 5 then { l with front := l.front ++ [char] }.readField rest
    else ({ l with mode := .ignored }, [], rest)

def readValue (l : Lines) (t : Text) : Lines × List Text :=
  match l.mode with
  | .data => (l.data t, [t])
  | .event => ({ l with eventName := l.eventName.push t }, [])
  | _ => (l, [])

def readSpace (l : Lines) (t : Text) : Lines × List Text :=
  match t with
  | char :: rest =>
    if l.optionalSpace then { l with optionalSpace := false }.readValue
      (if char = 0x20 then rest else char :: rest)
    else l.readValue (char :: rest)
  | [] => l.readValue []

def line (l : Lines) (t : Text) : Lines × List Text :=
  let (l, texts, rest) := { l with lineNonempty := l.lineNonempty || t != [] }.readField t
  let (l, more) := l.readSpace rest
  (l, texts ++ more)

def nextLine (l : Lines) : Lines :=
  { l with front := [], mode := .field, lineNonempty := false, optionalSpace := false }

def endLine (l : Lines) : Lines × List LineOp :=
  if !l.lineNonempty then
    ({ l with
        hasData := false, hasContent := false, eventError := false
        done := literal "[DONE]" true }.nextLine,
      [.boundary ⟨l.eventError, l.hasData, l.hasContent, l.done.isComplete⟩])
  else if l.mode = .field ∧ l.front = text "data" then
    let (l, texts) := l.beginData
    (l.nextLine, texts.map .data)
  else if l.mode = .event ∨ l.mode = .field ∧ l.front = text "event" then
    ({ l with eventError := l.mode == Mode.event && l.eventName.isComplete }.nextLine, [])
  else (l.nextLine, [])

def lineOps (l : Lines) (t : Text) : Lines × List LineOp :=
  let (l, texts) := l.line t
  (l, texts.map .data)

def isEnd (u : UInt16) : Bool := u == 10 || u == 13

/-- The loop of `text`; `segment` is the part of the line that was found so far. -/
def readFrom (l : Lines) (segment : Text) : Text → Lines × List LineOp
  | [] => if segment = [] then (l, []) else l.lineOps segment
  | u :: rest =>
    if l.skipLf && u == 10 then { l with skipLf := false }.readFrom [] rest
    else
      let l := { l with skipLf := false }
      if !isEnd u then l.readFrom (segment ++ [u]) rest
      else
        let (l, first) := l.lineOps segment
        let (l, second) := l.endLine
        let (l, later) := { l with skipLf := u == 13 }.readFrom [] rest
        (l, first ++ second ++ later)

end Lines

/-! ## 3. The inspector -/

/-- What is observed of a response. -/
structure ResponsesObservation where
  id : Text
  status : Text
  terminal : Bool
  tokens : Option UsageTokens
  deriving DecidableEq

def statuses : List String := ["queued", "in_progress", "completed", "incomplete", "failed", "cancelled"]

def responsesObservation (value : Option Value) : Option ResponsesObservation := do
  let root ← record value
  let event := ((textOf (get root "type")).filter (startsWith (text "response."))).bind fun type =>
    let event := type.drop 9
    if event = [] then none else some event
  let response ← if event.isSome then record (get root "response")
    else if isText (get root "object") "response" then some root else none
  let id ← textOf (get response "id")
  let status ← textOf (get response "status")
  if id = [] ∨ 256 < (encode id).length ∨ ¬oneOf statuses status = true then none
  else if event.any fun event => oneOf statuses event && event != status then none
  else some ⟨id, status, status != text "queued" && status != text "in_progress",
    extractUsageTokens (some (.obj root)) none⟩

/-- What is to be inspected. -/
structure ResponsesInspection where
  sse : Bool
  observes : Bool
  revokes : Bool
  receipt : Bool
  usageExtractor : Option Value → Option UsageTokens

def ResponsesInspection.ids (c : ResponsesInspection) : Identities := ⟨c.observes || c.receipt, c.receipt⟩

/-- The document, and what was found out from the ones before it. -/
structure Findings (T : Tokenizer) where
  document : MetadataParser T
  accumulator : Accumulator
  hosted : HostedSearch
  /-- The facts that were published. -/
  observed : List ResponsesObservation

/-- What the accumulator is told of a document. -/
def MetadataEvidence.usage : MetadataEvidence → SseUsageEvidence
  | .data value => .data (value.getD .null)
  | .invalid => .invalid
  | .unavailable => .unavailable

def MetadataEvidence.value : MetadataEvidence → Option Value
  | .data value => value
  | _ => none

namespace Findings

variable {T : Tokenizer} (c : ResponsesInspection)

def start : Findings T := ⟨.fresh, createSseUsageAccumulator c.revokes, createHostedSearchUsage, []⟩

def tell (f : Findings T) (evidence : SseUsageEvidence) : Findings T :=
  { f with accumulator := f.accumulator.accept none c.revokes evidence }

/-- What a document that ended well says of the searches, and the fact in it. -/
def read (f : Findings T) (document : MetadataParser T) (value : Option Value) : Findings T :=
  let hosted := if responseOutcome value = some .providerError then f.hosted.invalid else f.hosted
  { f with
    document := document
    hosted := hosted.accept document.tools c.sse
    observed := f.observed ++ if c.observes then (responsesObservation value).toList else [] }

def dispatch (f : Findings T) (b : Boundary) : Findings T :=
  let f :=
    if b.eventError then
      let value := if b.hasContent then (f.document.finish c.ids).evidence.value else none
      { f.tell c (.error value) with hosted := f.hosted.invalid }
    else if b.hasData && b.hasContent then
      if b.done then f.tell c .done
      else
        let document := f.document.finish c.ids
        match document.evidence with
        | .data value => (f.tell c (.data (value.getD .null))).read c document value
        | evidence => { f.tell c evidence.usage with hosted := f.hosted.invalid }
    else f
  { f with document := .fresh }

def apply (f : Findings T) : LineOp → Findings T
  | .data t => { f with document := f.document.push c.ids t }
  | .boundary b => f.dispatch c b

end Findings

/-- The state of an inspection. -/
structure ResponsesInspector (T : Tokenizer) where
  decoder : TextDecoder.Stream
  lines : Lines
  findings : Findings T
  json : UsageInspection
  stopped : Bool
  undecodedData : Bool

def feedLimit : Nat := 4096

/-- A chunk is fed in parts; so many of them at most. -/
def blocksOf : Nat → List UInt8 → List (List UInt8)
  | 0, _ => []
  | _ + 1, [] => []
  | most + 1, bytes => bytes.take feedLimit :: blocksOf most (bytes.drop feedLimit)

def blocks (bytes : List UInt8) : List (List UInt8) := blocksOf bytes.length bytes

namespace ResponsesInspector

variable {T : Tokenizer} (c : ResponsesInspection)

def create : ResponsesInspector T := ⟨TextDecoder.stream, .fresh, .start c, ⟨none, none⟩, false, false⟩

def readText (s : ResponsesInspector T) (value : Text) : ResponsesInspector T :=
  if c.sse then
    let (lines, ops) := s.lines.readFrom [] value
    { s with lines := lines, findings := ops.foldl (Findings.apply c) s.findings }
  else { s with findings := s.findings.apply c (.data value) }

def invalidUtf8 (s : ResponsesInspector T) : ResponsesInspector T :=
  let f := { s.findings with hosted := s.findings.hosted.invalid, document := s.findings.document.stop }
  { s with
    findings := if c.sse then f.tell c .invalid else f
    json := if c.sse then s.json else ⟨none, some .providerError⟩
    stopped := true }

def pushBlock (s : ResponsesInspector T) (block : List UInt8) : ResponsesInspector T :=
  if s.stopped then s
  else
    match TextDecoder.decodeStream true s.decoder block with
    | none => s.invalidUtf8 c
    | some (value, decoder) => { s with decoder := decoder }.readText c value

def push (s : ResponsesInspector T) (bytes : List UInt8) : ResponsesInspector T :=
  (blocks bytes).foldl (pushBlock c) s

/-- `finishDecoder`: a code point may be unfinished. -/
def finishDecoder (s : ResponsesInspector T) : ResponsesInspector T :=
  let flushed := TextDecoder.flushStream true s.decoder
  let s := { s with decoder := TextDecoder.stream }
  if flushed.isSome then s
  else if c.sse && c.revokes then
    { s with undecodedData := s.undecodedData || s.lines.mode == Mode.data && !s.lines.eventError }
  else s.invalidUtf8 c

/-- The one document of an answer that is no stream ends. -/
def finishDocument (s : ResponsesInspector T) : ResponsesInspector T :=
  let document := s.findings.document.finish c.ids
  match document.evidence with
  | .data value =>
    { s with
      findings := s.findings.read c document value
      json := ⟨c.usageExtractor value, responseOutcome value⟩ }
  | evidence =>
    { s with
      findings := { s.findings with document := document, hosted := s.findings.hosted.invalid }
      json := ⟨none, match evidence with
        | .invalid => some .providerError
        | _ => none⟩ }

def finish (s : ResponsesInspector T) : ResponsesInspector T :=
  if s.stopped then s
  else
    let s := s.finishDecoder c
    if s.stopped || c.sse then s else s.finishDocument c

/-- The evidence of an event that no empty line ended. -/
def unfinished (s : ResponsesInspector T) : SseUsageEvidence :=
  if s.lines.eventError then .error s.findings.document.pending.value
  else if s.lines.done.isComplete then .done
  else s.findings.document.pending.usage

def result (s : ResponsesInspector T) (ended : Bool) : UsageInspection :=
  if c.sse then
    let s := if c.revokes && !ended && !s.stopped then s.finishDecoder c else s
    let accumulator := s.findings.accumulator
    let accumulator := if !c.revokes then accumulator
      else if s.undecodedData then accumulator.unfinished none (some .invalid)
      else if s.lines.hasData && s.lines.hasContent then accumulator.unfinished none (some s.unfinished)
      else accumulator
    (accumulator.result ended s.findings.document.unavailable).1
  else if ended then s.json
  else ⟨none, none⟩

def hostedUsage (s : ResponsesInspector T) (ended : Bool) : Option HostedSearchUsage :=
  s.findings.hosted.result ended

end ResponsesInspector

end ClawRouter.Inspect
