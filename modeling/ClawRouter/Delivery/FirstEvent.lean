/-
  Subject:   The first event of an upstream stream (src/worker/proxy-response.ts,
             `normalizeFirstSseEvent` and `replayResponse`, with the envelopes of
             src/worker/native-errors.ts).

  Before a stream is handed down its first event is looked at: an error becomes an error response,
  anything else is replayed. At most 8 KiB are looked at. The window grows with every chunk and is
  scanned again from the start of the unfinished event.

  * **`first_event_of_bytes`**: two ways to cut a body give the same decision, reading stops in time,
    and a replay delivers the bytes there were.
-/
import ClawRouter.Lib.TextDecoder
import ClawRouter.Lib.Value

namespace ClawRouter.FirstEvent

open Utf16 Js

abbrev Chunk := List UInt8

/-! ## 1. Lines and fields -/

def splitLines : Text → List Text
  | [] => [[]]
  | 13 :: 10 :: rest => [] :: splitLines rest
  | u :: rest =>
    if u = 13 ∨ u = 10 then [] :: splitLines rest
    else
      match splitLines rest with
      | line :: lines => (u :: line) :: lines
      | [] => [[u]]

def fieldOf (line : Text) : Text × Text :=
  let field := line.takeWhile (· ≠ 58)
  match line.drop field.length with
  | [] => (field, [])
  | _ :: 32 :: value => (field, value)
  | _ :: value => (field, value)

/-- The loop of `firstSseData` over the lines that are left. -/
def firstSseDataFrom (dataLines : List Text) : List Text → List Text
  | [] => dataLines
  | line :: rest =>
    if line = [] then
      if dataLines.any (· ≠ []) then dataLines else firstSseDataFrom [] rest
    else if startsWith (text ":") line then firstSseDataFrom dataLines rest
    else
      let (field, value) := fieldOf line
      firstSseDataFrom (if field = text "data" then dataLines ++ [value] else dataLines) rest

def firstSseData (body : Text) : Option Text :=
  let dataLines := firstSseDataFrom [] (splitLines body)
  if dataLines = [] then none else some (join 10 dataLines)

/-! ## 2. Errors -/

/-- What an error says. -/
structure NativeErrorDetails where
  message : Option Text
  type : Option Text
  code : Option Value
  param : Option Value
  requestId : Option (Option Text)

def noDetails : NativeErrorDetails := ⟨none, none, none, none, none⟩

/-- The format of an error. -/
inductive NativeErrorFormat
  | openai
  | anthropic
  deriving DecidableEq

/-- The format, and the request it answers. -/
structure NativeErrorContext where
  format : NativeErrorFormat
  requestId : Text

abbrev Headers := List (Text × Text)

/-- The status line and the headers of a response. -/
structure Head where
  status : Int
  statusText : Text
  headers : Headers

def Head.ok (head : Head) : Bool := 200 ≤ head.status && head.status ≤ 299

/-- A response with a JSON body. -/
structure JsonResponse where
  head : Head
  body : Value

def headerOf (headers : Headers) (name : String) : Option Text := headers.lookup (text name)

def withoutHeader (headers : Headers) (name : String) : Headers :=
  headers.filter fun header => header.1 ≠ text name

def withHeader (headers : Headers) (name value : String) : Headers :=
  withoutHeader headers name ++ [(text name, text value)]

/-- A number or a text that `error.code` may be. -/
def isCode : Value → Bool
  | .str _ => true
  | .num _ => true
  | .null => true
  | _ => false

/-- `request_id`, as far as it is a text or null. -/
def requestIdOf : Option Value → Option (Option Text)
  | some (.str id) => some (some id)
  | some .null => some none
  | _ => none

/-- `upstreamError`, for the `JSON.parse` it calls. -/
def upstreamError (parse : Text → Option Value) (body : Text) : NativeErrorDetails :=
  let eventData := (firstSseData body).getD []
  match record (parse (if eventData = [] then body else eventData)) with
  | none => noDetails
  | some value =>
    let error := (record (get value "error")).getD value
    { message := textOf (get error "message")
      type := textOf (get error "type")
      code := (get error "code").filter isCode
      param := get error "param"
      requestId := requestIdOf (get value "request_id") }

def anthropicErrorType (status : Int) : String :=
  (([(401, "authentication_error"), (402, "billing_error"), (403, "permission_error"),
      (404, "not_found_error"), (409, "conflict_error"), (413, "request_too_large"),
      (429, "rate_limit_error"), (504, "timeout_error"), (529, "overloaded_error")] :
        List (Int × String)).lookup status).getD
    (if status ≥ 500 then "api_error" else "invalid_request_error")

def requestFailed : Text := text "upstream request failed"

def statusValue (status : Int) : Value := .num (.finite status)

def nativeErrorEnvelope (context : NativeErrorContext) (status : Int)
    (details : NativeErrorDetails) : Value :=
  let message := Value.str (details.message.getD requestFailed)
  match context.format with
  | .anthropic =>
    .obj [(text "type", .str (text "error")),
      (text "error", .obj [(text "type", .str (details.type.getD (text (anthropicErrorType status)))),
        (text "message", message)]),
      (text "request_id", match details.requestId with
        | none => .str context.requestId
        | some none => .null
        | some (some id) => .str id)]
  | .openai =>
    .obj [(text "error", .obj [(text "message", message), (text "type", .str (details.type.getD (text
        (if status ≥ 500 then "server_error" else if status = 429 then "rate_limit_error"
          else "invalid_request_error")))),
      (text "param", (nullish details.param).getD .null),
      (text "code", details.code.getD (statusValue status))])]

def mappedUpstreamError (response : Head) (upstream : NativeErrorDetails) (status : Int)
    (native : Option NativeErrorContext) : JsonResponse :=
  let headers := withHeader (withoutHeader response.headers "content-length") "content-type"
    "application/json; charset=utf-8"
  let statusText := if response.statusText = [] then requestFailed else response.statusText
  let message := upstream.message.getD (if response.ok then requestFailed else statusText)
  let body := match native with
    | some native =>
      let requestId := match upstream.requestId with
        | none => some (some ((headerOf headers "request-id").getD native.requestId))
        | some id => some id
      nativeErrorEnvelope native status
        { upstream with message := some message, requestId := requestId }
    | none =>
      .obj [(text "error", .obj [(text "message", .str message),
        (text "type", .str (upstream.type.getD (text "upstream_error"))),
        (text "code", (nullish upstream.code).getD (statusValue status))])]
  { head := ⟨status, if status = response.status then response.statusText else [], headers⟩
    body }

/-! ## 3. Events -/

/-- The loop of `sseEventBoundary`: the bytes from `index` on, of a line that began at `lineStart`.
    The answer is where the event ends and where the next one begins. -/
def boundaryFrom : List UInt8 → Nat → Nat → Option (Nat × Nat)
  | [], _, _ => none
  | 13 :: 10 :: rest, index, lineStart =>
    if index = lineStart then some (lineStart, index + 2)
    else boundaryFrom rest (index + 2) (index + 2)
  | b :: rest, index, lineStart =>
    if b ≠ 10 ∧ b ≠ 13 then boundaryFrom rest (index + 1) lineStart
    else if index = lineStart then some (lineStart, index + 1)
    else boundaryFrom rest (index + 1) (index + 1)

/-- `sseEventBoundary(bytes, start, bytes.length)`. -/
def sseEventBoundary (bytes : List UInt8) (start : Nat) : Option (Nat × Nat) :=
  boundaryFrom (bytes.drop start) start start

/-- What the first event is. -/
inductive SseEvent
  | empty
  | healthy (upstream : NativeErrorDetails)
  | error (upstream : NativeErrorDetails)

/-- The type and the data of an event, line after line. -/
def readLine (event : Text × List Text) (line : Text) : Text × List Text :=
  if line = [] || startsWith (text ":") line then event
  else
    let (field, value) := fieldOf line
    if field = text "event" then (value, event.2)
    else if field = text "data" then (event.1, event.2 ++ [value])
    else event

def hasTopLevelError (parse : Text → Option Value) (data : Text) : Bool :=
  ((record (parse data)).map fun value => has value "error").getD false

def classifySseEvent (parse : Text → Option Value) (bytes : List UInt8) : SseEvent :=
  let (eventType, dataLines) :=
    (splitLines ((TextDecoder.decode false bytes).getD [])).foldl readLine ([], [])
  let data := join 10 dataLines
  if dataLines = [] then .empty
  else if eventType = text "error" || hasTopLevelError parse data then
    .error (upstreamError parse data)
  else .healthy (upstreamError parse data)

/-! ## 4. Decisions -/

/-- What the loop is called with: the response, the status of a known rejection, the protocol of the
    caller, and `JSON.parse`. -/
structure Context where
  parse : Text → Option Value
  response : Head
  errorStatus : Option Int
  native : Option NativeErrorContext

/-- A decision: the rejection that is accepted for accounting, and the error response, if there is
    one; otherwise the body is replayed. -/
structure Decision where
  accepted : Option Int
  mapped : Option JsonResponse

section Loop

variable (c : Context)

/-- The status of an error that came with a status of 200. -/
def statusOf (code : Option Value) : Int :=
  match code with
  | some (.num (.finite q)) => if q.den = 1 ∧ 400 ≤ q.num ∧ q.num ≤ 599 then q.num else 502
  | _ => 502

/-- What is decided on an event that is an error, or of a response that is one. -/
def rejected (upstream : NativeErrorDetails) : Decision :=
  let status := c.errorStatus.getD (statusOf upstream.code)
  { accepted := some status
    mapped :=
      if c.errorStatus.isSome || c.native.isNone then
        some (mappedUpstreamError c.response upstream status c.native)
      else none }

/-- What is decided on an event; nothing on an empty one. -/
def decideEvent : SseEvent → Option Decision
  | .empty => none
  | .error upstream => some (rejected c upstream)
  | .healthy upstream =>
    some (if c.errorStatus.isSome then rejected c upstream else ⟨none, none⟩)

def decideEnd : Decision :=
  ⟨none, c.errorStatus.map fun status => mappedUpstreamError c.response noDetails status c.native⟩

end Loop

/-! ## 5. The events of a window -/

variable {bytes sniffed : List UInt8} {eventStart reached start stop : Nat}

theorem boundaryFrom_bounds {index lineStart : Nat}
    (hline : lineStart ≤ index) (h : boundaryFrom bytes index lineStart = some (start, stop)) :
    lineStart ≤ start ∧ start < stop ∧ stop ≤ index + bytes.length := by
  induction bytes, index, lineStart using boundaryFrom.induct with
  | case1 => cases h
  | case2 index rest =>
    rw [boundaryFrom, if_pos rfl] at h
    cases h
    simp only [List.length_cons]
    omega
  | case3 rest index lineStart hne ih =>
    rw [boundaryFrom, if_neg hne] at h
    have := ih (le_refl _) h
    simp only [List.length_cons]
    omega
  | case4 b rest index lineStart hcrlf hb ih =>
    rw [boundaryFrom, if_pos hb] at h
    · have := ih (by omega) h
      simp only [List.length_cons]
      omega
    · exact hcrlf
  | case5 b rest index hcrlf hb =>
    rw [boundaryFrom, if_neg hb, if_pos rfl] at h
    · cases h
      simp only [List.length_cons]
      omega
    · exact hcrlf
  | case6 b rest index lineStart hcrlf hb hne ih =>
    rw [boundaryFrom, if_neg hb, if_neg hne] at h
    · have := ih (le_refl _) h
      simp only [List.length_cons]
      omega
    · exact hcrlf

theorem sseEventBoundary_bounds {boundary : Nat × Nat}
    (h : sseEventBoundary bytes start = some boundary) (hstart : start < bytes.length) :
    start ≤ boundary.1 ∧ boundary.1 < boundary.2 ∧ boundary.2 ≤ bytes.length := by
  obtain ⟨first, stop⟩ := boundary
  have hb := boundaryFrom_bounds (le_refl start) h
  rw [List.length_drop] at hb
  omega

def subarray (bytes : List UInt8) (start stop : Nat) : List UInt8 := (bytes.drop start).take (stop - start)

section Events

variable (c : Context)

/-- The loop over the events of the window, from `eventStart` on: where it stops, and the decision. -/
def scanEvents (sniffed : List UInt8) (eventStart : Nat) : Nat × Option Decision :=
  if _hstart : eventStart < sniffed.length then
    match _hb : sseEventBoundary sniffed eventStart with
    | none => (eventStart, none)
    | some boundary =>
      match decideEvent c (classifySseEvent c.parse (subarray sniffed eventStart boundary.1)) with
      | some decision => (boundary.2, some decision)
      | none => scanEvents sniffed boundary.2
  else (eventStart, none)
termination_by sniffed.length - eventStart
decreasing_by
  have := sseEventBoundary_bounds _hb _hstart
  omega

theorem boundaryFrom_append (tail : List UInt8) {index lineStart : Nat}
    (h : boundaryFrom bytes index lineStart = some (start, stop)) :
    boundaryFrom (bytes ++ tail) index lineStart = some (start, stop) ∨
      stop = index + bytes.length ∧ tail.head? = some 10 ∧
        boundaryFrom (bytes ++ tail) index lineStart = some (start, stop + 1) := by
  induction bytes, index, lineStart using boundaryFrom.induct with
  | case1 => cases h
  | case2 index rest =>
    rw [boundaryFrom, if_pos rfl] at h
    left
    rw [List.cons_append, List.cons_append, boundaryFrom, if_pos rfl]
    exact h
  | case3 rest index lineStart hne ih =>
    rw [boundaryFrom, if_neg hne] at h
    rw [List.cons_append, List.cons_append, boundaryFrom, if_neg hne]
    simp only [List.length_cons]
    have e : index + (rest.length + 1 + 1) = index + 2 + rest.length := by omega
    rw [e]
    exact ih h
  | case4 b rest index lineStart hcrlf hb ih =>
    rw [boundaryFrom, if_pos hb] at h
    · have hb' : ∀ rest', b = 13 → rest ++ tail = 10 :: rest' → False := fun _ e _ => hb.2 e
      rw [List.cons_append, boundaryFrom, if_pos hb]
      · simp only [List.length_cons]
        have e : index + (rest.length + 1) = index + 1 + rest.length := by omega
        rw [e]
        exact ih h
      · exact hb'
    · exact hcrlf
  | case5 b rest index hcrlf hb =>
    rw [boundaryFrom, if_neg hb, if_pos rfl] at h
    · cases h
      by_cases hlf : b = 13 ∧ rest = [] ∧ tail.head? = some 10
      · obtain ⟨rfl, rfl, htail⟩ := hlf
        obtain ⟨rest', rfl⟩ : ∃ rest', tail = 10 :: rest' := by
          cases tail with
          | nil => cases htail
          | cons x rest' =>
            cases htail
            exact ⟨rest', rfl⟩
        right
        refine ⟨rfl, rfl, ?_⟩
        rw [List.cons_append, List.nil_append, boundaryFrom, if_pos rfl]
      · left
        rw [List.cons_append, boundaryFrom, if_neg hb, if_pos rfl]
        intro rest' e hrest
        cases rest with
        | nil =>
          rw [List.nil_append] at hrest
          exact hlf ⟨e, rfl, by rw [hrest]; rfl⟩
        | cons x rest'' =>
          cases hrest
          exact hcrlf rest'' e rfl
    · exact hcrlf
  | case6 b rest index lineStart hcrlf hb hne ih =>
    rw [boundaryFrom, if_neg hb, if_neg hne] at h
    · simp only [List.length_cons]
      have e : index + (rest.length + 1) = index + 1 + rest.length := by omega
      rw [e]
      by_cases hlf : b = 13 ∧ rest = []
      · obtain ⟨_, rfl⟩ := hlf
        cases h
      · rw [List.cons_append, boundaryFrom, if_neg hb, if_neg hne]
        · exact ih h
        · intro rest' e' hrest
          cases rest with
          | nil => exact hlf ⟨e', rfl⟩
          | cons x rest'' =>
            cases hrest
            exact hcrlf rest'' e' rfl
    · exact hcrlf

variable {c}

theorem scanEvents_end (h : sniffed.length ≤ eventStart) :
    scanEvents c sniffed eventStart = (eventStart, none) := by
  rw [scanEvents, dif_neg (by omega)]

theorem scanEvents_none (h : eventStart < sniffed.length) (hb : sseEventBoundary sniffed eventStart = none) :
    scanEvents c sniffed eventStart = (eventStart, none) := by
  rw [scanEvents, dif_pos h]
  split
  · rfl
  · rename_i boundary hb'
    rw [hb] at hb'
    cases hb'

theorem scanEvents_some {boundary : Nat × Nat}
    (h : eventStart < sniffed.length) (hb : sseEventBoundary sniffed eventStart = some boundary) :
    scanEvents c sniffed eventStart =
      match decideEvent c (classifySseEvent c.parse (subarray sniffed eventStart boundary.1)) with
      | some decision => (boundary.2, some decision)
      | none => scanEvents c sniffed boundary.2 := by
  rw [scanEvents, dif_pos h]
  split
  · rename_i hb'
    rw [hb] at hb'
    cases hb'
  · rename_i boundary' hb'
    rw [hb] at hb'
    cases hb'
    rfl

theorem subarray_append (tail : List UInt8) (h : stop ≤ bytes.length) (hstart : start ≤ stop) :
    subarray (bytes ++ tail) start stop = subarray bytes start stop := by
  unfold subarray
  rw [List.drop_append_of_le_length (by omega), List.take_append_of_le_length]
  rw [List.length_drop]
  omega

theorem scanEvents_lf {tail : List UInt8} (h : tail.head? = some 10) :
    scanEvents c (sniffed ++ tail) sniffed.length =
      scanEvents c (sniffed ++ tail) (sniffed.length + 1) := by
  obtain ⟨rest, rfl⟩ : ∃ rest, tail = 10 :: rest := by
    cases tail with
    | nil => cases h
    | cons x rest =>
      cases h
      exact ⟨rest, rfl⟩
  have hb : sseEventBoundary (sniffed ++ 10 :: rest) sniffed.length = some
    (sniffed.length, sniffed.length + 1) := by
    unfold sseEventBoundary
    rw [List.drop_left, boundaryFrom, if_neg (by decide), if_pos rfl]
    intro rest' e
    cases e
  rw [scanEvents_some (by simp) hb]
  have hempty : subarray (sniffed ++ 10 :: rest) sniffed.length sniffed.length = [] := by
    unfold subarray
    rw [Nat.sub_self, List.take_zero]
  rw [hempty]
  rfl

theorem sseEventBoundary_append (tail : List UInt8) {boundary : Nat × Nat}
    (hstart : eventStart < sniffed.length)
    (hb : sseEventBoundary sniffed eventStart = some boundary) :
    sseEventBoundary (sniffed ++ tail) eventStart = some boundary ∨ boundary.2 = sniffed.length ∧
      tail.head? = some 10 ∧
        sseEventBoundary (sniffed ++ tail) eventStart = some (boundary.1, boundary.2 + 1) := by
  obtain ⟨start, stop⟩ := boundary
  have hgrow := boundaryFrom_append tail hb
  rw [List.length_drop, Nat.add_sub_cancel' (by omega)] at hgrow
  unfold sseEventBoundary
  rw [List.drop_append_of_le_length (by omega)]
  exact hgrow

/-- **A longer window goes on where the shorter one stopped**: a decision is the same, and where
    there was none the scan of the longer window may start there. -/
theorem scanEvents_append (tail : List UInt8) (sniffed : List UInt8) (eventStart : Nat) :
    (scanEvents c (sniffed ++ tail) eventStart).2 = match scanEvents c sniffed eventStart with
      | (_, some decision) => some decision
      | (reached, none) => (scanEvents c (sniffed ++ tail) reached).2 := by
  induction eventStart using scanEvents.induct c sniffed with
  | case1 eventStart hstart hb => rw [scanEvents_none hstart hb]
  | case2 eventStart hstart boundary hb decision hdecision =>
    have hbounds := sseEventBoundary_bounds hb hstart
    have hsame := subarray_append tail (show boundary.1 ≤ sniffed.length by omega) hbounds.1
    have hlong : eventStart < (sniffed ++ tail).length := by
      rw [List.length_append]
      omega
    rw [scanEvents_some hstart hb, hdecision]
    rcases sseEventBoundary_append tail hstart hb with hgrow | ⟨_, _, hgrow⟩
    · rw [scanEvents_some hlong hgrow, hsame, hdecision]
    · rw [scanEvents_some hlong hgrow]
      rw [hsame, hdecision]
  | case3 eventStart hstart boundary hb hdecision ih =>
    have hbounds := sseEventBoundary_bounds hb hstart
    have hsame := subarray_append tail (show boundary.1 ≤ sniffed.length by omega) hbounds.1
    have hlong : eventStart < (sniffed ++ tail).length := by
      rw [List.length_append]
      omega
    rw [scanEvents_some hstart hb, hdecision]
    rcases sseEventBoundary_append tail hstart hb with hgrow | ⟨hend, hlf, hgrow⟩
    · rw [scanEvents_some hlong hgrow, hsame, hdecision]
      exact ih
    · -- the event ended with the window, at a CR whose LF comes later
      rw [scanEvents_some hlong hgrow]
      rw [hsame, hdecision, scanEvents_end (le_of_eq hend.symm), hend]
      dsimp only
      rw [scanEvents_lf hlf]
  | case4 eventStart hstart => rw [scanEvents_end (not_lt.mp hstart)]

end Events

/-! ## 6. The body of a replay -/

/-- The stream of `replayResponse`: the chunks that were read, and the reader with what is left. -/
structure Replay where
  head : Head
  chunks : List Chunk
  chunkIndex : Nat
  readerDone : Bool
  upstream : List Chunk

/-- What a pull does: it enqueues a chunk, or it closes the stream. -/
inductive Pulled
  | enqueued (chunk : Chunk) (next : Replay)
  | closed

def Replay.pull (r : Replay) : Pulled :=
  match r.chunks[r.chunkIndex]? with
  | some chunk => .enqueued chunk { r with chunkIndex := r.chunkIndex + 1 }
  | none =>
    if r.readerDone then .closed
    else
      match r.upstream with
      | [] => .closed
      | value :: rest => .enqueued value { r with upstream := rest }

/-- Pulled until it closes, the stream delivers these chunks. -/
inductive Delivers : Replay → List Chunk → Prop
  | closed {r : Replay} (h : r.pull = .closed) : Delivers r []
  | enqueued {r next : Replay} {chunk : Chunk} {rest : List Chunk} (h : r.pull = .enqueued chunk next)
      (hrest : Delivers next rest) : Delivers r (chunk :: rest)

def Replay.left (r : Replay) : List Chunk :=
  r.chunks.drop r.chunkIndex ++ if r.readerDone then [] else r.upstream

theorem pull_cases (r : Replay) : r.pull = .closed ∧ r.left = [] ∨
      ∃ chunk next, r.pull = .enqueued chunk next ∧ r.left = chunk :: next.left := by
  unfold Replay.pull Replay.left
  cases hchunk : r.chunks[r.chunkIndex]? with
  | some chunk =>
    obtain ⟨hlt, hget⟩ := List.getElem?_eq_some_iff.mp hchunk
    refine .inr ⟨chunk, _, rfl, ?_⟩
    rw [List.drop_eq_getElem_cons hlt, hget]
    rfl
  | none =>
    have hdrop : r.chunks.drop r.chunkIndex = [] :=
      List.drop_eq_nil_of_le (List.getElem?_eq_none_iff.mp hchunk)
    cases hdone : r.readerDone with
    | true => exact .inl ⟨rfl, by rw [hdrop]; rfl⟩
    | false =>
      cases hup : r.upstream with
      | nil => exact .inl ⟨rfl, by rw [hdrop]; rfl⟩
      | cons value rest => exact .inr ⟨value, _, rfl, by simp only [hdrop]; rfl⟩

theorem delivers_iff {r : Replay} {delivered : List Chunk} : Delivers r delivered ↔ delivered = r.left := by
  constructor
  · intro h
    induction h with
    | @closed r h =>
      rcases pull_cases r with ⟨_, hleft⟩ | ⟨chunk, next, hpull, _⟩
      · exact hleft.symm
      · rw [h] at hpull
        cases hpull
    | @enqueued r next chunk rest h _ ih =>
      rcases pull_cases r with ⟨hpull, _⟩ | ⟨chunk', next', hpull, hleft⟩
      · rw [h] at hpull
        cases hpull
      · rw [h] at hpull
        cases hpull
        rw [hleft, ih]
  · intro h
    induction delivered generalizing r with
    | nil =>
      rcases pull_cases r with ⟨hpull, _⟩ | ⟨chunk, next, _, hleft⟩
      · exact .closed hpull
      · rw [← h] at hleft
        cases hleft
    | cons chunk rest ih =>
      rcases pull_cases r with ⟨_, hleft⟩ | ⟨chunk', next, hpull, hleft⟩
      · rw [← h] at hleft
        cases hleft
      · rw [← h] at hleft
        cases hleft
        exact .enqueued hpull (ih rfl)

/-! ## 7. The loop -/

def firstSseEventLimit : Nat := 8 * 1024

/-- What was read so far. -/
structure Sniff where
  chunks : List Chunk
  sniffed : List UInt8
  eventStart : Nat

def Sniff.read (s : Sniff) (value : Chunk) : Sniff :=
  if value.length = 0 then s
  else
    { s with
      chunks := s.chunks ++ [value]
      sniffed := s.sniffed ++ value.take (min value.length (firstSseEventLimit - s.sniffed.length)) }

/-- The answer: an error, or the stream. -/
inductive Outcome
  | mapped (response : JsonResponse)
  | replayed (replay : Replay)

/-- What the loop ends with: the accepted rejection, the response, and how often it has read. -/
structure Sniffed where
  accepted : Option Int
  outcome : Outcome
  reads : Nat

def Sniffed.decision (r : Sniffed) : Decision :=
  ⟨r.accepted, match r.outcome with | .mapped response => some response | .replayed _ => none⟩

section Sniffing

variable (c : Context)

def respond (decision : Decision) (s : Sniff) (readerDone : Bool) (upstream : List Chunk) (reads : Nat) :
    Sniffed :=
  { accepted := decision.accepted
    outcome :=
      match decision.mapped with
      | some response => .mapped response
      | none => .replayed ⟨c.response, s.chunks, 0, readerDone, upstream⟩
    reads }

/-- The loop, over the chunks that are left in the body. -/
def sniffFrom (s : Sniff) (reads : Nat) : List Chunk → Sniffed
  | [] => respond c ((scanEvents c s.sniffed s.eventStart).2.getD (decideEnd c)) s true [] (reads + 1)
  | value :: rest =>
    let s := s.read value
    match scanEvents c s.sniffed s.eventStart with
    | (_, some decision) => respond c decision s false rest (reads + 1)
    | (eventStart, none) =>
      if s.sniffed.length = firstSseEventLimit then
        respond c (decideEnd c) s false rest (reads + 1)
      else sniffFrom { s with eventStart } (reads + 1) rest

/-- `normalizeFirstSseEvent`, for a body that is read to its end without a failure. -/
def normalizeFirstSseEvent (body : List Chunk) : Sniffed := sniffFrom c ⟨[], [], 0⟩ 0 body

def firstDecision (bytes : List UInt8) : Decision :=
  (scanEvents c (bytes.take firstSseEventLimit) 0).2.getD (decideEnd c)

/-- The loop has read these chunks, and no event before `eventStart` decides. -/
structure Scanned (s : Sniff) (consumed : List Chunk) : Prop where
  chunks : s.chunks.flatten = consumed.flatten
  sniffed : s.sniffed = consumed.flatten.take firstSseEventLimit
  passed : ∀ tail, (scanEvents c (s.sniffed ++ tail) 0).2 =
    (scanEvents c (s.sniffed ++ tail) s.eventStart).2

variable {c} {s : Sniff} {consumed : List Chunk}

section

variable (h : Scanned c s consumed)
include h

theorem Scanned.read (value : Chunk) : Scanned c (s.read value) (consumed ++ [value]) := by
  unfold Sniff.read
  split
  · rename_i hempty
    obtain rfl := List.length_eq_zero_iff.mp hempty
    have e : (consumed ++ [[]]).flatten = consumed.flatten := by simp
    exact ⟨e ▸ h.chunks, e ▸ h.sniffed, h.passed⟩
  · refine ⟨?_, ?_, fun tail => ?_⟩
    · simp [h.chunks]
    · dsimp only
      rw [h.sniffed, List.flatten_append, List.flatten_singleton, List.take_append, List.length_take]
      congr 1
      by_cases hfull : firstSseEventLimit ≤ consumed.flatten.length
      · rw [min_eq_left hfull, Nat.sub_self, Nat.min_zero, Nat.sub_eq_zero_of_le hfull]
      · rw [min_eq_right (le_of_not_ge hfull), Nat.min_comm, ← List.take_eq_take_min]
    · rw [List.append_assoc]
      exact h.passed _

theorem Scanned.scanned (hscan : scanEvents c s.sniffed s.eventStart = (reached, none)) :
    Scanned c { s with eventStart := reached } consumed := by
  refine ⟨h.chunks, h.sniffed, fun tail => ?_⟩
  rw [h.passed, scanEvents_append, hscan]

theorem Scanned.window (rest : List Chunk) :
    ∃ tail, (consumed ++ rest).flatten.take firstSseEventLimit = s.sniffed ++ tail ∧
      (firstSseEventLimit ≤ s.sniffed.length ∨ rest = [] → tail = []) := by
  rw [List.flatten_append, List.take_append, ← h.sniffed]
  refine ⟨_, rfl, ?_⟩
  rintro (hfull | rfl)
  · have hlen : s.sniffed.length ≤ consumed.flatten.length := by
      rw [h.sniffed, List.length_take]
      omega
    rw [Nat.sub_eq_zero_of_le (by omega), List.take_zero]
  · rw [List.flatten_nil, List.take_nil]

theorem Scanned.decided {decision : Decision}
    (hscan : scanEvents c s.sniffed s.eventStart = (reached, some decision)) (rest : List Chunk) :
    firstDecision c (consumed ++ rest).flatten = decision := by
  obtain ⟨tail, hwindow, _⟩ := h.window rest
  rw [firstDecision, hwindow, h.passed, scanEvents_append, hscan]
  rfl

theorem Scanned.undecided (hscan : scanEvents c s.sniffed s.eventStart = (reached, none)) {rest : List Chunk}
    (hall : firstSseEventLimit ≤ s.sniffed.length ∨ rest = []) :
    firstDecision c (consumed ++ rest).flatten = decideEnd c := by
  obtain ⟨tail, hwindow, htail⟩ := h.window rest
  have hpassed := h.passed []
  rw [List.append_nil, hscan] at hpassed
  rw [firstDecision, hwindow, htail hall, List.append_nil, hpassed]
  rfl

end

/-- What the loop ends with, for the chunks it read before and those that are left. -/
structure Ends (c : Context) (consumed rest : List Chunk) (reads : Nat) (r : Sniffed) : Prop where
  decision : r.decision = firstDecision c (consumed ++ rest).flatten
  /-- A replay has all the bytes. -/
  replay : ∀ replay, r.outcome = .replayed replay → replay.left.flatten = (consumed ++ rest).flatten
  /-- It reads to the end of the body at most. -/
  ends : reads < r.reads ∧ r.reads ≤ reads + rest.length + 1
  /-- It does not read on with a full window. -/
  stops : ∀ k, reads + k + 1 < r.reads →
    (consumed ++ rest.take (k + 1)).flatten.length < firstSseEventLimit

theorem respond_decision (decision : Decision) (s : Sniff) (readerDone : Bool) (upstream : List Chunk)
    (reads : Nat) : (respond c decision s readerDone upstream reads).decision = decision := by
  obtain ⟨accepted, mapped⟩ := decision
  cases mapped <;> rfl

theorem respond_replay {decision : Decision} {readerDone : Bool} {upstream : List Chunk} {reads : Nat}
    {replay : Replay} (h : (respond c decision s readerDone upstream reads).outcome = .replayed replay) :
    replay.left = s.chunks ++ if readerDone then [] else upstream := by
  unfold respond at h
  split at h
  · cases h
  · cases h
    rfl

theorem ends_respond {decision : Decision} (value : Chunk) (rest : List Chunk) (reads : Nat)
    (h : Scanned c s (consumed ++ [value]))
    (hdecision : firstDecision c (consumed ++ value :: rest).flatten = decision) :
    Ends c consumed (value :: rest) reads (respond c decision s false rest (reads + 1)) where
  decision := by rw [respond_decision, hdecision]
  replay := by
    intro replay hreplay
    rw [respond_replay hreplay, List.flatten_append, h.chunks]
    simp
  ends := by
    show reads < reads + 1 ∧ reads + 1 ≤ _
    omega
  stops := by
    intro k hk
    have hk : reads + k + 1 < reads + 1 := hk
    omega

theorem sniffFrom_ends (rest : List Chunk) (s : Sniff) (consumed : List Chunk) (reads : Nat)
    (h : Scanned c s consumed) : Ends c consumed rest reads (sniffFrom c s reads rest) := by
  induction rest generalizing s consumed reads with
  | nil =>
    have hdecision : (scanEvents c s.sniffed s.eventStart).2.getD (decideEnd c) =
        firstDecision c (consumed ++ []).flatten := by
      rcases hscan : scanEvents c s.sniffed s.eventStart with ⟨reached, _ | decision⟩
      · exact (h.undecided hscan (.inr rfl)).symm
      · exact (h.decided hscan []).symm
    refine ⟨?_, ?_, ?_, ?_⟩
    · rw [sniffFrom, respond_decision, hdecision]
    · intro replay hreplay
      rw [respond_replay hreplay, if_pos rfl, List.append_nil, List.append_nil, h.chunks]
    · show reads < reads + 1 ∧ reads + 1 ≤ reads + 0 + 1
      omega
    · intro k hk
      have hk : reads + k + 1 < reads + 1 := hk
      omega
  | cons value rest ih =>
    have hread := h.read value
    have happend : consumed ++ value :: rest = (consumed ++ [value]) ++ rest := by simp
    rw [sniffFrom]
    rcases hscan : scanEvents c (s.read value).sniffed (s.read value).eventStart with
      ⟨reached, _ | decision⟩
    · dsimp only
      by_cases hfull : (s.read value).sniffed.length = firstSseEventLimit
      · rw [if_pos hfull]
        refine ends_respond value rest reads hread ?_
        rw [happend]
        exact hread.undecided hscan (.inl (le_of_eq hfull.symm))
      · rw [if_neg hfull]
        have hrest := ih _ (consumed ++ [value]) (reads + 1) (hread.scanned hscan)
        refine ⟨?_, ?_, ?_, ?_⟩
        · rw [happend]
          exact hrest.decision
        · rw [happend]
          exact hrest.replay
        · have hends := hrest.ends
          rw [List.length_cons]
          omega
        · intro k hk
          cases k with
          | zero =>
            rw [List.take_succ_cons, List.take_zero]
            have hlen := congrArg List.length hread.sniffed
            rw [List.length_take] at hlen
            omega
          | succ k =>
            have hlt := hrest.stops k (by omega)
            rw [List.take_succ_cons]
            simpa using hlt
    · refine ends_respond value rest reads hread ?_
      rw [happend]
      exact hread.decided hscan rest

/-- **What is decided on the first event depends on the bytes of the body alone**: two ways to cut
    them give the same decision; reading ends with the body or with a full window; and a replay
    delivers the bytes there were. -/
theorem first_event_of_bytes (body body' : List Chunk) (h : body.flatten = body'.flatten) :
    (normalizeFirstSseEvent c body).decision = (normalizeFirstSseEvent c body').decision ∧
      ((normalizeFirstSseEvent c body).reads ≤ body.length + 1 ∧
        ∀ k, k + 1 < (normalizeFirstSseEvent c body).reads →
          (body.take (k + 1)).flatten.length < firstSseEventLimit) ∧
      ∀ replay, (normalizeFirstSseEvent c body).outcome = .replayed replay →
        ∃ delivered, (∀ chunks, Delivers replay chunks ↔ chunks = delivered) ∧
          delivered.flatten = body.flatten := by
  have hstart : Scanned c ⟨[], [], 0⟩ [] := ⟨rfl, rfl, fun _ => rfl⟩
  have hends := sniffFrom_ends body _ [] 0 hstart
  have hends' := sniffFrom_ends body' _ [] 0 hstart
  refine ⟨?_, ⟨?_, fun k hk => ?_⟩, fun replay hreplay => ?_⟩
  · rw [normalizeFirstSseEvent, normalizeFirstSseEvent, hends.decision, hends'.decision,
      List.nil_append, List.nil_append, h]
  · have hle := hends.ends.2
    rwa [Nat.zero_add] at hle
  · exact hends.stops k (by rw [Nat.zero_add]; exact hk)
  · exact ⟨replay.left, fun chunks => delivers_iff, hends.replay replay hreplay⟩

end Sniffing

section Witness

/-- An answer of 200, for a caller of no protocol of its own. -/
def plainContext : Context := ⟨fun _ => none, ⟨200, [], []⟩, none, none⟩

/-- A comment whose last CR and LF come in two chunks, and in one. -/
theorem comment_cut_inside_line_end :
    (normalizeFirstSseEvent plainContext [[58, 13, 10, 13], [10]]).decision =
      (normalizeFirstSseEvent plainContext [[58, 13, 10, 13, 10]]).decision :=
  (first_event_of_bytes [[58, 13, 10, 13], [10]] [[58, 13, 10, 13, 10]] rfl).1

end Witness

end ClawRouter.FirstEvent
