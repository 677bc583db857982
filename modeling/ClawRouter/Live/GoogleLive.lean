/-
  Subject:   One connection of Google Live (`GoogleLiveConnection` of src/worker/google-live.ts): the frames of both
             sides, as they are checked and as they change the connection.

  A frame is checked against a copy of the maps, and only a frame that passed is committed. `parse` is
  `JSON.parse`, `toText` is `String` of a value.

  * `takeResults`, `takeCalls`, `takeCancellations`: the loops over the entries of a frame.
-/
import ClawRouter.Lib.Base64
import ClawRouter.Lib.Fallible
import ClawRouter.Lib.Value

namespace ClawRouter.GoogleLive

open Utf16 Js

/-! ## 1. Checks of values -/

abbrev Check (α : Type) := Except String α

def fail {α : Type} (reason : String) : Check α := .error ("invalid_google_live_" ++ reason)

def require (condition : Bool) (reason : String) : Check Unit := if condition then .ok () else fail reason

def object : Option Value → Check Members
  | some (.obj members) => .ok members
  | _ => fail "protocol"

def keys (members : Members) (allowed : List String) : Check Unit :=
  require (members.all fun m => allowed.any fun name => Js.text name == m.1) "protocol"

def list (value : Option Value) (min max : Nat) : Check (List Value) :=
  match value with
  | some (.arr items) => if items.length < min ∨ max < items.length then fail "protocol" else .ok items
  | _ => fail "protocol"

def text (value : Option Value) (max : Nat) (empty : Bool) : Check Text :=
  match value with
  | some (.str t) => if (!empty && (trim t).isEmpty) || max < t.length then fail "protocol" else .ok t
  | _ => fail "protocol"

def bool : Option Value → Check Unit
  | none => .ok ()
  | some (.bool _) => .ok ()
  | some _ => fail "protocol"

def isTrue : Option Value → Bool
  | some (.bool b) => b
  | _ => false

def isLetter (u : UInt16) : Bool := (65 ≤ u.toNat && u.toNat ≤ 90) || (97 ≤ u.toNat && u.toNat ≤ 122)

def isDigit (u : UInt16) : Bool := 48 ≤ u.toNat && u.toNat ≤ 57

def isNamePart (u : UInt16) : Bool := isLetter u || isDigit u || [0x5f, 0x2e, 0x3a, 0x2d].contains u

def identity : Option Value → Check Text
  | some (.str t) => if 1 ≤ t.length ∧ t.length ≤ 128 ∧ t.all isNamePart = true then .ok t else fail "tool_id"
  | _ => fail "tool_id"

def toolName : Option Value → Check Text
  | some (.str (first :: rest)) =>
    if (isLetter first || first == 0x5f) = true ∧ rest.length ≤ 127 ∧
      rest.all isNamePart = true then .ok (first :: rest)
    else fail "tool_name"
  | _ => fail "tool_name"

def isBase64 (t : Text) : Bool :=
  let rest := t.dropWhile fun u => isLetter u || isDigit u || [0x2b, 0x2f, 0x5f, 0x2d].contains u
  rest.length ≤ 2 && rest.all (· == Base64.padding)

/-- Audio, with its size. -/
structure Audio where
  base64 : Text
  decodedBytes : Nat
  mimeType : String

def standardUnit (u : UInt16) : UInt16 := if u = 0x2d then 0x2b else if u = 0x5f then 0x2f else u

def pcm (value : Option Value) (mimeType : String) (max : Nat) : Check Audio := do
  let audio ← object value
  keys audio ["mimeType", "data"]
  match get audio "data" with
  | some (.str data) =>
    if !isText (get audio "mimeType") mimeType || data.isEmpty || (max + 2) / 3 * 4 < data.length ||
      !isBase64 data ||
        (data.any fun u => u == 0x2b || u == 0x2f) &&
          (data.any fun u => u == 0x2d || u == 0x5f) then fail "pcm"
    else
      let standard := data.map standardUnit
      let bare := standard.rdropWhile (· == Base64.padding)
      let normalized := bare ++ List.replicate ((4 - bare.length % 4) % 4) Base64.padding
      if bare.length % 4 = 1 ∨
          (standard.contains Base64.padding = true ∧
            (standard.length % 4 ≠ 0 ∨ standard ≠ normalized)) then fail "pcm"
      else
        match Base64.atob normalized with
        | none => fail "pcm"
        | some decoded =>
          if Base64.btoa decoded ≠ normalized ∨ decoded = [] ∨ max < decoded.length ∨
            decoded.length % 2 = 1 then
            fail "pcm"
          else .ok ⟨normalized, decoded.length, mimeType⟩
  | _ => fail "pcm"

section Frames

variable (toText : Value → Text)

/-- A value that, as text, is one of the names, or is not there. -/
def oneOf (value : Option Value) (names : List String) : Check Unit :=
  match value with
  | none => .ok ()
  | some value => require (names.any fun name => Js.text name == toText value) "protocol"

def textContent (value : Option Value) (roles : List String) : Check Unit := do
  let content ← object value
  keys content ["role", "parts"]
  oneOf toText (get content "role") roles
  let parts ← list (get content "parts") 1 8
  parts.forM fun value => do
    let part ← object (some value)
    keys part ["text"]
    let _ ← text (get part "text") 65536 false

/-! ## 2. The connection -/

/-- A tool that the setup declares. -/
structure Tool where
  name : Text
  nonBlocking : Bool

/-- What of a setup the connection reads. -/
structure GoogleLiveSetup where
  tools : List Tool
  manualActivity : Bool
  realtimeText : Bool
  completeInputTranscripts : Bool
  extendedThinking : Bool
  toolContinuation : Bool
  audioStreamEndsTurn : Bool

abbrev Names := List (Text × Text)

/-- The state of a connection. -/
structure GoogleLiveConnection where
  ready : Bool
  closed : Bool
  interrupted : Bool
  frames : Nat
  seen : Names
  pending : Names

def GoogleLiveConnection.new : GoogleLiveConnection := ⟨false, false, false, 0, [], []⟩

def remove (names : Names) (id : Text) : Names := names.filter (·.1 ≠ id)

/-! ## 3. Frames of the client -/

/-- A result that the client sends. -/
structure ToolResult where
  id : Text
  name : Text
  willContinue : Bool
  scheduled : Bool

def realtimeInput (setup : GoogleLiveSetup) (value : Option Value) : Check Unit := do
  let input ← object value
  keys input ["audio", "text", "audioStreamEnd", "activityStart", "activityEnd"]
  require (input.length == 1) "protocol"
  if has input "audio" then
    let _ ← pcm (get input "audio") "audio/pcm;rate=16000" (64 * 1024)
  if has input "text" then
    require setup.realtimeText "protocol"
    let _ ← text (get input "text") 65536 false
  if has input "audioStreamEnd" then
    require (isTrue (get input "audioStreamEnd") && !setup.manualActivity &&
      setup.audioStreamEndsTurn) "protocol"
  ["activityStart", "activityEnd"].forM fun name => do
    if has input name then
      require setup.manualActivity "protocol"
      let activity ← object (get input name)
      keys activity []

def clientContent (setup : GoogleLiveSetup) (value : Option Value) : Check Unit := do
  require (!setup.realtimeText) "protocol"
  let content ← object value
  keys content ["turns", "turnComplete"]
  require (isTrue (get content "turnComplete")) "protocol"
  let turns ← list (get content "turns") 1 1
  textContent toText turns.head? ["user"]

/-- Continuing and scheduled results, where setup and tool allow them. -/
def mayContinue (setup : GoogleLiveSetup) (name : Text) : Bool :=
  setup.toolContinuation && setup.tools.any fun tool => tool.name == name && tool.nonBlocking

/-- One result of `toolResponse`, with what is pending after it. -/
def takeResult (setup : GoogleLiveSetup) (ids : List Text) (pending : Names) (value : Value) :
    Check (ToolResult × Names) := do
  let result ← object (some value)
  keys result ["id", "name", "response", "willContinue", "scheduling"]
  let id ← identity (get result "id")
  let name ← toolName (get result "name")
  require (!ids.contains id && pending.lookup id == some name) "tool_owner"
  let _ ← object (get result "response")
  bool (get result "willContinue")
  let willContinue := isTrue (get result "willContinue")
  require (!(has result "scheduling" || willContinue) || (mayContinue setup name &&
    (!has result "scheduling" || isText (get result "scheduling") "WHEN_IDLE"))) "tool_continuation"
  return (⟨id, name, willContinue, has result "scheduling"⟩, if willContinue then pending else
    remove pending id)

def takeResults (setup : GoogleLiveSetup) : List Value → List Text → Names → Check (List ToolResult × Names)
  | [], _, pending => .ok ([], pending)
  | value :: rest, ids, pending => do
    let (result, pending) ← takeResult setup ids pending value
    let (results, pending) ← takeResults setup rest (result.id :: ids) pending
    return (result :: results, pending)

def toolResponse (setup : GoogleLiveSetup) (pending : Names) (value : Option Value) :
    Check (List ToolResult × Names) := do
  let response ← object value
  keys response ["functionResponses"]
  let values ← list (get response "functionResponses") 1 32
  takeResults setup values [] pending

section Parse

variable (parse : Text → Option Value)

def maxFrame : Nat := 1024 * 1024
def maxCalls : Nat := 1024

def parseFrame (wire : Text) : Check Members :=
  if maxFrame < (encode wire).length then fail "frame"
  else
    match parse wire with
    | none => fail "json"
    | some body => object (some body)

/-- `client` up to its commit: the body, the results it holds and what is pending after them. -/
def clientChecks (setup : GoogleLiveSetup) (c : GoogleLiveConnection) (wire : Text) :
    Check (Members × List ToolResult × Names) := do
  require (c.ready && !c.closed) "not_ready"
  let body ← parseFrame parse wire
  keys body ["realtimeInput", "clientContent", "toolResponse"]
  require (body.length == 1) "protocol"
  if has body "realtimeInput" then
    realtimeInput setup (get body "realtimeInput")
    return (body, [], c.pending)
  else if has body "clientContent" then
    clientContent toText setup (get body "clientContent")
    return (body, [], c.pending)
  else
    let (results, pending) ← toolResponse setup c.pending (get body "toolResponse")
    return (body, results, pending)

/-! ## 4. Frames of the server -/

/-- A part of a transcript. -/
structure Transcript where
  role : String
  text : Text
  complete : Bool

/-- A call that the server announces. -/
structure ToolCall where
  id : Text
  name : Text
  args : Members

/-- What a frame of the server shows. -/
structure GoogleLiveObservation where
  body : Members
  ready : Bool
  responseDone : Bool
  interrupted : Bool
  audio : List Audio
  transcripts : List Transcript
  calls : List ToolCall
  canceledCalls : List Text
  usage : Option Members

/-- What `serverContent` shows. -/
structure Content where
  turnComplete : Bool
  idle : Bool
  interrupted : Bool
  audio : List Audio
  transcripts : List Transcript

def transcript (setup : GoogleLiveSetup) (content : Members) (field role : String) : Check (List Transcript) :=
  if has content field then do
    let transcript ← object (get content field)
    keys transcript ["text", "finished"]
    bool (get transcript "finished")
    let value ← text (get transcript "text") 65536 true
    return [⟨role, value, (role == "user" && setup.completeInputTranscripts) || isTrue
      (get transcript "finished") ||
      (role == "assistant" && (isTrue (get content "generationComplete") || isTrue
        (get content "turnComplete") ||
        isTrue (get content "interrupted")))⟩]
  else .ok []

/-- One part of `modelTurn`, with the audio that is not a thought. -/
def modelPart (value : Value) : Check (List Audio) := do
  let part ← object (some value)
  keys part ["text", "inlineData", "thought", "thoughtSignature"]
  bool (get part "thought")
  if has part "thoughtSignature" then
    let _ ← text (get part "thoughtSignature") 8192 false
  require (has part "text" != has part "inlineData") "protocol"
  if has part "text" then
    let _ ← text (get part "text") 65536 true
  if has part "inlineData" then
    let audio ← pcm (get part "inlineData") "audio/pcm;rate=24000" (768 * 1024)
    return if isTrue (get part "thought") then [] else [audio]
  else return []

def modelTurn (content : Members) : Check (List Audio) :=
  if has content "modelTurn" then do
    let turn ← object (get content "modelTurn")
    keys turn ["role", "parts"]
    require (!has turn "role" || isText (get turn "role") "model") "protocol"
    let parts ← list (get turn "parts") 1 64
    let audio ← parts.mapM modelPart
    return audio.flatten
  else .ok []

def serverContent (setup : GoogleLiveSetup) (body : Members) : Check Content :=
  if has body "serverContent" then do
    let content ← object (get body "serverContent")
    keys content ["modelTurn", "turnComplete", "generationComplete", "interrupted", "inputTranscription",
      "outputTranscription", "waitingForInput", "interactionStatus"]
    ["turnComplete", "generationComplete", "interrupted", "waitingForInput"].forM fun name =>
      bool (get content name)
    oneOf toText (get content "interactionStatus") ["IDLE", "IN_PROGRESS", "INTERACTION_STATUS_UNSPECIFIED"]
    let input ← transcript setup content "inputTranscription" "user"
    let output ← transcript setup content "outputTranscription" "assistant"
    let audio ← modelTurn content
    return ⟨isTrue (get content "turnComplete"), isText (get content "interactionStatus") "IDLE",
      isTrue (get content "interrupted"), audio, input ++ output⟩
  else .ok ⟨false, false, false, [], []⟩

def callArgs (row : Members) : Check Members := if has row "args" then object (get row "args") else .ok []

/-- One call of `toolCall`, where it is new, and the names that were seen and are pending after it. -/
def takeCall (setup : GoogleLiveSetup) (seen pending : Names) (value : Value) :
    Check (List ToolCall × Names × Names) := do
  let row ← object (some value)
  keys row ["id", "name", "args"]
  let id ← identity (get row "id")
  let name ← toolName (get row "name")
  let args ← callArgs row
  require ((setup.tools.any fun tool => tool.name == name) && (seen.lookup id).all (· == name)) "tool_owner"
  if (seen.lookup id).isSome then return ([], seen, pending)
  else
    require (seen.length < maxCalls) "tool_limit"
    return ([⟨id, name, args⟩], seen ++ [(id, name)], remove pending id ++ [(id, name)])

def takeCalls (setup : GoogleLiveSetup) : List Value → Names → Names → Check (List ToolCall × Names × Names)
  | [], seen, pending => .ok ([], seen, pending)
  | value :: rest, seen, pending => do
    let (call, seen, pending) ← takeCall setup seen pending value
    let (calls, seen, pending) ← takeCalls setup rest seen pending
    return (call ++ calls, seen, pending)

def toolCall (setup : GoogleLiveSetup) (seen pending : Names) (body : Members) :
    Check (List ToolCall × Names × Names) :=
  if has body "toolCall" then do
    let call ← object (get body "toolCall")
    keys call ["functionCalls"]
    let values ← list (get call "functionCalls") 1 32
    takeCalls setup values seen pending
  else .ok ([], seen, pending)

/-- The loop over the ids of `toolCallCancellation`: the ids, those that were pending, and what is
    pending after. -/
def takeCancellations : List Value → Names → Check (List Text × List Text × Names)
  | [], pending => .ok ([], [], pending)
  | value :: rest, pending => do
    let id ← identity (some value)
    let (ids, canceled, after) ← takeCancellations rest (remove pending id)
    return (id :: ids, (if (pending.lookup id).isSome then [id] else []) ++ canceled, after)

def toolCallCancellation (pending : Names) (body : Members) : Check (List Text × List Text × Names) :=
  if has body "toolCallCancellation" then do
    let cancellation ← object (get body "toolCallCancellation")
    keys cancellation ["ids"]
    let values ← list (get cancellation "ids") 1 32
    takeCancellations values pending
  else .ok ([], [], pending)

def isTimeLeft (t : Text) : Bool :=
  let whole := t.takeWhile isDigit
  1 ≤ whole.length && whole.length ≤ 6 &&
    match t.dropWhile isDigit with
    | [last] => last == 0x73
    | point :: rest =>
      let fraction := rest.takeWhile isDigit
      point == 0x2e && 1 ≤ fraction.length && fraction.length ≤ 9 && rest.dropWhile isDigit == [0x73]
    | [] => false

def goAway (body : Members) : Check Unit :=
  if has body "goAway" then do
    let away ← object (get body "goAway")
    keys away ["timeLeft"]
    require ((textOf (get away "timeLeft")).any isTimeLeft) "protocol"
  else .ok ()

def sessionResumptionUpdate (body : Members) : Check Unit :=
  if has body "sessionResumptionUpdate" then do
    let update ← object (get body "sessionResumptionUpdate")
    keys update ["resumable", "newHandle"]
    match get update "resumable" with
    | some (.bool true) => do
      let _ ← text (get update "newHandle") 4096 false
    | some (.bool false) => require (!has update "newHandle" || isText (get update "newHandle") "") "protocol"
    | _ => fail "protocol"
  else .ok ()

def setupComplete (ready : Bool) (body : Members) : Check Bool :=
  if has body "setupComplete" then do
    require (!ready) "duplicate_setup"
    let complete ← object (get body "setupComplete")
    keys complete []
    return true
  else .ok ready

/-- An object that a frame may hold beside its message. -/
def metadata (body : Members) (name : String) : Check (Option Members) :=
  if has body name then do
    let members ← object (get body name)
    return some members
  else .ok none

def messages : List String :=
  ["setupComplete", "serverContent", "toolCall", "toolCallCancellation", "goAway", "sessionResumptionUpdate"]

/-- What a frame of the server stands for: the observation, the ids it cancels, and what is committed. -/
structure Staged where
  observation : GoogleLiveObservation
  cancels : List Text
  interrupted : Bool
  seen : Names
  pending : Names

def serverChecks (setup : GoogleLiveSetup) (c : GoogleLiveConnection) (wire : Text) : Check Staged := do
  require (!c.closed) "closed"
  let body ← parseFrame parse wire
  keys body (messages ++ ["usageMetadata", "voiceActivity"])
  require ((messages.filter fun name => has body name).length ≤ 1 && !body.isEmpty) "protocol"
  require (c.ready || has body "setupComplete") "not_ready"
  let ready ← setupComplete c.ready body
  let usage ← metadata body "usageMetadata"
  let _ ← metadata body "voiceActivity"
  let content ← serverContent toText setup body
  let (calls, seen, called) ← toolCall setup c.seen c.pending body
  let (cancels, canceled, pending) ← toolCallCancellation called body
  goAway body
  sessionResumptionUpdate body
  let interrupted := c.interrupted || content.interrupted
  let responseDone := content.turnComplete && (!setup.extendedThinking || interrupted || content.idle)
  return {
    observation := ⟨body, ready, responseDone, content.interrupted, content.audio,
      content.transcripts, calls, canceled, usage⟩
    cancels := cancels
    interrupted := interrupted && !responseDone
    seen := seen
    pending := pending }

/-! ## 5. Commits -/

/-- Why a frame was rejected: a check failed, or it was one frame too many. -/
inductive Rejection
  | failed (message : String)
  | frameLimit

abbrev Answer (α : Type) := Except Rejection α

namespace GoogleLiveConnection

def close (c : GoogleLiveConnection) : GoogleLiveConnection :=
  { c with closed := true, ready := false, pending := [], seen := [] }

def commit {α β : Type} (c : GoogleLiveConnection) (checked : Check α)
    (assign : α → β × GoogleLiveConnection) :
    Answer β × GoogleLiveConnection :=
  match checked with
  | .error message => (.error (.failed message), c)
  | .ok a =>
    if c.frames + 1 > 4096 then (.error .frameLimit, { c.close with frames := c.frames + 1 })
    else (.ok (assign a).1, { (assign a).2 with frames := c.frames + 1 })

/-- `client(wire)`, with the results that the frame holds. -/
def client (setup : GoogleLiveSetup) (c : GoogleLiveConnection) (wire : Text) :
    Answer (Members × List ToolResult) × GoogleLiveConnection :=
  c.commit (clientChecks toText parse setup c wire) fun (body, results, pending) =>
    ((body, results), { c with pending := pending })

/-- `server(wire)`, with the ids that the frame cancels. -/
def server (setup : GoogleLiveSetup) (c : GoogleLiveConnection) (wire : Text) :
    Answer (GoogleLiveObservation × List Text) × GoogleLiveConnection :=
  c.commit (serverChecks toText parse setup c wire) fun staged =>
    ((staged.observation, staged.cancels),
      { c with ready := staged.observation.ready, interrupted := staged.interrupted, seen :=
        staged.seen, pending := staged.pending })

end GoogleLiveConnection

end Parse

end Frames

end ClawRouter.GoogleLive
