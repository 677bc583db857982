/-
  Subject:   The accounting state of an event stream (src/worker/token-usage.ts,
             `createSseUsageAccumulator`).

  * `accept`, `unfinished`, `result`: the three methods.
-/
import ClawRouter.Inspect.Tokens

namespace ClawRouter.Inspect

open Utf16 Js

/-- What an event is evidence of. -/
inductive SseUsageEvidence
  | data (value : Value)
  | done
  | error (value : Option Value)
  | invalid
  | unavailable

def SseUsageEvidence.root : SseUsageEvidence → Option Members
  | .data value => record (some value)
  | .error value => record value
  | _ => none

def nonemptyOutput : Option Value → Bool
  | some (.arr items) => !items.isEmpty
  | output => (nullish output).isSome

def rejectionOnlyEvidence (evidence : SseUsageEvidence) (context : Option UsageTokenContext) : Bool :=
  let root := evidence.root
  let outputs := [root.bind (get · "output"), (record (root.bind (get · "response"))).bind (get · "output")]
  if root.isSome && ((extractUsageTokens (root.map .obj) context).isSome ||
    outputs.any nonemptyOutput) then false
  else
    match evidence with
    | .error _ => true
    | .done => true
    | _ => isText (root.bind (get · "type")) "message_stop" ||
        responseOutcome (root.map .obj) == some .providerError

/-- The protocol of a stream. -/
inductive Protocol
  | message
  | response
  | chat
  | cohere
  deriving DecidableEq

/-- `message` of the closure; `empty` says whether its content is still an empty array. -/
structure Message where
  stopReason : Option Value
  empty : Bool

/-- What a stream has shown. -/
structure UsageInspection where
  tokens : Option UsageTokens
  outcome : Option ResponseOutcome
  deriving DecidableEq

/-- The state of `createUsageAccumulator`. -/
structure Accumulator where
  provisionalRejection : Bool
  found : Option UsageTokens
  terminalTokens : Option UsageTokens
  message : Option Message
  messageUsage : Option Members
  messageDeltaSeen : Bool
  uncertain : Bool
  protocol : Option Protocol
  outcome : Option ResponseOutcome
  chatTier : Option Text
  /-- The calls of `revokeRejection`. -/
  revoked : Nat

/-- `revokes` says whether a callback was given. -/
def createSseUsageAccumulator (revokes : Bool) : Accumulator :=
  ⟨revokes, none, none, none, none, false, false, none, none, none, 0⟩

def Message.members (message : Option Message) (usage : Members) : Members :=
  let fields := match message with
    | none => []
    | some m =>
      [(text "type", Value.str (text "message"))] ++
        (m.stopReason.map fun reason => (text "stop_reason", reason)).toList ++
        if m.empty then [(text "content", .arr [])] else []
  fields ++ [(text "usage", .obj usage)]

namespace Accumulator

def continuedWork (s : Accumulator) : Accumulator :=
  if !s.provisionalRejection then s
  else { s with provisionalRejection := false, revoked := s.revoked + 1, outcome := none, terminalTokens := none }

/-- The updates of a delta, with the buckets of a cache creation merged. -/
def deltaUpdates (delta usage : Members) : Members :=
  let updates := delta.filter fun m =>
    (nullish (some m.2)).isSome && !(m.1 == text "inference_geo" && isText (some m.2) "not_available")
  match record (get updates "cache_creation") with
  | some creation =>
    set updates (text "cache_creation") (.obj
      (assign ((record (get usage "cache_creation")).getD []) creation))
  | none => updates

/-- A document that is neither terminal nor an error, by its type. -/
def acceptDocument (s : Accumulator) (root : Members) (context : Option UsageTokenContext) : Accumulator :=
  let type := get root "type"
  if isText type "message_start" then
    let initial := record (get root "message")
    let content := match initial.bind (get · "content") with
      | some (.arr []) => true
      | _ => false
    { s with
      protocol := some .message
      message := some ⟨initial.bind (get · "stop_reason"), content⟩
      messageUsage := messageCounters (usageRecord (some root))
      messageDeltaSeen := false }
  else if isText type "message_delta" then
    match s.messageUsage with
    | none => s
    | some usage =>
      let messageDelta := record (get root "delta")
      let message := match s.message, messageDelta with
        | some m, some d => if has d "stop_reason" then some { m with stopReason := get d "stop_reason" } else some m
        | m, _ => m
      let delta := messageCounters (usageRecord (some root))
      { s with
        message := message
        messageDeltaSeen := delta.any fun delta => (pickNumber delta ["output_tokens"]).isSome
        messageUsage := match delta with
          | some delta => some (assign usage (deltaUpdates delta usage))
          | none => some usage }
  else if isText type "content_block_start" || isText type "content_block_delta" then
    { s with message := s.message.map fun m => { m with empty := false } }
  else if isText type "message_stop" then
    { s with
      outcome := some .success
      terminalTokens := match s.messageUsage with
        | some usage =>
          if s.messageDeltaSeen then extractUsageTokens
            (some (.obj (Message.members s.message usage))) context
          else none
        | none => none }
  else
    let tokens := extractUsageTokens (some (.obj root)) context
    { s with
      found := if has root "usageMetadata" || has root "usage_metadata" then tokens else tokens <|> s.found }

def cohereFronts : List String := ["message-", "content-", "tool-call-", "tool-plan-", "citation-"]

def noteProtocol (s : Accumulator) (root : Members) : Accumulator :=
  let type := textOf (get root "type")
  let s := if type.any (startsWith (text "response.")) then { s with protocol := some .response } else s
  let s := if type.any fun t => cohereFronts.any fun front => startsWith (text front) t then
      { s with protocol := some .cohere }
    else s
  if isText (get root "object") "chat.completion.chunk" then
    { s with protocol := some .chat, chatTier := extractServiceTier (some root) <|> s.chatTier }
  else s

def acceptBroken (s : Accumulator) : Accumulator :=
  { s with outcome := if s.protocol.isSome then some .providerError else s.outcome, found := none }

def accept (context : Option UsageTokenContext) (revokes : Bool) (s : Accumulator)
    (evidence : SseUsageEvidence) :
    Accumulator :=
  let root := evidence.root
  let s := if s.provisionalRejection && !rejectionOnlyEvidence evidence context then s.continuedWork else s
  match evidence with
  | .unavailable => { s with uncertain := true, found := none, messageUsage := none }
  | .error _ =>
    { s with
      terminalTokens :=
        if revokes && !s.provisionalRejection && s.outcome.isNone then
          extractUsageTokens (root.map .obj) context
        else s.terminalTokens
      outcome := some .providerError }
  | .done =>
    if s.outcome.isSome then s
    else if s.protocol = some .message ∨ s.protocol = some .response ∨ s.protocol = some .cohere then
      { s with outcome := some .providerError }
    else
      { s with
        outcome := some .success
        terminalTokens := match s.found, s.chatTier with
          | some found, some tier => some { found with serviceTier := some (some tier) }
          | found, _ => found }
  | .invalid => if s.outcome.isSome then s else s.acceptBroken
  | .data _ =>
    if s.outcome.isSome then s
    else
      match root with
      | none => s.acceptBroken
      | some members =>
        match responseOutcome (some (.obj members)) with
        | some terminal =>
          { s with outcome := some terminal, terminalTokens :=
            extractUsageTokens (some (.obj members)) context }
        | none => (s.noteProtocol members).acceptDocument members context

/-- Data that no boundary of the stream completed. -/
def unfinished (context : Option UsageTokenContext) (s : Accumulator) (evidence : Option SseUsageEvidence) :
    Accumulator :=
  match evidence with
  | none => s
  | some evidence =>
    if s.provisionalRejection && !rejectionOnlyEvidence evidence context then
      { s.continuedWork with uncertain := true, found := none, messageUsage := none }
    else s

def result (s : Accumulator) (ended overflowed : Bool) : UsageInspection × Accumulator :=
  let s := if overflowed then s.continuedWork else s
  ({ tokens := if s.outcome.isSome then s.terminalTokens
       else if s.protocol.isSome || !ended then none
       else s.found
     outcome := s.outcome <|>
       if ended && s.protocol.isSome && !s.uncertain && !overflowed then some .providerError else none }, s)

end Accumulator

end ClawRouter.Inspect
