/-
  Subject:   The token bounds of a request body (src/worker/pricing.ts): which input has no bound
             but the model's window, how many tokens the rest can have, and how much output was
             asked for.

  The wire formats are those other than `google.generate_content`, whose body has fields of its
  own. The header of an inline image is read by `claudeImageBlockBound`, a parameter of every
  function that needs it.

  * `outputTokenBound`: the output tokens it reserves.
-/
import ClawRouter.Lib.Json

namespace ClawRouter.Pricing

open Js

def saturatingAdd (left right : Nat) : Nat := min maxSafeInteger (left + right)
def saturatingMultiply (left right : Nat) : Nat := min maxSafeInteger (left * right)

def nonNegativeInteger : Option Json → Option Nat
  | some (.int n) => if 0 ≤ n ∧ n ≤ maxSafeInteger then some n.toNat else none
  | _ => none

/-- What an image in a body counts for. -/
structure InlineImageBound where
  encodedBytes : Nat
  tokens : Nat

/-! ## 1. Input without a bound of its own -/

def unboundedKinds : List String :=
  ["image", "image_url", "video_url", "document", "file", "input_image", "input_file",
    "item_reference", "computer_screenshot"]

/-- The members of an object that is media or a reference. -/
def unboundedMembers (members : List (String × Json)) : Bool :=
  (match members.lookup "type" with
    | some (.str kind) => unboundedKinds.contains kind
    | _ => false) ||
  members.any fun m => ["image_url", "video_url", "file_id"].contains m.1

def contentHasUnboundedInput (value : Json) : Bool := value.anyObject unboundedMembers

def providerAddedTool : Option Json → Bool
  | some (.str name) =>
    ["web_fetch_", "bash_", "text_editor_", "computer_", "memory_"].any fun p => name.startsWith p
  | _ => false

section Images

variable (claudeImageBlockBound : Json → Option InlineImageBound)

/-- A block that is an image with a bound adds it to `images`. -/
def qualifiedClaudeImage (block : Json) (images : InlineImageBound) : Bool × InlineImageBound :=
  match if Json.isObject block then claudeImageBlockBound block else none with
  | none => (false, images)
  | some image => (true, ⟨images.encodedBytes + image.encodedBytes, saturatingAdd images.tokens image.tokens⟩)

/-- `Array.some` of a test that may add to `images`: it stops at the first item that meets it. -/
def someItem (test : Json → InlineImageBound → Bool × InlineImageBound) :
    List Json → InlineImageBound → Bool × InlineImageBound
  | [], images => (false, images)
  | item :: rest, images =>
    match test item images with
    | (true, images) => (true, images)
    | (false, images) => someItem test rest images

/-- An image with a bound, or content that has one. -/
def claudeBlockHasUnboundedInput (block : Json) (images : InlineImageBound) : Bool × InlineImageBound :=
  match qualifiedClaudeImage claudeImageBlockBound block images with
  | (true, images) => (false, images)
  | (false, images) => (contentHasUnboundedInput block, images)

def claudeUserContentHasUnboundedInput (content : Json) (images : InlineImageBound) :
    Bool × InlineImageBound :=
  match content with
  | .arr blocks => someItem (fun block images =>
    match block with
    | .obj members =>
      match members.lookup "type", members.lookup "content" with
      | some (.str "tool_result"), some (.arr nested) =>
        if members.any fun m => m.1 ≠ "content" && contentHasUnboundedInput m.2 then
          (true, images)
        else someItem (claudeBlockHasUnboundedInput claudeImageBlockBound) nested images
      | _, _ => claudeBlockHasUnboundedInput claudeImageBlockBound block images
    | _ => (false, images)) blocks images
  | content => (contentHasUnboundedInput content, images)

/-- One message; `images` counts only on the wire whose images have a bound. -/
def messageHasUnboundedInput (countImages : Bool) (message : Json) (images : InlineImageBound) :
    Bool × InlineImageBound :=
  match message with
  | .obj members =>
    match members.lookup "content" with
    | none => (false, images)
    | some content =>
      match countImages, members.lookup "role" with
      | true, some (.str "user") =>
        claudeUserContentHasUnboundedInput claudeImageBlockBound content images
      | _, _ => (contentHasUnboundedInput content, images)
  | _ => (false, images)

def requestHasUnboundedInput (countImages : Bool) (body : Json) : Bool × InlineImageBound :=
  if ["previous_response_id", "conversation", "prompt"].any fun key => Json.present (body.get? key)
  then (true, ⟨0, 0⟩)
  else if (match body.get? "input" with
    | some input => contentHasUnboundedInput input
    | none => false) then (true, ⟨0, 0⟩)
  else
    match someItem (messageHasUnboundedInput claudeImageBlockBound countImages)
        (Json.items (body.get? "messages")) ⟨0, 0⟩ with
    | (true, images) => (true, images)
    | (false, images) =>
      ((Json.items (body.get? "tools")).any fun tool => providerAddedTool (tool.get? "type"), images)

end Images

/-- Responses state that is sealed: its size does not bound what it decodes to. -/
def responsesHasOpaqueInput (body : Json) : Bool :=
  (Json.items (body.get? "input")).any fun item =>
    match item.get? "type" with
    | some (.str "compaction") => true
    | some (.str "reasoning") => (item.get? "encrypted_content").isSome
    | _ => false

/-! ## 2. The bounds -/

/-- The field that limits the output. -/
structure OutputTokenLimit where
  field : String
  minimum : Nat
  maximum : Nat

/-- An endpoint, as prices depend on it. -/
structure PricingEndpoint where
  requestFormat : String
  outputTokenLimit : Option OutputTokenLimit

/-- The limits of a model that bound a request. -/
structure TokenLimits where
  maxInputTokens : Nat
  maxRequestInputTokens : Option Nat
  defaultMaxOutputTokens : Nat
  inputTokenOverhead : Nat

def opaqueInputLimit (limits : TokenLimits) : Option Nat :=
  let limit := limits.maxRequestInputTokens.getD limits.maxInputTokens
  if limit ≤ maxSafeInteger ∧ 0 < limit then some limit else none

def opaqueInput (endpoint : Option PricingEndpoint) (body : Json) : Bool :=
  (match endpoint with
    | none => true
    | some e => e.requestFormat == "openai.responses" ||
        e.requestFormat == "openai.responses_compact") && responsesHasOpaqueInput body

/-- `inputTokens` of an estimate; `none` where sealed input has no limit. -/
def inputTokenBound (claudeImageBlockBound : Json → Option InlineImageBound) (limits : TokenLimits)
    (endpoint : Option PricingEndpoint) (body : Json) : Option Nat :=
  let sealed := opaqueInput endpoint body
  let inputLimit := limits.maxRequestInputTokens.getD limits.maxInputTokens
  if sealed then opaqueInputLimit limits
  else
    let countImages := (endpoint.map (·.requestFormat)) == some "anthropic.messages"
    match requestHasUnboundedInput claudeImageBlockBound countImages body with
    | (true, _) => some inputLimit
    | (false, images) =>
      -- the encoded bytes of the images are part of the body
      some (min inputLimit (saturatingAdd (saturatingAdd (body.byteSize - images.encodedBytes) images.tokens)
        limits.inputTokenOverhead))

def outputTokenBound (limits : TokenLimits) (endpoint : Option PricingEndpoint) (body : Json) : Nat :=
  let requestedOutput := ["max_output_tokens", "max_completion_tokens", "max_tokens"].filterMap
    fun field => nonNegativeInteger (body.get? field)
  let choices := max 1 ((nonNegativeInteger (body.get? "n")).getD 1)
  let output := match endpoint.bind (·.outputTokenLimit) with
    | some limit =>
      match nonNegativeInteger (body.get? limit.field) with
      | some declared =>
        if limit.minimum ≤ declared ∧ declared ≤ limit.maximum then declared else limit.maximum
      | none => limit.maximum
    | none =>
      match requestedOutput with
      | [] => limits.defaultMaxOutputTokens
      | first :: rest => rest.foldl max first
  if (endpoint.map (·.requestFormat)) == some "openai.responses_compact" then
    limits.defaultMaxOutputTokens
  else saturatingMultiply output choices

end ClawRouter.Pricing
