/-
  Subject:   The usage and the outcome a provider's document reports (src/worker/token-usage.ts,
             `extractUsageTokens` and `responseOutcome`; src/worker/google-protocol.ts and
             src/worker/anthropic-pricing.ts as far as they read usage).

  A field that may be absent or null is an `Option` of an `Option`.

  * `messageCounters`: what is kept of the usage of an Anthropic stream.
-/
import ClawRouter.Lib.Value

namespace ClawRouter.Inspect

open Utf16 Js

/-! ## 1. Numbers and names -/

def numeric : Option Value → Option Double
  | some (.num (.finite q)) => if 0 ≤ q then some (.finite q.floor) else none
  | _ => none

/-- The first of the keys that counts something. -/
def pickNumber (value : Members) (keys : List String) : Option Double :=
  keys.findSome? fun key => numeric (get value key)

def isCount (n : Double) : Bool := n.isSafeInteger && Double.zero.le n

def subsetCounter (value : Option Value) (inclusive : Option Double) : Option Double :=
  match value, inclusive with
  | some (.num n), some inclusive => if isCount n && n.le inclusive then some n else none
  | _, _ => none

def searchRequests : Option Value → Option Double
  | some (.num n) => if isCount n then some n else none
  | _ => none

def tierName (t : Text) : Bool :=
  let lower := fun u : UInt16 => 0x61 ≤ u && u ≤ 0x7a
  let later := fun u : UInt16 => lower u || (0x30 ≤ u && u ≤ 0x39) || u == 0x5f || u == 0x2d
  match t with
  | [] => false
  | u :: rest => lower u && rest.all later && rest.length ≤ 63

def extractServiceTier (root : Option Members) : Option Text :=
  match root.bind (get · "service_tier") with
  | some (.str tier) => if tierName tier then some tier else none
  | _ => none

def usageRecord (root : Option Members) : Option Members :=
  root.bind fun root =>
    record (nullish (get root "usage") <|> nullish ((record (get root "response")).bind (get · "usage")) <|>
      nullish ((record (get root "message")).bind (get · "usage")) <|>
      get root "meta")

/-! ## 2. What the providers report -/

/-- What a response says of its premiums. -/
structure AnthropicModifiers where
  speed : Option (Option Text)
  inferenceGeo : Option (Option Text)
  serviceTier : Option (Option Text)
  deriving DecidableEq

/-- The tokens a response reports. -/
structure UsageTokens where
  reasoning : Option (Option Double)
  webSearchRequests : Option (Option Double)
  serviceTier : Option (Option Text)
  anthropic : Option AnthropicModifiers
  input : Option Double
  output : Option Double
  total : Option Double
  cached : Option Double
  cacheWrite : Option Double
  cacheWrite5m : Option Double
  cacheWrite1h : Option Double
  /-- `billable: false`. -/
  unbilled : Bool
  billedTokens : Option (Option Double × Option Double)
  deriving DecidableEq

/-- Where a usage is from. -/
structure UsageTokenContext where
  providerId : String
  requestFormat : String
  responseFormat : String
  deriving DecidableEq

def modifier (value : Members) (wire : String) : Option (Option Text) :=
  match get value wire with
  | none => none
  | some .null => some none
  | some (.str s) => some (some (if s.length ≤ 64 then s else text "invalid"))
  | some _ => some (some (text "invalid"))

def anthropicModifiers (value : Members) : AnthropicModifiers where
  speed :=
  modifier value "speed"
  inferenceGeo := modifier value "inference_geo"
  serviceTier := modifier value "service_tier"

def AnthropicModifiers.reported (m : AnthropicModifiers) : Bool :=
  m.speed.isSome || m.inferenceGeo.isSome || m.serviceTier.isSome

def googleField (value : Option Value) (camel proto : String) : Option Value :=
  ((record value).getD []).foldl
    (fun found m => if m.1 == text camel || m.1 == text proto then some m.2 else found) none

def isDigit (u : UInt16) : Bool := 0x30 ≤ u && u ≤ 0x39

def natOf (digits : Text) : Nat := digits.foldl (fun n u => n * 10 + (u.toNat - 0x30)) 0

def signOf : Text → Bool × Text
  | 0x2b :: rest => (false, rest)
  | 0x2d :: rest => (true, rest)
  | t => (false, t)

/-- The value of a decimal text, `/^[+-]?(?:\d+(?:\.\d*)?|\.\d+)(?:e[+-]?\d+)?$/i`. -/
def decimal (t : Text) : Option Rat :=
  let (negative, t) := signOf t
  let whole := t.takeWhile isDigit
  let t := t.dropWhile isDigit
  let (part, t) := match t with
    | 0x2e :: rest => (rest.takeWhile isDigit, rest.dropWhile isDigit)
    | t => ([], t)
  let mantissa : Rat := natOf (whole ++ part) / 10 ^ part.length
  let value := if negative then -mantissa else mantissa
  if whole = [] ∧ part = [] then none
  else
    match t with
    | [] => some value
    | e :: rest =>
      let (down, digits) := signOf rest
      if (e == 0x65 || e == 0x45) && digits != [] && digits.all isDigit then
        some (if down then value / 10 ^ natOf digits else value * 10 ^ natOf digits)
      else none

def googleInt32 (value : Option Value) : Option Double :=
  let number := match value with
    | some (.str s) => (decimal s).map Double.round
    | some (.num n) => some n
    | _ => none
  number.filter fun n => n.isInteger && Double.zero.le n && n.le (.finite 2147483647)

def googleServiceTier : Option Value → Option Text
  | some (.str s) =>
    if s = text "unspecified" then some (text "standard")
    else if s = text "standard" ∨ s = text "flex" ∨ s = text "priority" then some s else none
  | _ => none

def googleUsageTokens (value : Option Value) : Option UsageTokens := do
  let _ ← record value
  let counter := fun camel proto => googleInt32 (nullish (googleField value camel proto) <|> some (.num .zero))
  let input ← counter "promptTokenCount" "prompt_token_count"
  let cached ← counter "cachedContentTokenCount" "cached_content_token_count"
  let candidates ← counter "candidatesTokenCount" "candidates_token_count"
  let thoughts ← counter "thoughtsTokenCount" "thoughts_token_count"
  let total ← counter "totalTokenCount" "total_token_count"
  let tier := nullish (googleField value "serviceTier" "service_tier")
  some {
    reasoning := some (some thoughts), webSearchRequests := none
    serviceTier := tier.map fun tier => googleServiceTier (some tier)
    anthropic := none, input := some input, output := some (candidates.add thoughts), total := some total
    cached := some cached, cacheWrite := none, cacheWrite5m := none, cacheWrite1h := none
    unbilled := false, billedTokens := none }

/-- Observed context, apart from the units that are billed. -/
def cohereUsageTokens (usage : Members) : UsageTokens :=
  let observed := record (get usage "tokens")
  let billed := record (get usage "billed_units")
  let count := fun (members : Option Members) name => searchRequests (members.bind (get · name))
  let input := count observed "input_tokens"
  let output := count observed "output_tokens"
  let total := match input, output with
    | some input, some output => if (input.add output).isSafeInteger then some (input.add output) else none
    | _, _ => none
  { reasoning := none, webSearchRequests := none, serviceTier := none, anthropic := none
    input := input, output := output, total := total
    cached := none, cacheWrite := none, cacheWrite5m := none, cacheWrite1h := none, unbilled := false
    billedTokens := some (count billed "input_tokens", count billed "output_tokens") }

/-- The discount of a prompt, from evidence that does not conflict. -/
def promptCachedTokens (usage : Members) (details : Option Members) (input : Option Double)
    (context : Option UsageTokenContext) : Option Double :=
  let stepfun := context.any fun c => (c.providerId == "stepfun" || c.providerId == "stepfun-cn") &&
    c.requestFormat == "openai.chat_completions" && c.responseFormat == "openai.chat_completions"
  let hits := ([details.bind (get · "cached_tokens"), details.bind (get · "cache_read_input_tokens"),
    get usage "prompt_cache_hit_tokens"] ++ if stepfun then [get usage "cached_tokens"] else []).filterMap id
  match input, get usage "prompt_tokens", hits with
  | some input, some (.num prompt), .num hit :: _ =>
    let bad := fun
      | Value.num n => !isCount n || !n.le input || n != hit
      | _ => true
    let missed := match get usage "prompt_cache_miss_tokens" with
      | none => true
      | some (.num (.finite miss)) =>
        match input, hit with
        | .finite input, .finite hit => isCount (.finite miss) && miss == input - hit
        | _, _ => false
      | some _ => false
    if !prompt.isSafeInteger || prompt != input || hits.any bad || !missed then none else some hit
  | _, _, _ => none

def extractUsageTokens (value : Option Value) (context : Option UsageTokenContext) : Option UsageTokens := do
  let root := record value
  if root.any fun root => has root "usageMetadata" || has root "usage_metadata" then
    googleUsageTokens (googleField value "usageMetadata" "usage_metadata")
  else
    let type := root.bind (get · "type")
    let usage ← if isText type "message-end" then
        record ((record (root.bind (get · "delta"))).bind (get · "usage"))
      else usageRecord root
    if has usage "tokens" || has usage "billed_units" then some (cohereUsageTokens usage)
    else
      let reportedInput := pickNumber usage ["input_tokens", "prompt_tokens", "inputTokens"]
      let output := pickNumber usage ["output_tokens", "completion_tokens", "outputTokens"]
      let details := record (nullish (get usage "prompt_tokens_details") <|> get usage "input_tokens_details")
      let outputDetails :=
        record (nullish (get usage "output_tokens_details") <|> get usage "completion_tokens_details")
      let reportedReasoning := outputDetails.bind fun details =>
        if has details "reasoning_tokens" then
          some (subsetCounter (get details "reasoning_tokens") output) else none
      let inclusivePrompt := has usage "prompt_tokens"
      let cached := if inclusivePrompt then promptCachedTokens usage details reportedInput context
        else
          match details with
          | some details => pickNumber details ["cached_tokens", "cache_read_input_tokens"]
          | none => pickNumber usage ["cache_read_input_tokens"]
      let cacheCreation := record (get usage "cache_creation")
      let cacheWrite5m := match cacheCreation with
        | some creation => pickNumber creation ["ephemeral_5m_input_tokens"]
        | none => pickNumber usage ["cache_creation_ephemeral_5m_input_tokens"]
      let cacheWrite1h := match cacheCreation with
        | some creation => pickNumber creation ["ephemeral_1h_input_tokens"]
        | none => pickNumber usage ["cache_creation_ephemeral_1h_input_tokens"]
      let cacheWrite := (details.bind (pickNumber · ["cache_write_tokens"])) <|>
        pickNumber usage ["cache_creation_input_tokens"] <|>
        if cacheWrite5m.isSome || cacheWrite1h.isSome then
          some ((cacheWrite5m.getD .zero).add (cacheWrite1h.getD .zero))
        else none
      -- top-level buckets exclude the ordinary input, details and prompt totals include it
      let input := reportedInput.map fun reported =>
        reported.add
          (if details.isSome || inclusivePrompt then .zero else (cached.getD .zero).add
            (cacheWrite.getD .zero))
      let total := pickNumber usage ["total_tokens", "totalTokens"] <|>
        if input.isSome || output.isSome then some ((input.getD .zero).add (output.getD .zero)) else none
      let emptyContent := match root.bind (get · "content") with
        | some (.arr []) => true
        | _ => false
      let unbilled := isText type "message" && isText (root.bind (get · "stop_reason")) "refusal" &&
        emptyContent &&
        output == some .zero
      let modifiers := anthropicModifiers usage
      let serviceTier := match modifiers.serviceTier with
        | some tier => some tier
        | none =>
          (extractServiceTier (record (root.bind (get · "response")) <|> root)).map some
      some {
        reasoning := reportedReasoning
        webSearchRequests := if isText type "message" && has usage "server_tool_use" then
            some (searchRequests ((record (get usage "server_tool_use")).bind (get · "web_search_requests")))
          else none
        serviceTier := serviceTier
        anthropic := if modifiers.reported then some modifiers else none
        input := input, output := output, total := total, cached := cached, cacheWrite := cacheWrite
        cacheWrite5m := cacheWrite5m, cacheWrite1h := cacheWrite1h, unbilled :=
          unbilled, billedTokens := none }

/-! ## 3. Outcomes -/

/-- How a response ended. -/
inductive ResponseOutcome
  | success
  | providerError
  deriving DecidableEq

def responseOutcome (value : Option Value) : Option ResponseOutcome := do
  let root ← record value
  let type := get root "type"
  if truthy (get root "error") || isText type "error" || isText type "response.failed" ||
      isText type "response.cancelled" then some .providerError
  else if isText type "message-end" then
    let reason := (record (get root "delta")).bind (get · "finish_reason")
    if ["COMPLETE", "STOP_SEQUENCE", "MAX_TOKENS", "TOOL_CALL"].any (isText reason) then some .success
    else some .providerError
  else if isText type "response.completed" || isText type "response.incomplete" then some .success
  else
    let response := record (get root "response") <|> if isText (get root "object") "response" then
      some root else none
    let status := response.bind (get · "status")
    if isText status "failed" || isText status "cancelled" then some .providerError
    else if isText status "completed" || isText status "incomplete" then some .success
    else none

/-! ## 4. The counters of a message -/

/-- A text of 64 units at most, null, or a mark that it was neither. -/
def boundedText : Value → Value
  | .null => .null
  | .str s => .str (if s.length ≤ 64 then s else text "invalid")
  | _ => .str (text "invalid")

def counterKeys : List String :=
  ["input_tokens", "output_tokens", "cache_read_input_tokens", "cache_creation_input_tokens",
    "cache_creation_ephemeral_5m_input_tokens", "cache_creation_ephemeral_1h_input_tokens"]

/-- The members under the keys that count something. -/
def countersOf (members : Members) (keys : List String) : Members :=
  keys.filterMap fun key =>
    if (numeric (get members key)).isSome then (get members key).map fun value => (text key, value) else none

def nullable : Option Double → Value
  | some n => .num n
  | none => .null

def messageCounters (usage : Option Members) : Option Members :=
  usage.map fun usage =>
    let counters := countersOf usage counterKeys
    let serverTools := record (get usage "server_tool_use")
    let counters := if has usage "server_tool_use" && serverTools.all (has · "web_search_requests") then
        let requests := searchRequests (serverTools.bind (get · "web_search_requests"))
        set counters (text "server_tool_use") (.obj [(text "web_search_requests", nullable requests)])
      else counters
    let counters := ["speed", "inference_geo", "service_tier"].foldl (fun counters key =>
      match get usage key with
      | some value => set counters (text key) (boundedText value)
      | none => counters) counters
    match record (get usage "cache_creation") with
    | some creation =>
      set counters (text "cache_creation")
        (.obj (countersOf creation ["ephemeral_5m_input_tokens", "ephemeral_1h_input_tokens"]))
    | none => counters

end ClawRouter.Inspect
