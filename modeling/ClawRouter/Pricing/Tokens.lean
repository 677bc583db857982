/-
  Subject:   Token prices (src/worker/pricing.ts): the rates of a card under a service tier and a
             context length, the estimate that reserves and the cost that settles.

  Rates are micros per million tokens; costs round up once per product sum.

  * `actualModelCost`: what is settled.
-/
import ClawRouter.Pricing.InputBound

namespace ClawRouter.Pricing

open Js

/-! ## 1. Cards -/

/-- The rates of a card, per million tokens. -/
structure TokenRates where
  inputMicrosPerMillion : Nat
  outputMicrosPerMillion : Nat
  cachedInputMicrosPerMillion : Option Nat
  cacheWriteInputMicrosPerMillion : Option Nat
  cacheWrite5mInputMicrosPerMillion : Option Nat
  cacheWrite1hInputMicrosPerMillion : Option Nat
  deriving DecidableEq

/-- The rates above a threshold. -/
structure LongContextPricing extends TokenRates where
  thresholdInputTokens : Nat
  deriving DecidableEq

/-- The rates of a tier. -/
structure ServiceTierPricing extends TokenRates where
  id : String
  aliases : List String
  maxInputTokens : Option Nat
  longContext : Option LongContextPricing
  deriving DecidableEq

/-- The rates of a model. -/
structure TokenPricing extends TokenRates where
  limits : TokenLimits
  longContext : Option LongContextPricing
  serviceTiers : List ServiceTierPricing
  autoServiceTierUnpriced : Bool

/-- The rates that are settled by. -/
structure Rates where
  input : Nat
  output : Nat
  cachedInput : Option Nat
  cacheWriteInput : Option Nat
  cacheWrite5mInput : Option Nat
  cacheWrite1hInput : Option Nat
  deriving DecidableEq

def ratesFromPricing (pricing : TokenRates) : Rates where
  input :=
  pricing.inputMicrosPerMillion
  output := pricing.outputMicrosPerMillion
  cachedInput := pricing.cachedInputMicrosPerMillion
  cacheWriteInput := pricing.cacheWriteInputMicrosPerMillion
  cacheWrite5mInput := pricing.cacheWrite5mInputMicrosPerMillion
  cacheWrite1hInput := pricing.cacheWrite1hInputMicrosPerMillion

def maxOptional : Option Nat → Option Nat → Option Nat
  | none, right => right
  | left, none => left
  | some left, some right => some (max left right)

def maxRates (base extended : Rates) : Rates where
  input :=
  max base.input extended.input
  output := max base.output extended.output
  cachedInput := maxOptional base.cachedInput extended.cachedInput
  cacheWriteInput := maxOptional base.cacheWriteInput extended.cacheWriteInput
  cacheWrite5mInput := maxOptional base.cacheWrite5mInput extended.cacheWrite5mInput
  cacheWrite1hInput := maxOptional base.cacheWrite1hInput extended.cacheWrite1hInput

def contextRates (pricing : TokenRates) (longContext : Option LongContextPricing)
    (inputTokens : Nat) (reserve : Bool) : Rates :=
  let base := ratesFromPricing pricing
  match longContext with
  | none => base
  | some long =>
    if inputTokens ≤ long.thresholdInputTokens then base
    else
      let extended := ratesFromPricing long.toTokenRates
      if reserve then maxRates base extended else extended

/-- `card.id === tier || card.aliases.includes(tier)`. -/
def ServiceTierPricing.answers (card : ServiceTierPricing) : Option Json → Bool
  | some (.str tier) => card.id == tier || card.aliases.contains tier
  | _ => false

def autoUnpriced (pricing : TokenPricing) : Option Json → Bool
  | some (.str tier) => tier == "auto" && pricing.autoServiceTierUnpriced
  | _ => false

/-- The cards an admission reserves for: the one asked for and the default one, or all of them. -/
def candidates (tiers : List ServiceTierPricing) (selected : Option ServiceTierPricing) :
    List ServiceTierPricing :=
  match selected with
  | some selected => tiers.filter fun card => card == selected || card.id == "default"
  | none => tiers

def resolveRates (pricing : TokenPricing) (inputTokens : Nat) (tier : Option Json) : Option Rates :=
  if autoUnpriced pricing tier then none
  else if pricing.serviceTiers = [] then
    some (contextRates pricing.toTokenRates pricing.longContext inputTokens true)
  else
    let selected := pricing.serviceTiers.find? (·.answers tier)
    if Json.present tier ∧ tier.bind Json.str? ≠ some "auto" ∧ selected = none then none
    else
      match (candidates pricing.serviceTiers selected).map fun card =>
        contextRates card.toTokenRates card.longContext
          (min inputTokens (card.maxInputTokens.getD inputTokens)) true with
      | [] => none
      | first :: rest => some (rest.foldl maxRates first)

/-- `resolveRates` without `reserve`: the rates of the served tier. -/
def settledRates (pricing : TokenPricing) (inputTokens : Nat) (tier : Option Json) : Option Rates :=
  if autoUnpriced pricing tier then none
  else if pricing.serviceTiers = [] then
    some (contextRates pricing.toTokenRates pricing.longContext inputTokens false)
  else
    match pricing.serviceTiers.find? (·.answers tier) with
    | none => none
    | some selected =>
      if selected.maxInputTokens.all (inputTokens ≤ ·) then
        some (contextRates selected.toTokenRates selected.longContext inputTokens false)
      else none

/-! ## 2. The estimate -/

def jsonHasKey (value : Json) (target : String) : Bool :=
  value.anyObject fun members => members.any (·.1 == target)

def jsonHasCacheTtl (value : Json) (ttl : String) : Bool :=
  value.anyObject fun members =>
    match (members.lookup "cache_control").bind (·.get? "ttl") with
    | some (.str s) => s == ttl
    | _ => false

def reservationInputRate (body : Json) (rates : Rates) : Nat :=
  let rate := max (max rates.input (rates.cachedInput.getD rates.input))
    (rates.cacheWriteInput.getD rates.input)
  if jsonHasCacheTtl body "1h" then max rate (rates.cacheWrite1hInput.getD rates.input)
  else if jsonHasKey body "cache_control" then max rate (rates.cacheWrite5mInput.getD rates.input)
  else rate

def ceilMillion (total : Nat) : Nat := (total + 999999) / 1000000

def tokenCost (tokens rate : Nat) : Nat := ceilMillion (tokens * rate)

/-- What is reserved for a request. -/
structure CostEstimate where
  reserveMicros : Nat
  inputTokens : Option Nat
  outputTokens : Option Nat
  pricingAvailable : Bool
  deriving DecidableEq

def unpricedGoogleRequestFormats : List String :=
  ["google.grounded_search", "google.audio_understanding", "google.video_understanding"]
def unpricedNativeAudioFormats : List String :=
  ["groq.transcription", "mistral.transcription", "xai.stt", "xai.tts"]
/-- The formats `googleImageRequest` and `googleAudioRequest` know without reading the body. -/
def googleMediaFormats : List String :=
  ["google.image_generate", "google.music_generate", "google.speech_generate_content",
    "google.speech_interactions"]

def unpricedFormat (requestFormat : Option String) : Bool :=
  match requestFormat with
  | none => false
  | some format => unpricedGoogleRequestFormats.contains format ||
      unpricedNativeAudioFormats.contains format || googleMediaFormats.contains format

section Estimate

variable (claudeImageBlockBound : Json → Option InlineImageBound)

def estimateModelCost (pricing : TokenPricing) (body : Json) (endpoint : Option PricingEndpoint) :
    CostEstimate :=
  if unpricedFormat (endpoint.map (·.requestFormat)) then ⟨0, none, none, false⟩
  else
    match inputTokenBound claudeImageBlockBound pricing.limits endpoint body with
    | none => ⟨0, none, none, false⟩
    | some inputTokens =>
      let outputTokens := outputTokenBound pricing.limits endpoint body
      match resolveRates pricing inputTokens (body.get? "service_tier") with
      | none => ⟨0, some inputTokens, some outputTokens, false⟩
      | some rates =>
        ⟨saturatingAdd (tokenCost inputTokens (reservationInputRate body rates))
          (tokenCost outputTokens rates.output), some inputTokens, some outputTokens, true⟩

end Estimate

/-! ## 3. The settlement -/

/-- The tokens Cohere bills. -/
structure BilledTokens where
  input : Option Nat
  output : Option Nat
  deriving DecidableEq

/-- The tokens that are priced. -/
structure PricedTokens where
  serviceTier : Option String
  billable : Bool
  billedTokens : Option BilledTokens
  input : Option Nat
  output : Option Nat
  cached : Option Nat
  cacheWrite : Option Nat
  cacheWrite5m : Option Nat
  cacheWrite1h : Option Nat
  deriving DecidableEq

def Rates.write5mRate (rates : Rates) : Nat := rates.cacheWrite5mInput.getD rates.input
def Rates.write1hRate (rates : Rates) : Nat := rates.cacheWrite1hInput.getD rates.write5mRate
def Rates.genericWriteRate (rates : Rates) : Nat :=
  rates.cacheWriteInput.getD (max rates.write5mRate rates.write1hRate)

/-- The part of the usage that is priced: the billed tokens where a provider reports them. -/
def pricedTokens (tokens : PricedTokens) (requestFormat : Option String) : Option PricedTokens :=
  if requestFormat = some "cohere.chat" ∨ tokens.billedTokens.isSome then
    tokens.billedTokens.map fun billed =>
      { tokens with
        input := billed.input, output := billed.output, cached := none, cacheWrite := none
        cacheWrite5m := none, cacheWrite1h := none }
  else some tokens

/-- The input of a usage by the rate it is charged at. -/
structure InputSplit where
  remaining : Nat
  cached : Nat
  write5m : Nat
  write1h : Nat
  genericWrite : Nat

def splitInput (tokens : PricedTokens) (input : Nat) : InputSplit :=
  let cached := min input (tokens.cached.getD 0)
  let remaining := input - cached
  let write5m := min remaining (tokens.cacheWrite5m.getD 0)
  let remaining := remaining - write5m
  let write1h := min remaining (tokens.cacheWrite1h.getD 0)
  let remaining := remaining - write1h
  let genericWrite := min remaining (tokens.cacheWrite.getD 0 - write5m - write1h)
  ⟨remaining - genericWrite, cached, write5m, write1h, genericWrite⟩

/-- The product sum of `weightedTokenCost`, before it is rounded. -/
def weightedTokens (rates : Rates) (split : InputSplit) (output : Nat) : Nat :=
  split.remaining * rates.input + split.cached * rates.cachedInput.getD rates.input +
    split.write5m * rates.write5mRate + split.write1h * rates.write1hRate +
    split.genericWrite * rates.genericWriteRate + output * rates.output

def actualModelCost (pricing : TokenPricing) (tokens : PricedTokens)
    (requestFormat : Option String) : Option Nat :=
  if unpricedFormat requestFormat then none
  else if tokens.billable = false then some 0
  else
    match pricedTokens tokens requestFormat with
    | none => none
    | some tokens =>
      match tokens.input with
      | none => none
      | some input =>
        match settledRates pricing input (tokens.serviceTier.map .str) with
        | none => none
        | some rates =>
          if tokens.output = none ∧ 0 < rates.output then none
          else if rates.cacheWriteInput.isSome ∧ tokens.cacheWrite = none then none
          else some (ceilMillion (weightedTokens rates (splitInput tokens input) (tokens.output.getD 0)))

end ClawRouter.Pricing
