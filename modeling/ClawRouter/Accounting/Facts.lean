/-
  Subject:   What a receipt is computed from: the frozen facts of a request and its outcome
             (src/worker/proxy-accounting.ts), and the prices either of them selects
             (`anthropicPricing` of src/worker/anthropic-pricing.ts, `reportingEstimate` of
             src/worker/reporting-estimate.ts, `hostedSearchCost` of src/worker/pricing.ts,
             `settleRequestTariff` of src/worker/request-tariff.ts).

  Amounts of money are integers, counters and rates naturals. A member that may be absent or null is
  an `Option` where the source reads both alike.

  * `reportingEstimate`: the estimate that is reported but never charged.
-/
import ClawRouter.Pricing.Settlement
import ClawRouter.Inspect.HostedUsage

namespace ClawRouter.Accounting

open Pricing
open Inspect (HostedSearchUsage)
open Js (maxSafeInteger)

/-! ## 1. Usage -/

def maxMicros : Int := maxSafeInteger

structure AnthropicModifiers where
  speed : Option String
  inferenceGeo : Option String
  serviceTier : Option String
  deriving DecidableEq

def AnthropicModifiers.unreported : AnthropicModifiers := ⟨none, none, none⟩

/-- The tokens of an outcome. -/
structure UsageTokens extends MeteredTokens where
  reasoning : Option Nat
  webSearchRequests : Option Nat
  anthropic : Option AnthropicModifiers
  total : Option Nat
  deriving DecidableEq

/-! ## 2. Prices -/

/-- Why a price is incomplete. -/
inductive PricingGap
  | audioUploadBound
  | modelRequestFee
  | hostedToolFee
  | hostedToolUsage
  | retainedToolUnknown
  | opaqueInputBound
  deriving DecidableEq

/-- The price of a hosted search. -/
structure HostedSearchPrice where
  version : String
  microsPerCall : Option Nat
  deriving DecidableEq

/-- The price of a search of Native Messages. -/
structure AnthropicWebPrice extends HostedSearchPrice where
  search : Bool
  usageComplete : Bool
  deriving DecidableEq

def hostedSearchCost (price : Option HostedSearchPrice) (count : Nat) : Option Nat :=
  (price.bind (·.microsPerCall)).map fun micros => saturatingMultiply micros count

/-- The kinds of a tariff, with the price of those that settle at one. -/
inductive TariffKind
  | successfulRequest (micros : Int)
  | outcomeRequest
  | imageRequest
  | deepseekSearch (micros : Int)
  deriving DecidableEq

/-- A price for a request as such. -/
structure RequestTariff where
  kind : TariffKind
  version : String
  effectiveAt : String
  deriving DecidableEq

/-- What became of a request that has a tariff. -/
inductive RequestTariffOutcome
  | succeeded
  | failed
  | unknown
  | unsent
  deriving DecidableEq

/-- An amount and its basis. -/
structure Settled where
  micros : Int
  basis : String
  deriving DecidableEq

def settleRequestTariff (micros : Int) (outcome : RequestTariffOutcome) : Settled :=
  match outcome with
  | .unsent | .failed => ⟨0, "none"⟩
  | .succeeded => ⟨micros, "manifest_request"⟩
  | .unknown => ⟨micros, "manifest_request_reservation"⟩

/-- Where a cost of a request comes from. -/
inductive ReceiptBasis
  | providerReported
  | manifestRequest
  deriving DecidableEq

def ReceiptBasis.text : ReceiptBasis → String
  | .providerReported => "provider_reported"
  | .manifestRequest => "manifest_request"

/-- A cost the provider or the manifest states. -/
structure RequestCostReceipt where
  costMicros : Int
  basis : ReceiptBasis
  pricingVersion : String
  deriving DecidableEq

/-- What is reserved for a request. -/
structure EstimatedCost where
  reserveMicros : Int
  basis : String
  pricingGap : Option PricingGap
  requestTariff : Option RequestTariff
  deriving DecidableEq

/-- A reservation; the charges of a soft one are the ledgers they are made at. -/
structure BudgetReservation where
  charges : Option (List String)
  reservedMicros : Int
  deriving DecidableEq

/-! ## 3. Cards of Native Messages -/

def fastModels : List String := ["claude-opus-5-5", "claude-opus-5", "claude-opus-4-8"]
def geoModels : List String :=
  fastModels ++ ["claude-sonnet-5", "claude-fable-5-1", "claude-fable-5", "claude-sonnet-4-6"]
def knownModels : List String := geoModels ++ ["claude-haiku-4-5"]

/-- `Math.round(value * multiplier)`, for a multiplier in tenths. -/
def scaleRate (tenths value : Nat) : Nat := (value * tenths + 5) / 10

def scaleRates (tenths : Nat) (rates : TokenRates) : TokenRates where
  inputMicrosPerMillion :=
  scaleRate tenths rates.inputMicrosPerMillion
  outputMicrosPerMillion := scaleRate tenths rates.outputMicrosPerMillion
  cachedInputMicrosPerMillion := rates.cachedInputMicrosPerMillion.map (scaleRate tenths)
  cacheWriteInputMicrosPerMillion := rates.cacheWriteInputMicrosPerMillion.map (scaleRate tenths)
  cacheWrite5mInputMicrosPerMillion := rates.cacheWrite5mInputMicrosPerMillion.map (scaleRate tenths)
  cacheWrite1hInputMicrosPerMillion := rates.cacheWrite1hInputMicrosPerMillion.map (scaleRate tenths)

/-- `{ ...pricing, ...scale(pricing), longContext: … }`. -/
def scaleCard (tenths : Nat) (card : TokenCard) : TokenCard :=
  { card with
    toTokenRates := scaleRates tenths card.toTokenRates
    longContext := card.longContext.map fun long =>
      { long with toTokenRates := scaleRates tenths long.toTokenRates } }

/-- Without `served` the card of a reservation. -/
def anthropicPricing (pricing : Option ModelPricing) (model : Option String)
    (requested : AnthropicModifiers) (served : Option AnthropicModifiers) : Option TokenCard :=
  match pricing, model with
  | some (.token card), some model =>
    if model = "" then none
    else if card.anthropicModifiers = none ∧ model ∉ knownModels then none
    else
      let fast : Bool := match card.anthropicModifiers with
        | some modifiers => modifiers.fastMultiplier
        | none => decide (model ∈ fastModels)
      let us : Bool := match card.anthropicModifiers with
        | some modifiers => modifiers.usMultiplier
        | none => decide (model ∈ geoModels)
      let servedGeo := (served.bind (·.inferenceGeo)).filter (· ≠ "not_available")
      let speed := (served.bind (·.speed) <|> requested.speed).getD "standard"
      -- unreported geography settles at the reserved bound
      let geo := (servedGeo <|> requested.inferenceGeo).getD (if us then "us" else "global")
      let requestedTier := requested.serviceTier.getD "auto"
      let tier : Option String := match served with
        | none => some requestedTier
        | some served =>
          served.serviceTier <|> if requestedTier = "standard_only" ∨ requestedTier = "auto" then
            some "standard"
            else none
      if speed ≠ "standard" ∧ ¬ (speed = "fast" ∧ fast) then none
      else if geo ≠ "global" ∧ geo ≠ "us" then none
      else if us = false ∧ (requested.inferenceGeo.isSome ∨ servedGeo.any (· ≠ "global")) then none
      else if (served = none ∧ tier ≠ some "standard_only" ∧ tier ≠ some "auto") ∨
          (served ≠ none ∧ tier ≠ some "standard") then none
      else
        some (scaleCard ((if speed = "fast" then 2 else 1) * (if geo = "us" then 11 else 10)) card)
  | _, _ => none

/-! ## 4. Facts and outcomes -/

/-- What kind of grant served a request. -/
inductive GrantLane
  | apiKey
  | environment
  | subscription
  deriving DecidableEq

def GrantLane.text : GrantLane → String
  | .apiKey => "api_key"
  | .environment => "environment"
  | .subscription => "subscription"

/-- The event of a request before it is settled. `createProxyAccounting` gives it no reporting member,
    and the attribution, which a receipt only copies, is left out. -/
structure EventTemplate where
  capability : String
  grantLane : Option GrantLane
  pricingRef : Option String
  pricingEffectiveAt : Option String
  deriving DecidableEq

/-- A model and its prices. -/
structure Model where
  pricing : Option ModelPricing
  upstream : Option String

/-- What is known of a request when it is sent. -/
structure AccountingFacts where
  event : EventTemplate
  model : Option Model
  anthropicRequest : Option AnthropicModifiers
  fixed : Option Int
  cost : EstimatedCost
  requestFormat : String
  startedAtMs : Int
  hostedSearchPrice : Option HostedSearchPrice
  anthropicWebPrice : Option AnthropicWebPrice
  googleImage : Bool
  googleAudio : Bool
  nativeMusic : Bool
  nativeSpeech : Bool

/-- How a request ended. -/
inductive Status
  | success
  | providerError
  | clientError
  | denied
  | timeout
  deriving DecidableEq

/-- An absent `servedTier` and a null one are told apart. -/
structure AccountingOutcome where
  occurredAtMs : Int
  statusCode : Option Int
  status : Status
  billable : Bool
  tokens : Option UsageTokens
  reservation : BudgetReservation
  contentRef : Option String
  servedTier : Option (Option String)
  characterEstimate : Option Int
  hostedSearch : Option HostedSearchUsage
  pricingUnavailable : Bool
  requestTariffOutcome : Option RequestTariffOutcome
  requestCostReceipt : Option RequestCostReceipt

def AccountingFacts.pricing (facts : AccountingFacts) : Option ModelPricing := facts.model.bind (·.pricing)

def AccountingFacts.upstream (facts : AccountingFacts) : Option String := facts.model.bind (·.upstream)

/-! ## 5. What the tokens cost -/

def actualCost (model : Option Model) (tokens : UsageTokens) (fixed : Option Int)
    (requestFormat : String) (requested : Option AnthropicModifiers) : Option Int :=
  match fixed with
  | some fixed => some fixed
  | none =>
    let pricing := model.bind (·.pricing)
    if requestFormat = "anthropic.messages" then
      if tokens.billable = false then some 0
      else
        (anthropicPricing pricing (model.bind (·.upstream)) (requested.getD .unreported)
          (some (tokens.anthropic.getD .unreported))).bind fun card =>
            ((ModelPricing.token card).actualModelCost tokens.toMeteredTokens
              (some requestFormat)).map Int.ofNat
    else
      match pricing with
      | none => some 1
      | some pricing =>
        (pricing.actualModelCost tokens.toMeteredTokens (some requestFormat)).map Int.ofNat

@[simp] theorem actualCost_fixed (model : Option Model) (tokens : UsageTokens) (fixed : Int)
    (requestFormat : String) (requested : Option AnthropicModifiers) :
    actualCost model tokens (some fixed) requestFormat requested = some fixed := rfl

/-! ## 6. What is reported beside the charge -/

/-- What a report counts, or why nothing. -/
structure ReportingEstimate where
  micros : Nat
  reason : String
  deriving DecidableEq

def estimateReason (missingTier missingWrites : Bool) : String :=
  ";".intercalate ([if missingTier then "served_tier_unreported_max_declared_rate" else "",
    if missingWrites then "cache_write_unreported_max_rate_allocation" else ""].filter (· ≠ ""))

def reportingEstimate (pricing : Option ModelPricing) (tokens : Option UsageTokens)
    (format : String) : Option ReportingEstimate :=
  match pricing, tokens with
  | some (.token card), some tokens =>
    match tokens.input, tokens.output with
    | some input, some output =>
      if (format ≠ "openai.responses" ∧ format ≠ "openai.chat_completions") ∨
          tokens.billable = false ∨ maxSafeInteger < input ∨ maxSafeInteger < output then none
      else
        let tier := tokens.serviceTier
        let missingTier : Bool := tier = none ∨ tier = some "auto"
        -- an explicitly unknown tier is not bounded by the known cards
        if missingTier = false ∧ card.serviceTiers ≠ [] ∧
            (card.serviceTiers.any fun t => t.answers (tier.map .str)) = false then none
        else
          let tiers : List (Option String) := if missingTier then
              if card.serviceTiers = [] then [none] else card.serviceTiers.map (some ·.id)
            else [tier]
          let missingWrites : Bool := tokens.cacheWrite = none
          if missingTier = false ∧ missingWrites = false then none
          else
            let cached := tokens.cached.getD 0
            if maxSafeInteger < cached ∨ input < cached then none
            else if [tokens.cacheWrite, tokens.cacheWrite5m, tokens.cacheWrite1h].any fun writes =>
                writes.any fun n => maxSafeInteger < n ∨ input - cached < n then none
            else
              let allocations := match tokens.cacheWrite with
                | none => [0, input - cached]
                | some writes => [writes]
              let values := tiers.flatMap fun serviceTier =>
                allocations.filterMap fun cacheWrite =>
                  (ModelPricing.token card).actualModelCost
                    { tokens.toMeteredTokens with serviceTier, cacheWrite := some cacheWrite }
                    (some format)
              values.max?.map fun micros => ⟨micros, estimateReason missingTier missingWrites⟩
    | _, _ => none
  | _, _ => none

end ClawRouter.Accounting
