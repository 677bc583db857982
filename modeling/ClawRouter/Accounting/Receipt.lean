/-
  Subject:   The receipt of a settled request (`accountingReceipt` of
             src/worker/proxy-accounting.ts), and what its policy-fixed price comes to.

  A receipt is written in one of four ways: free for a moderation, unpriced for media without a
  tariff, by the request tariff where there is one, and by the usage otherwise. The constants of the
  last are definitions here, each under its own name.

  * **`fixed_price_exact`**: a policy-fixed price is charged exactly, unless the outcome says that
    the response could not be priced.
-/
import ClawRouter.Accounting.Facts

namespace ClawRouter.Accounting

open Pricing
open Inspect (HostedSearchUsage)

/-! ## 1. Receipts -/

/-- The calls of hosted tools in a receipt. -/
structure HostedToolCalls where
  webSearch : Nat
  complete : Bool
  costMicros : Option Nat
  pricingRef : Option String
  deriving DecidableEq

/-- The members a receipt settles. Those of the usage that a receipt may leave out altogether are
    options of options. -/
structure UsageEvent extends EventTemplate where
  occurredAtMs : Int
  statusCode : Option Int
  status : Status
  reservedCostMicros : Int
  actualCostMicros : Int
  costBasis : String
  reportingKnownCostMicros : Option (Option Int)
  reportingEstimate : Option ReportingEstimate
  hostedTool : Option HostedToolCalls
  imageUsage : Option ImageUsage
  inputTokens : Option Nat
  outputTokens : Option Nat
  totalTokens : Option Nat
  cachedInputTokens : Option Nat
  cacheWriteInputTokens : Option Nat
  reasoningOutputTokens : Option (Option Nat)
  servedServiceTier : Option String
  durationMs : Int
  contentRetained : Bool
  contentRef : Option String
  deriving DecidableEq

section Receipt

variable (facts : AccountingFacts) (outcome : AccountingOutcome)

/-- What the four ways share: the template, the outcome and the reservation. -/
def settledEvent (reserved actual : Int) (basis : String) : UsageEvent where
  toEventTemplate :=
  facts.event
  occurredAtMs := outcome.occurredAtMs
  statusCode := outcome.statusCode
  status := outcome.status
  reservedCostMicros := reserved
  actualCostMicros := actual
  costBasis := basis
  reportingKnownCostMicros := none
  reportingEstimate := none
  hostedTool := none
  imageUsage := none
  inputTokens := none
  outputTokens := none
  totalTokens := none
  cachedInputTokens := none
  cacheWriteInputTokens := none
  reasoningOutputTokens := none
  servedServiceTier := none
  durationMs := outcome.occurredAtMs - facts.startedAtMs
  contentRetained := outcome.contentRef.any (· ≠ "")
  contentRef := outcome.contentRef

/-! ## 2. Free and unpriced receipts -/

def moderationReceipt : UsageEvent :=
  { settledEvent facts outcome 0 0 "none" with reportingKnownCostMicros := some none }

/-- Media that only a policy-fixed price covers. -/
def nativeMedia : Bool :=
  facts.googleImage || facts.googleAudio || facts.nativeMusic || facts.nativeSpeech ||
    facts.requestFormat == "minimax.speech" || facts.requestFormat == "minimax.images"

def mediaReceipt : UsageEvent :=
  { settledEvent facts outcome outcome.reservation.reservedMicros
      (if outcome.billable then outcome.reservation.reservedMicros else 0)
      (if outcome.billable then "unpriced_usage" else "none") with
    pricingRef := none, pricingEffectiveAt := none }

/-! ## 3. Receipts of a tariff -/

/-- The provider's own receipt, where it is one of the tariff. -/
def knownReceipt (tariff : RequestTariff) : Option RequestCostReceipt :=
  outcome.requestCostReceipt.filter fun candidate =>
    candidate.pricingVersion == tariff.version && match tariff.kind with
      | .deepseekSearch micros =>
        candidate.basis == .manifestRequest && (candidate.costMicros == 0 || candidate.costMicros == micros)
      | _ => true

def settledTariff (tariff : RequestTariff) : Settled :=
  match tariff.kind with
  | .successfulRequest micros =>
    settleRequestTariff micros (outcome.requestTariffOutcome.getD .unknown)
  | _ =>
    if outcome.requestTariffOutcome = some .unsent then ⟨0, "none"⟩
    else
      match knownReceipt outcome tariff with
      | some receipt => ⟨receipt.costMicros, receipt.basis.text⟩
      | none =>
        ⟨facts.cost.reserveMicros, if facts.cost.basis = "manifest_request" then
          "manifest_request_reservation"
          else "unpriced_usage"⟩

def tariffReceipt (tariff : RequestTariff) : UsageEvent :=
  let settled := settledTariff facts outcome tariff
  let inference := if tariff.kind = .outcomeRequest then outcome.tokens else none
  { settledEvent facts outcome outcome.reservation.reservedMicros settled.micros settled.basis with
    pricingRef := some tariff.version
    pricingEffectiveAt := some tariff.effectiveAt
    inputTokens := inference.bind (·.input)
    outputTokens := inference.bind (·.output)
    totalTokens := inference.bind (·.total)
    cachedInputTokens := inference.bind (·.cached)
    cacheWriteInputTokens := inference.bind (·.cacheWrite) }

/-! ## 4. Receipts of a usage -/

def soft : Bool := outcome.reservation.charges.isSome

def audioUnbounded : Bool := facts.cost.pricingGap == some .audioUploadBound

def notRefused : Bool := outcome.tokens.all (·.billable)

def anthropicUnpriced : Bool :=
  outcome.pricingUnavailable ||
    notRefused outcome && facts.fixed.isNone && facts.requestFormat == "anthropic.messages" &&
      facts.event.capability != "llm.count_tokens" &&
      (anthropicPricing facts.pricing facts.upstream (facts.anthropicRequest.getD .unreported)
        (some ((outcome.tokens.bind (·.anthropic)).getD .unreported))).isNone

def claudeWeb : Option AnthropicWebPrice :=
  if facts.requestFormat = "anthropic.messages" then facts.anthropicWebPrice else none

def measured : Option Int :=
  if anthropicUnpriced facts outcome then none
  else if facts.cost.pricingGap.isSome ∧ soft outcome = false ∧ audioUnbounded facts = false ∧
      claudeWeb facts = none then none
  else
    match outcome.tokens with
    | some tokens =>
      if (soft outcome ∨ (claudeWeb facts).isSome) ∧ facts.pricing.isNone ∧ facts.fixed = none then
        none
      else actualCost facts.model tokens facts.fixed facts.requestFormat facts.anthropicRequest
    | none => outcome.characterEstimate.map fun estimate => facts.fixed.getD estimate

def image : Bool :=
  match facts.pricing with
  | some (.imageToken _) => true
  | _ => false

def hosted : Option HostedSearchUsage :=
  match claudeWeb facts with
  | some web =>
    if web.search then
      let searchCount := outcome.tokens.bind (·.webSearchRequests)
      some ⟨searchCount.getD 0, searchCount.isSome⟩
    else outcome.hostedSearch
  | none => outcome.hostedSearch

def searchPrice : Option HostedSearchPrice :=
  ((claudeWeb facts).map (·.toHostedSearchPrice)) <|> facts.hostedSearchPrice

def hostedEvent : Bool :=
  (hosted facts outcome).any fun hosted =>
    (searchPrice facts).isSome || decide (0 < hosted.webSearch)

/-- The fee of the searches, where they are all known and it is a soft budget or Claude that pays. -/
def toolFee : Option Nat :=
  if outcome.billable ∧
      ((claudeWeb facts).isSome ∨ outcome.reservation.charges.any (· ≠ [])) ∧
      facts.fixed = none ∧ outcome.tokens.isSome ∧ notRefused outcome then
    match hosted facts outcome with
    | some hosted =>
      if hosted.complete then hostedSearchCost (searchPrice facts) hosted.webSearch else none
    | none => none
  else none

/-- What is charged for a billable usage that was not measured. -/
def unmeasured : Int :=
  if anthropicUnpriced facts outcome then outcome.reservation.reservedMicros
  else if audioUnbounded facts ∨ (claudeWeb facts).isSome then facts.fixed.getD 0
  else if soft outcome ∧ image facts = false then facts.fixed.getD 0
  else facts.fixed.getD facts.cost.reserveMicros

def actual : Int :=
  min maxMicros
    ((if outcome.billable then (measured facts outcome).getD (unmeasured facts outcome) else 0) +
      ((toolFee facts outcome).getD 0 : Nat))

def knownNoCharge : Bool :=
  !outcome.billable ||
    (!notRefused outcome && actual facts outcome == 0 && facts.cost.basis != "policy_fixed")

def publishedUpperBound : Bool :=
  match facts.pricing with
  | some (.token card) => card.publishedUpperBound
  | _ => false

def measuredBasis : String :=
  if outcome.characterEstimate.isSome then "request_character_estimate"
  else if publishedUpperBound facts then "manifest_rate_upper_bound"
  else "manifest_pricing"

def basis : String :=
  if anthropicUnpriced facts outcome ∧ outcome.billable then "unpriced_usage"
  else if audioUnbounded facts ∧ outcome.billable then
    if measured facts outcome = none then "unpriced_usage" else measuredBasis facts outcome
  else if soft outcome ∧ image facts = false ∧ outcome.billable ∧ measured facts outcome = none ∧
      facts.fixed = none then "unpriced_usage"
  else if knownNoCharge facts outcome then "none"
  else if facts.cost.pricingGap.isSome then "unpriced_usage"
  else if facts.cost.basis = "unpriced_service_tier" ∨ facts.cost.basis = "unpriced_modifier" then
    if measured facts outcome = none then "unpriced_usage" else measuredBasis facts outcome
  else if facts.cost.basis = "manifest_pricing" then
    if measured facts outcome = none then "manifest_reservation" else measuredBasis facts outcome
  else facts.cost.basis

def claudeBasis : Option String :=
  match claudeWeb facts with
  | some web =>
    if facts.fixed = none ∧ outcome.billable then
      if knownNoCharge facts outcome then some "none"
      else if (measured facts outcome).isSome ∧ web.usageComplete ∧ facts.cost.pricingGap = some
        .hostedToolUsage ∧
          (web.search = false ∨ (toolFee facts outcome).isSome) then
        some (measuredBasis facts outcome)
      else some "unpriced_usage"
    else none
  | none => none

def reporting : Option ReportingEstimate :=
  if outcome.billable ∧ facts.fixed = none ∧ measured facts outcome = none ∧
      actual facts outcome = 0 ∧ facts.cost.pricingGap = none then
    Accounting.reportingEstimate facts.pricing outcome.tokens facts.requestFormat
  else none

def finalBasis : String :=
  (claudeBasis facts outcome).getD
    (if outcome.billable ∧ facts.fixed = none ∧ hostedEvent facts outcome then "unpriced_usage"
      else basis facts outcome)

/-- The measured part of a charge that is not known in full. -/
def knownComponent : Int :=
  if outcome.billable ∧ facts.fixed = none ∧ outcome.tokens.isSome ∧ notRefused outcome then
    min maxMicros ((if facts.pricing.isSome ∧ outcome.characterEstimate = none ∧
          measuredBasis facts outcome ≠ "manifest_rate_upper_bound" then
          (measured facts outcome).getD 0 else 0) +
        ((toolFee facts outcome).getD 0 : Nat))
  else 0

def isUnpriced (basis : String) : Bool := "unpriced_".toList.isPrefixOf basis.toList

def reportingKnown : Option Int :=
  let known := knownComponent facts outcome
  if isUnpriced (finalBasis facts outcome) ∧ (-maxMicros ≤ known ∧ known ≤ maxMicros) ∧ 0 < known ∧
      known ≤ actual facts outcome then some known
  else none

def usageReceipt : UsageEvent :=
  { settledEvent facts outcome outcome.reservation.reservedMicros (actual facts outcome)
      (finalBasis facts outcome) with
    reportingKnownCostMicros := some (reportingKnown facts outcome)
    reportingEstimate := reporting facts outcome
    hostedTool := if hostedEvent facts outcome then
        (hosted facts outcome).map fun hosted =>
          ⟨hosted.webSearch, hosted.complete, toolFee facts outcome, (searchPrice facts).map (·.version)⟩
      else none
    imageUsage := outcome.tokens.bind (·.image)
    inputTokens := outcome.tokens.bind (·.input)
    outputTokens := outcome.tokens.bind (·.output)
    totalTokens := outcome.tokens.bind (·.total)
    cachedInputTokens := outcome.tokens.bind (·.cached)
    cacheWriteInputTokens := outcome.tokens.bind (·.cacheWrite)
    reasoningOutputTokens := some (outcome.tokens.bind (·.reasoning))
    servedServiceTier := outcome.servedTier.getD (outcome.tokens.bind (·.serviceTier)) }

/-! ## 5. The receipt -/

def accountingReceipt : UsageEvent :=
  if facts.requestFormat = "openai.moderations" then moderationReceipt facts outcome
  else if nativeMedia facts ∧ facts.fixed = none then mediaReceipt facts outcome
  else
    match facts.cost.requestTariff, facts.fixed with
    | some tariff, none => tariffReceipt facts outcome tariff
    | _, _ => usageReceipt facts outcome

end Receipt

/-! ## 6. A policy-fixed price -/

/-- The outcome `settle` builds. Once a response may have been charged for, its usage is no evidence,
    and it counts as one that can not be priced unless a fixed price applies. -/
def settleOutcome (facts : AccountingFacts) (chargedUpstreamResponse : Bool)
    (outcome : AccountingOutcome) : AccountingOutcome :=
  if chargedUpstreamResponse then
    { outcome with
      billable := true
      tokens := none
      characterEstimate := none
      pricingUnavailable := facts.fixed.isNone
      hostedSearch := none
      requestTariffOutcome := some .unknown
      requestCostReceipt := none }
  else { outcome with pricingUnavailable := false }

section Fixed

variable {facts : AccountingFacts} {outcome : AccountingOutcome} {f : Int}

section

variable (hfixed : facts.fixed = some f)
include hfixed

theorem settleOutcome_available (charged : Bool) :
    (settleOutcome facts charged outcome).pricingUnavailable = false := by
  unfold settleOutcome
  split
  · rw [hfixed]
    rfl
  · rfl

theorem anthropicUnpriced_fixed : anthropicUnpriced facts outcome = outcome.pricingUnavailable := by
  simp [anthropicUnpriced, hfixed]

theorem toolFee_fixed : toolFee facts outcome = none := by
  unfold toolFee
  rw [if_neg]
  rintro ⟨-, -, hnone, -⟩
  rw [hfixed] at hnone
  cases hnone

theorem measured_fixed (hpriced : outcome.pricingUnavailable = false) :
    measured facts outcome = none ∨ measured facts outcome = some f := by
  unfold measured
  rw [anthropicUnpriced_fixed hfixed, hpriced, if_neg Bool.noConfusion]
  split
  · exact Or.inl rfl
  · split
    · rw [hfixed, if_neg (fun h => by cases h.2.2)]
      exact Or.inr (actualCost_fixed ..)
    · rw [hfixed]
      cases outcome.characterEstimate with
      | none => exact Or.inl rfl
      | some estimate => exact Or.inr rfl

theorem unmeasured_fixed (hpriced : outcome.pricingUnavailable = false) : unmeasured facts outcome = f := by
  unfold unmeasured
  rw [anthropicUnpriced_fixed hfixed, hpriced, if_neg Bool.noConfusion, hfixed]
  split
  · rfl
  · split
    · rfl
    · rfl

end

theorem unavailable_reservation (h : anthropicUnpriced facts outcome = true) : measured facts outcome = none ∧
      unmeasured facts outcome = outcome.reservation.reservedMicros := by
  refine ⟨?_, ?_⟩
  · unfold measured
    rw [if_pos h]
  · unfold unmeasured
    rw [if_pos h]

theorem actual_fixed (hfixed : facts.fixed = some f) :
    actual facts outcome = if outcome.billable = false then 0
      else if outcome.pricingUnavailable then min maxMicros outcome.reservation.reservedMicros
      else min maxMicros f := by
  unfold actual
  rw [toolFee_fixed hfixed, Option.getD_none, Int.natCast_zero, Int.add_zero]
  cases hbillable : outcome.billable with
  | false => rfl
  | true =>
    rw [if_pos rfl, if_neg Bool.noConfusion]
    cases hpriced : outcome.pricingUnavailable with
    | true =>
      obtain ⟨hm, hu⟩ := unavailable_reservation ((anthropicUnpriced_fixed hfixed).trans hpriced)
      rw [hm, hu]
      rfl
    | false =>
      rw [unmeasured_fixed hfixed hpriced]
      rcases measured_fixed hfixed hpriced with hm | hm
      · rw [hm]
        rfl
      · rw [hm]
        rfl

theorem fixed_usageReceipt (hfixed : facts.fixed = some f)
    (hformat : facts.requestFormat ≠ "openai.moderations") :
    accountingReceipt facts outcome = usageReceipt facts outcome := by
  unfold accountingReceipt
  rw [if_neg hformat, if_neg (fun h => by rw [hfixed] at h; cases h.2), hfixed]
  cases facts.cost.requestTariff <;> rfl

/-- **A policy-fixed price is charged exactly**, and nothing where the outcome is not billable. An
    outcome that says the response could not be priced keeps the reservation instead; `settle` builds
    no such outcome of a request with a fixed price. -/
theorem fixed_price_exact (hfixed : facts.fixed = some f)
    (hformat : facts.requestFormat ≠ "openai.moderations") :
    (accountingReceipt facts outcome).actualCostMicros = (if outcome.billable = false then 0
        else if outcome.pricingUnavailable then min maxMicros outcome.reservation.reservedMicros
        else min maxMicros f) ∧
    ∀ charged, (accountingReceipt facts (settleOutcome facts charged outcome)).actualCostMicros =
      if (settleOutcome facts charged outcome).billable then min maxMicros f else 0 := by
  refine ⟨?_, fun charged => ?_⟩
  · rw [fixed_usageReceipt hfixed hformat]
    exact actual_fixed hfixed
  · rw [fixed_usageReceipt hfixed hformat]
    show actual facts (settleOutcome facts charged outcome) = _
    rw [actual_fixed hfixed, settleOutcome_available hfixed]
    cases (settleOutcome facts charged outcome).billable <;> rfl

end Fixed

/-! ## 7. A request with a fixed price -/

/-- A Native Messages request for which the policy has a price of five micros. -/
def fixedFacts : AccountingFacts where
  event :=
  ⟨"llm.messages", some .apiKey, none, none⟩
  model := some ⟨none, some "claude-sonnet-5"⟩
  anthropicRequest := some .unreported
  fixed := some 5
  cost := ⟨5, "policy_fixed", none, none⟩
  requestFormat := "anthropic.messages"
  startedAtMs := 0
  hostedSearchPrice := none
  anthropicWebPrice := none
  googleImage := false
  googleAudio := false
  nativeMusic := false
  nativeSpeech := false

/-- A response with status 200 and no usage, that was billable. -/
def billedOutcome (pricingUnavailable : Bool) : AccountingOutcome where
  occurredAtMs :=
  1
  statusCode := some 200
  status := .success
  billable := true
  tokens := none
  reservation := ⟨none, 0⟩
  contentRef := none
  servedTier := none
  characterEstimate := none
  hostedSearch := none
  pricingUnavailable := pricingUnavailable
  requestTariffOutcome := none
  requestCostReceipt := none

theorem fixed_price_exact_messages :
    (accountingReceipt fixedFacts (billedOutcome false)).actualCostMicros = 5 ∧
      (accountingReceipt fixedFacts (settleOutcome fixedFacts true
        (billedOutcome false))).actualCostMicros = 5 := by
  obtain ⟨h, hsettle⟩ := @fixed_price_exact fixedFacts (billedOutcome false) 5 rfl (by decide)
  exact ⟨h, hsettle true⟩

/-- With nothing reserved, an outcome that could not be priced is charged nothing. -/
theorem fixed_price_unavailable : ¬ ∀ (facts : AccountingFacts) (outcome : AccountingOutcome) (f : Int),
      facts.fixed = some f → facts.requestFormat ≠ "openai.moderations" →
      (accountingReceipt facts outcome).actualCostMicros = if outcome.billable then
        min f maxMicros else 0 := by
  intro h
  have hzero : (accountingReceipt fixedFacts (billedOutcome true)).actualCostMicros = 0 := by decide
  have hfive := h fixedFacts (billedOutcome true) 5 rfl (by decide)
  rw [hzero] at hfive
  exact absurd hfive (by decide)

end ClawRouter.Accounting
