/-
  Subject:   What a usage event is reported as (`projectUsageEvent` of
             src/worker/usage-report-store.ts, `reportingCost` of src/worker/usage-report-cost.ts).

  The members of an event are arbitrary JSON, and a member of the wrong type is read as missing. The
  one exception is the cost basis, which is looked up as a property key and so is turned into a
  string first; that can throw.

  * `usageReportRow`: the row of `usage_report_events`.
-/
import ClawRouter.Usage.Attribution

namespace ClawRouter.Report

open Js

/-! ## 1. Events and their members -/

/-- An event: the members that ingest checks or stores in columns that can not be NULL, and the
    whole object. `policyId` is what ingest leaves of it: `policy_id`, or else `key_id`. -/
structure UsageEvent where
  id : String
  occurredAtMs : Int
  tenantId : String
  policyId : String
  provider : String
  status : String
  json : Json

def text (value : Option Json) : Option String := value.bind Json.str?

def reportDayMs : Int := 86400000

def reportRetentionMs : Int := 30 * reportDayMs

/-- `counter`: a safe integer that is not negative. -/
def counter : Option Json → Option Int
  | some (.int n) => if 0 ≤ n ∧ n ≤ maxSafeInteger then some n else none
  | _ => none

def subsetCounter (value : Option Json) (inclusive : Option Int) : Option Int :=
  match counter value, inclusive with
  | some value, some inclusive => if value ≤ inclusive then some value else none
  | _, _ => none

section PropertyKey

mutual

/-- The property key a value is turned into. An object with a member `toString` of its own, which
    JSON can only make something that is no function, can not be turned into one. -/
def propertyKey : Json → Option String
  | .null => some "null"
  | .bool b => some (if b then "true" else "false")
  | .int n => some (toString n)
  | .frac value => some value.text
  | .str s => some s
  | .arr items => (joinItems items).map fun texts => ",".intercalate texts
  | .obj members =>
    if members.any fun m => m.1 == "toString" then none else some "[object Object]"

def joinItems : List Json → Option (List String)
  | [] => some []
  | .null :: rest => (joinItems rest).map ("" :: ·)
  | item :: rest =>
    match propertyKey item, joinItems rest with
    | some text, some texts => some (text :: texts)
    | _, _ => none

end

end PropertyKey

/-! ## 2. Costs -/

/-- How a cost is known. -/
inductive UsageCostClass
  | calculated
  | fixed
  | estimated
  | upperBound
  | partialCost
  | unknown
  | noCharge
  deriving DecidableEq, Inhabited

def UsageCostClass.text : UsageCostClass → String
  | .calculated => "calculated"
  | .fixed => "fixed"
  | .estimated => "estimated"
  | .upperBound => "upper_bound"
  | .partialCost => "partial"
  | .unknown => "unknown"
  | .noCharge => "no_charge"

/-- What kind of grant is charged. -/
inductive UsageCostLane
  | api
  | subscription
  | unattributed
  deriving DecidableEq, Inhabited

def UsageCostLane.text : UsageCostLane → String
  | .api => "api"
  | .subscription => "subscription"
  | .unattributed => "unattributed"

def knownBasisClasses : List (String × UsageCostClass) :=
  [("none", .noCharge), ("policy_fixed", .fixed), ("request_character_estimate", .estimated),
    ("manifest_reservation", .estimated), ("manifest_rate_upper_bound", .upperBound),
    ("realtime_full_context_bound", .upperBound), ("manifest_pricing", .calculated),
    ("realtime_modality_usage", .calculated),
    ("realtime_input_transcription_usage", .calculated)]

/-- The cost that is reported. -/
structure ReportingCost where
  lane : UsageCostLane
  costClass : UsageCostClass
  amount : Option Int
  deriving DecidableEq

def reportingLane (event : Json) : UsageCostLane :=
  match event.get? "grant_lane" with
  | some (.str "subscription") => .subscription
  | some (.str "api_key") => .api
  | some (.str "environment") => .api
  | _ => .unattributed

/-- `Object.hasOwn(knownBasisClasses, basis) ? knownBasisClasses[basis] : "unknown"`; `none` is a
    throw. -/
def canonicalClass (basis : Option Json) : Option UsageCostClass :=
  match basis with
  | none => some ((knownBasisClasses.lookup "undefined").getD .unknown)
  | some basis => (propertyKey basis).map fun key => (knownBasisClasses.lookup key).getD .unknown

def reportingCost (event : Json) : Option ReportingCost :=
  let lane := reportingLane event
  let basis := event.get? "cost_basis"
  (canonicalClass basis).map fun canonicalClass =>
    let actual := counter (event.get? "actual_cost_micros")
    let costClass := if actual = none ∨ (canonicalClass = .noCharge ∧ actual ≠ some 0) then .unknown
      else canonicalClass
    let known := counter (event.get? "reporting_known_cost_micros")
    let unpriced := (text basis).any fun s => "unpriced_".toList.isPrefixOf s.toList
    match actual, known with
    | some actual, some known =>
      if costClass = .unknown ∧ unpriced ∧ 0 < known ∧ known ≤ actual then
        ⟨lane, .partialCost, some known⟩
      else estimate event lane costClass (some actual)
    | actual, _ => estimate event lane costClass actual
where
  /-- The last step: what is still unknown may be estimated. -/
  estimate (event : Json) (lane : UsageCostLane) (costClass : UsageCostClass)
      (actual : Option Int) : ReportingCost :=
    if costClass = .unknown then
      match counter (event.get? "reporting_estimated_cost_micros"),
          text (event.get? "reporting_estimate_reason") with
      | some estimate, some reason =>
        if actual = some 0 ∧ reason ≠ "" then ⟨lane, .estimated, some estimate⟩
        else ⟨lane, .unknown, none⟩
      | _, _ => ⟨lane, .unknown, none⟩
    else ⟨lane, costClass, actual⟩

/-! ## 3. The projection -/

/-- What a call is for. -/
inductive CallKind
  | generation
  | utility
  deriving DecidableEq, Inhabited

def utilityFormats : List String :=
  ["openai.models", "anthropic.models", "openai.responses_input_tokens",
    "anthropic.count_tokens", "openai.moderations"]

/-- An event as a report shows it. -/
structure PersonalUsageEvent where
  id : String
  occurredAt : Int
  provider : String
  model : Option String
  keyId : Option String
  capability : String
  callKind : CallKind
  status : String
  statusCode : Option Int
  durationMs : Option Int
  inputTokens : Option Int
  outputTokens : Option Int
  cachedInputTokens : Option Int
  cacheWriteInputTokens : Option Int
  reasoningOutputTokens : Option Int
  lane : UsageCostLane
  costClass : UsageCostClass
  reportingCostMicros : Option Int
  estimateReason : Option String
  recordedChargeMicros : Int
  costBasis : Option String
  pricingRef : Option String
  requestedTier : Option String
  servedTier : Option String
  compoundRequestId : Option String
  compoundStage : Option String
  deriving DecidableEq, Inhabited

def callKind (event : Json) : CallKind :=
  if (text (event.get? "request_format")).any utilityFormats.contains ∨
      (text (event.get? "request_format") = some "anthropic.messages" ∧
        text (event.get? "capability") = some "llm.count_tokens") then .utility
  else .generation

/-- Cache reads and writes are disjoint parts of the input; of two that conflict neither is kept. -/
def cacheCounters (event : Json) : Option Int × Option Int :=
  let inputTokens := counter (event.get? "input_tokens")
  let cached := subsetCounter (event.get? "cached_input_tokens") inputTokens
  let cacheWrite := subsetCounter (event.get? "cache_write_input_tokens") inputTokens
  match cached, cacheWrite, inputTokens with
  | some read, some write, some input =>
    if read > input - write then (none, none) else (some read, some write)
  | _, _, _ => (cached, cacheWrite)

def projectUsageEvent (event : UsageEvent) : Option PersonalUsageEvent :=
  let member := event.json.get?
  (reportingCost event.json).map fun cost =>
    { id := event.id
      occurredAt := event.occurredAtMs
      provider := event.provider
      model := text (member "model")
      keyId := text (member "credential_id")
      capability := (text (member "capability")).getD "unknown"
      callKind := callKind event.json
      status := event.status
      statusCode := counter (member "status_code")
      durationMs := counter (member "duration_ms")
      inputTokens := counter (member "input_tokens")
      outputTokens := counter (member "output_tokens")
      cachedInputTokens := (cacheCounters event.json).1
      cacheWriteInputTokens := (cacheCounters event.json).2
      reasoningOutputTokens :=
        subsetCounter (member "reasoning_output_tokens") (counter (member "output_tokens"))
      lane := cost.lane
      costClass := cost.costClass
      reportingCostMicros := cost.amount
      estimateReason :=
        if cost.costClass = .estimated then text (member "reporting_estimate_reason") else none
      recordedChargeMicros := (counter (member "actual_cost_micros")).getD 0
      costBasis := text (member "cost_basis")
      pricingRef := text (member "pricing_ref")
      requestedTier := text (member "requested_service_tier")
      servedTier := text (member "served_service_tier")
      compoundRequestId := text (member "compound_request_id")
      compoundStage := text (member "compound_request_stage") }

/-- A row of `usage_report_events`: the owner, and the detail that the other columns repeat. -/
structure UsageReportRow where
  tenantId : String
  policyId : String
  principalKey : Option String
  detail : PersonalUsageEvent
  deriving DecidableEq, Inhabited

def UsageReportRow.id (row : UsageReportRow) : String := row.detail.id

def usageReportRow (toLowerCase : String → String) (event : UsageEvent) :
    Option UsageReportRow :=
  (projectUsageEvent event).map fun detail =>
    { tenantId := event.tenantId
      policyId := event.policyId
      principalKey := (text (event.json.get? "principal_id")).bind
        (Usage.normalizeEmail toLowerCase)
      detail := detail }

/-- The column `principal_key` of `usage_events` as ingest writes it. -/
def ledgerPrincipalKey (toLowerCase : String → String) (event : UsageEvent) : Option String :=
  (Usage.usageAttribution toLowerCase event.json).principalKey

theorem projectUsageEvent_place {event : UsageEvent} {detail : PersonalUsageEvent}
    (h : projectUsageEvent event = some detail) :
    detail.id = event.id ∧ detail.occurredAt = event.occurredAtMs := by
  obtain ⟨cost, -, e⟩ := Option.map_eq_some_iff.mp h
  subst e
  exact ⟨rfl, rfl⟩

theorem usageReportRow_eq {toLowerCase : String → String} {event : UsageEvent}
    {row : UsageReportRow} (h : usageReportRow toLowerCase event = some row) :
    projectUsageEvent event = some row.detail ∧ row.tenantId = event.tenantId ∧ row.policyId = event.policyId ∧
        row.principalKey = ledgerPrincipalKey toLowerCase event := by
  obtain ⟨detail, hdetail, e⟩ := Option.map_eq_some_iff.mp h
  subst e
  exact ⟨hdetail, rfl, rfl, rfl⟩

end ClawRouter.Report
