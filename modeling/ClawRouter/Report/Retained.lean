/-
  Subject:   The SQL twin of the projection (`retainedSource` of
             src/worker/usage-report-store.ts).

  Until the projection is complete, reports are computed from the events themselves: a cascade of
  SQL expressions classifies every event of an owner again, with NULL for what is missing. It gives
  what the projection stores, except where the cost basis of an event is an array: the projection
  looks an array up by its text, the SQL does not (`ArrayBasis`).

  * **`source_eq`**: it is the projection of the event.
-/
import ClawRouter.Lib.SqlLogic
import ClawRouter.Report.Projection

namespace ClawRouter.Report

open Js Sqlite

/-! ## 1. The SQL twin of the projection -/

/-- `value BETWEEN 0 AND 9007199254740991 AND value = CAST(value AS INTEGER)`; a number that is not
    written as plain digits is no integer or is beyond 10^21, and an integer beyond 64 bits is out
    of range, too. -/
def inCounterRange : SqlValue → Tri
  | .null => none
  | .integer n => some (0 ≤ n && n ≤ maxSafeInteger)
  | .real _ => some false
  | .text _ => some false

def jsonCounter (value : Option Json) : Option Int :=
  let numeric := (jsonType value).map fun type => type == "integer" || type == "real"
  caseWhen (Tri.and numeric (inCounterRange (jsonExtract value))) (match jsonExtract value with
      | .integer n => some n
      | _ => none)
    none

/-- The columns of an event. -/
structure OwnedRow where
  id : String
  occurredAtMs : Int
  provider : String
  status : String
  inputTokens : Option Int
  outputTokens : Option Int
  cachedInputTokens : Option Int
  cacheWriteInputTokens : Option Int
  reasoningOutputTokens : Option Int
  actualCostMicros : Option Int
  reportingKnownCostMicros : Option Int
  reportingEstimatedCostMicros : Option Int
  model : Option String
  credentialId : Option String
  costBasis : Option String
  grantLane : Option String
  requestFormat : Option String
  capability : Option String
  reportingEstimateReason : Option String

def owned (event : UsageEvent) : OwnedRow :=
  let member := event.json.get?
  { id := event.id
    occurredAtMs := event.occurredAtMs
    provider := event.provider
    status := event.status
    inputTokens := jsonCounter (member "input_tokens")
    outputTokens := jsonCounter (member "output_tokens")
    cachedInputTokens := jsonCounter (member "cached_input_tokens")
    cacheWriteInputTokens := jsonCounter (member "cache_write_input_tokens")
    reasoningOutputTokens := jsonCounter (member "reasoning_output_tokens")
    actualCostMicros := jsonCounter (member "actual_cost_micros")
    reportingKnownCostMicros := jsonCounter (member "reporting_known_cost_micros")
    reportingEstimatedCostMicros := jsonCounter (member "reporting_estimated_cost_micros")
    model := extractText (member "model")
    credentialId := extractText (member "credential_id")
    costBasis := extractText (member "cost_basis")
    grantLane := extractText (member "grant_lane")
    requestFormat := extractText (member "request_format")
    capability := extractText (member "capability")
    reportingEstimateReason := extractText (member "reporting_estimate_reason") }

namespace OwnedRow

variable (row : OwnedRow)

/-- `CASE cost_basis WHEN … ELSE 'unknown' END`. -/
def basisClass : UsageCostClass :=
  (row.costBasis.bind fun basis => knownBasisClasses.lookup basis).getD .unknown

def le (a b : Option Int) : Tri := Tri.compare (fun a b => decide (a ≤ b)) a b

def lt (a b : Option Int) : Tri := Tri.compare (fun a b => decide (a < b)) a b

def cacheRead : Option Int := caseWhen (le row.cachedInputTokens row.inputTokens) row.cachedInputTokens none

def cacheWrite : Option Int :=
  caseWhen (le row.cacheWriteInputTokens row.inputTokens) row.cacheWriteInputTokens none

def reasoning : Option Int :=
  caseWhen (le row.reasoningOutputTokens row.outputTokens) row.reasoningOutputTokens none

def costClass : UsageCostClass :=
  let substr := row.costBasis.map fun s => String.ofList (s.toList.take 9)
  caseWhen (Tri.or (Tri.isNull row.actualCostMicros) (Tri.and (some (row.basisClass == .noCharge))
        (Tri.compare (· != ·) row.actualCostMicros (some 0)))) .unknown
    (caseWhen (some (row.basisClass != .unknown)) row.basisClass
      (caseWhen (Tri.and (Tri.and (Tri.compare (· == ·) substr (some "unpriced_"))
          (lt (some 0) row.reportingKnownCostMicros))
            (le row.reportingKnownCostMicros row.actualCostMicros)) .partialCost
        (caseWhen (Tri.and (Tri.and (Tri.compare (· == ·) row.actualCostMicros (some 0))
            (Tri.isNotNull row.reportingEstimatedCostMicros))
              (Tri.compare (· != ·) row.reportingEstimateReason (some ""))) .estimated
          .unknown)))

def uncached : Option Int := row.inputTokens.bind fun input => row.cacheWrite.map (input - ·)

def callKind : CallKind :=
  caseWhen (Tri.or (row.requestFormat.map utilityFormats.contains)
      (Tri.and (Tri.compare (· == ·) row.requestFormat (some "anthropic.messages"))
        (Tri.compare (· == ·) row.capability (some "llm.count_tokens")))) .utility .generation

def lane : UsageCostLane :=
  match row.grantLane with
  | some "subscription" => .subscription
  | some "api_key" => .api
  | some "environment" => .api
  | _ => .unattributed

def reportingCostMicros : Option Int :=
  caseWhen (some (row.costClass == .unknown)) none
    (caseWhen (some (row.basisClass == .unknown && row.costClass == .partialCost)) row.reportingKnownCostMicros
      (caseWhen (some (row.basisClass == .unknown && row.costClass == .estimated))
        row.reportingEstimatedCostMicros row.actualCostMicros))

end OwnedRow

/-- The columns that reports are computed from, with the row's id. -/
@[ext]
structure ScalarRow where
  id : String
  occurredAtMs : Int
  provider : String
  status : String
  model : Option String
  keyId : Option String
  inputTokens : Option Int
  outputTokens : Option Int
  cachedInputTokens : Option Int
  cacheWriteInputTokens : Option Int
  reasoningOutputTokens : Option Int
  callKind : CallKind
  lane : UsageCostLane
  costClass : UsageCostClass
  reportingCostMicros : Option Int
  deriving DecidableEq

def source (row : OwnedRow) : ScalarRow :=
  let conflict := OwnedRow.lt row.uncached row.cacheRead
  { id := row.id
    occurredAtMs := row.occurredAtMs
    provider := row.provider
    status := row.status
    model := row.model
    keyId := row.credentialId
    inputTokens := row.inputTokens
    outputTokens := row.outputTokens
    cachedInputTokens := caseWhen conflict none row.cacheRead
    cacheWriteInputTokens := caseWhen conflict none row.cacheWrite
    reasoningOutputTokens := row.reasoning
    callKind := row.callKind
    lane := row.lane
    costClass := row.costClass
    reportingCostMicros := row.reportingCostMicros }

def PersonalUsageEvent.scalar (detail : PersonalUsageEvent) : ScalarRow :=
  { id := detail.id
    occurredAtMs := detail.occurredAt
    provider := detail.provider
    status := detail.status
    model := detail.model
    keyId := detail.keyId
    inputTokens := detail.inputTokens
    outputTokens := detail.outputTokens
    cachedInputTokens := detail.cachedInputTokens
    cacheWriteInputTokens := detail.cacheWriteInputTokens
    reasoningOutputTokens := detail.reasoningOutputTokens
    callKind := detail.callKind
    lane := detail.lane
    costClass := detail.costClass
    reportingCostMicros := detail.reportingCostMicros }

/-! ## 2. The classifications agree -/

theorem jsonCounter_eq (value : Option Json) : jsonCounter value = counter value := by
  match value with
  | none => rfl
  | some .null => rfl
  | some (.bool b) => cases b <;> rfl
  | some (.str _) | some (.arr _) | some (.obj _) => rfl
  | some (.frac _) => rfl
  | some (.int n) =>
    unfold jsonCounter
    by_cases h : -9223372036854775808 ≤ n ∧ n ≤ 9223372036854775807
    · have hvalue : jsonExtract (some (.int n)) = .integer n := if_pos h
      have hrange : (0 ≤ n && n ≤ maxSafeInteger) = true ↔ 0 ≤ n ∧ n ≤ maxSafeInteger := by
        simp
      rw [hvalue]
      unfold inCounterRange caseWhen
      refine if_congr ?_ rfl rfl
      rw [Tri.and_eq_true, Option.some_inj, hrange]
      exact and_iff_right rfl
    · have hvalue : jsonExtract (some (.int n)) = .real (toString n) := if_neg h
      have hout : ¬ (0 ≤ n ∧ n ≤ maxSafeInteger) := by
        unfold maxSafeInteger
        omega
      rw [hvalue]
      exact (if_neg hout).symm

theorem text_eq (value : Option Json) : extractText value = text value := extractText_eq value

section Basis

theorem lookup_number {s : String} (h : s.toList.head?.any (fun c => c.isDigit || c = '-') = true) :
    knownBasisClasses.lookup s = none := by
  have hnames : ∀ p ∈ knownBasisClasses, p.1.toList.head?.any (fun c => c.isDigit || c = '-') =
    false := by decide
  rw [List.lookup_eq_none_iff]
  intro p hp
  by_contra hne
  have e : s = p.1 := by simpa using hne
  rw [e, hnames p hp] at h
  cases h

theorem head_toString (n : Int) : (toString n).toList.head?.any (fun c => c.isDigit || c = '-') = true := by
  rw [Int.toString_eq_repr, Int.repr_eq_if]
  split
  · rw [Nat.toList_repr]
    cases hdigits : Nat.toDigits 10 n.toNat with
    | nil => exact absurd hdigits Nat.toDigits_ne_nil
    | cons c rest =>
      have hc : c.isDigit = true := Nat.isDigit_of_mem_toDigits (b := 10) (n := n.toNat) (by decide)
        (by decide)
          (by rw [hdigits]; exact List.mem_cons_self)
      simp [hc]
  · simp

/-- The cost basis is an array that is turned into the name of a basis. -/
def ArrayBasis (event : Json) : Prop :=
  ∃ items key, event.get? "cost_basis" = some (.arr items) ∧ propertyKey (.arr items) = some key ∧
    knownBasisClasses.lookup key ≠ none

theorem canonicalClass_eq {event : Json} {cls : UsageCostClass}
    (h : canonicalClass (event.get? "cost_basis") = some cls) (hbasis : ¬ ArrayBasis event) :
    cls = ((text (event.get? "cost_basis")).bind fun basis => knownBasisClasses.lookup basis).getD
      .unknown := by
  have hunknown : ∀ {value key}, event.get? "cost_basis" = some value →
      propertyKey value = some key → knownBasisClasses.lookup key = none → cls = .unknown := by
    intro value key hvalue hkey hnone
    unfold canonicalClass at h
    rw [hvalue] at h
    dsimp only at h
    rw [hkey, Option.map_some, hnone] at h
    exact (Option.some_inj.mp h).symm
  match hvalue : event.get? "cost_basis" with
  | none =>
    have hmissing : knownBasisClasses.lookup "undefined" = none := by decide
    unfold canonicalClass at h
    rw [hvalue] at h
    rw [hmissing] at h
    exact (Option.some_inj.mp h).symm
  | some (.str s) =>
    rw [hvalue] at h
    exact (Option.some_inj.mp h).symm
  | some .null => exact hunknown hvalue rfl (by decide)
  | some (.bool b) => exact hunknown hvalue rfl (by cases b <;> decide)
  | some (.int n) => exact hunknown hvalue rfl (lookup_number (head_toString n))
  | some (.frac value) => exact hunknown hvalue rfl (lookup_number value.numeric)
  | some (.arr items) =>
    cases hkey : propertyKey (.arr items) with
    | none =>
      unfold canonicalClass at h
      rw [hvalue] at h
      dsimp only at h
      rw [hkey] at h
      cases h
    | some key =>
      refine hunknown hvalue hkey ?_
      by_contra hknown
      exact hbasis ⟨items, key, hvalue, hkey, hknown⟩
  | some (.obj members) =>
    cases hkey : propertyKey (.obj members) with
    | none =>
      unfold canonicalClass at h
      rw [hvalue] at h
      dsimp only at h
      rw [hkey] at h
      cases h
    | some key =>
      have e : key = "[object Object]" := by
        unfold propertyKey at hkey
        split at hkey
        · cases hkey
        · exact (Option.some_inj.mp hkey).symm
      refine hunknown hvalue hkey ?_
      rw [e]
      decide

end Basis

section Twin

variable (event : UsageEvent)

theorem caseWhen_subset (value : Option Json) (inclusive : Option Int) :
    caseWhen (OwnedRow.le (jsonCounter value) inclusive) (jsonCounter value) none = subsetCounter
      value inclusive := by
  rw [jsonCounter_eq]
  unfold subsetCounter caseWhen OwnedRow.le
  cases counter value with
  | none => simp
  | some value =>
    cases inclusive with
    | none => simp
    | some inclusive => simp [Tri.compare]

theorem cacheCounters_eq :
    ((source (owned event)).cachedInputTokens, (source (owned event)).cacheWriteInputTokens) =
      cacheCounters event.json := by
  have hread : (owned event).cacheRead = subsetCounter (event.json.get? "cached_input_tokens")
      (counter (event.json.get? "input_tokens")) := by
    rw [← jsonCounter_eq (event.json.get? "input_tokens")]
    exact caseWhen_subset _ _
  have hwrite : (owned event).cacheWrite = subsetCounter
      (event.json.get? "cache_write_input_tokens") (counter (event.json.get? "input_tokens")) := by
    rw [← jsonCounter_eq (event.json.get? "input_tokens")]
    exact caseWhen_subset _ _
  have hinput : (owned event).inputTokens = counter (event.json.get? "input_tokens") := jsonCounter_eq _
  unfold source cacheCounters
  dsimp only
  unfold OwnedRow.uncached
  rw [hread, hwrite, hinput]
  unfold OwnedRow.lt caseWhen
  cases subsetCounter (event.json.get? "cached_input_tokens") (counter (event.json.get? "input_tokens")) with
  | none => simp
  | some read =>
    cases subsetCounter (event.json.get? "cache_write_input_tokens")
      (counter (event.json.get? "input_tokens")) with
    | none => simp
    | some write =>
      cases counter (event.json.get? "input_tokens") with
      | none => simp
      | some input =>
        by_cases h : input - write < read
        · simp [h]
        · simp [h]

theorem callKind_eq : (owned event).callKind = callKind event.json := by
  have hformat : (owned event).requestFormat = text (event.json.get? "request_format") := text_eq _
  have hcapability : (owned event).capability = text (event.json.get? "capability") := text_eq _
  unfold OwnedRow.callKind callKind caseWhen
  rw [hformat, hcapability]
  refine if_congr ?_ rfl rfl
  rw [Tri.or_eq_true, Tri.and_eq_true]
  cases text (event.json.get? "request_format") <;> cases text (event.json.get? "capability") <;> simp

theorem lane_eq : (owned event).lane = reportingLane event.json := by
  have hlane : (owned event).grantLane = text (event.json.get? "grant_lane") := text_eq _
  unfold OwnedRow.lane reportingLane
  rw [hlane]
  match event.json.get? "grant_lane" with
  | none => rfl
  | some (.str s) =>
    show (match some s with
      | some "subscription" | some "api_key" | some "environment" => _
      | _ => _) = _
    by_cases h1 : s = "subscription"
    · subst h1
      rfl
    by_cases h2 : s = "api_key"
    · subst h2
      rfl
    by_cases h3 : s = "environment"
    · subst h3
      rfl
    simp [h1, h2, h3]
  | some .null | some (.bool _) | some (.int _) | some (.frac _) | some (.arr _)
  | some (.obj _) => rfl

theorem unpriced_eq (basis : Option String) :
    Tri.compare (· == ·) (basis.map fun s => String.ofList (s.toList.take 9)) (some "unpriced_") = some true ↔
      (basis.any fun s => "unpriced_".toList.isPrefixOf s.toList) = true := by
  cases basis with
  | none => simp
  | some s =>
    rw [Option.map_some, Option.any_some, Tri.compare_eq_true, List.isPrefixOf_iff_prefix,
      List.prefix_iff_eq_take]
    have hlen : "unpriced_".toList.length = 9 := by decide
    rw [hlen]
    constructor
    · rintro ⟨a, b, ha, hb, hab⟩
      have e : String.ofList (s.toList.take 9) = "unpriced_" := by
        rw [Option.some_inj.mp ha, Option.some_inj.mp hb]
        exact beq_iff_eq.mp hab
      rw [← e, String.toList_ofList]
    · intro e
      refine ⟨_, _, rfl, rfl, beq_iff_eq.mpr ?_⟩
      rw [← e]
      exact String.ofList_toList

theorem known_not_unpriced {basis : Option String}
    (h : (basis.bind fun basis => knownBasisClasses.lookup basis).getD .unknown ≠ .unknown) :
    (basis.any fun s => "unpriced_".toList.isPrefixOf s.toList) = false := by
  have hnames : ∀ p ∈ knownBasisClasses, "unpriced_".toList.isPrefixOf p.1.toList = false := by
    decide
  cases basis with
  | none => rfl
  | some s =>
    cases hs : knownBasisClasses.lookup s with
    | none => exact absurd (by simp [hs]) h
    | some cls =>
      obtain ⟨l, l', e, -⟩ := List.lookup_eq_some_iff.mp hs
      have hmem : (s, cls) ∈ knownBasisClasses := by
        rw [e]
        simp
      exact hnames (s, cls) hmem

theorem cost_eq {cost : ReportingCost} (h : reportingCost event.json = some cost)
    (hbasis : ¬ ArrayBasis event.json) :
    (owned event).lane = cost.lane ∧ (owned event).costClass = cost.costClass ∧
      (owned event).reportingCostMicros = cost.amount := by
  unfold reportingCost at h
  obtain ⟨cls, hcls, e⟩ := Option.map_eq_some_iff.mp h
  have hbasisClass : (owned event).basisClass = cls := by
    rw [canonicalClass_eq hcls hbasis]
    unfold OwnedRow.basisClass owned
    dsimp only
    rw [text_eq]
  have hactual : (owned event).actualCostMicros = counter (event.json.get? "actual_cost_micros") :=
    jsonCounter_eq _
  have hknown : (owned event).reportingKnownCostMicros =
      counter (event.json.get? "reporting_known_cost_micros") := jsonCounter_eq _
  have hestimated : (owned event).reportingEstimatedCostMicros =
      counter (event.json.get? "reporting_estimated_cost_micros") := jsonCounter_eq _
  have hreason : (owned event).reportingEstimateReason = text
    (event.json.get? "reporting_estimate_reason") := text_eq _
  have hcost : (owned event).costBasis = text (event.json.get? "cost_basis") := text_eq _
  have hlane := lane_eq event
  unfold OwnedRow.reportingCostMicros OwnedRow.costClass
  dsimp only
  rw [hbasisClass, hactual, hknown, hestimated, hreason, hcost, hlane]
  unfold reportingCost.estimate at e
  generalize reportingLane event.json = lane at e ⊢
  generalize counter (event.json.get? "actual_cost_micros") = actual at e ⊢
  generalize counter (event.json.get? "reporting_known_cost_micros") = known at e ⊢
  generalize counter (event.json.get? "reporting_estimated_cost_micros") = estimated at e ⊢
  generalize text (event.json.get? "reporting_estimate_reason") = reason at e ⊢
  have hunpriced := unpriced_eq (text (event.json.get? "cost_basis"))
  have hfree : cls ≠ .unknown → (text (event.json.get? "cost_basis")).any (fun s =>
      "unpriced_".toList.isPrefixOf s.toList) = false := by
    rw [canonicalClass_eq hcls hbasis]
    exact known_not_unpriced
  generalize Tri.compare (· == ·) ((text (event.json.get? "cost_basis")).map fun s =>
    String.ofList (s.toList.take 9)) (some "unpriced_") = sqlUnpriced at hunpriced ⊢
  generalize ((text (event.json.get? "cost_basis")).any fun s =>
    "unpriced_".toList.isPrefixOf s.toList) = unpriced at e hunpriced hfree
  clear h hcls hbasisClass hactual hknown hestimated hreason hcost hlane
  subst e
  unfold caseWhen OwnedRow.le OwnedRow.lt
  simp only [Tri.or_eq_true, Tri.and_eq_true, Tri.isNull_eq_true, Tri.isNotNull_eq_true, hunpriced]
  cases actual with
  | none =>
    -- without a recorded charge nothing is established
    cases estimated <;> cases reason <;> simp
  | some a =>
    by_cases hcharged : cls = .noCharge ∧ a ≠ 0
    · obtain ⟨rfl, ha⟩ := hcharged
      have hfree : unpriced = false := hfree (by decide)
      cases known <;> cases estimated <;> cases reason <;> simp [ha, hfree]
    · by_cases hcls : cls = .unknown
      · subst hcls
        cases known with
        | none =>
          cases estimated with
          | none => simp
          | some x =>
            cases reason with
            | none => simp
            | some r => by_cases h : a = 0 ∧ r ≠ "" <;> simp [h]
        | some k =>
          by_cases hk : unpriced = true ∧ 0 < k ∧ k ≤ a
          · simp [hk]
          · cases estimated with
            | none => simp [hk, and_assoc]
            | some x =>
              cases reason with
              | none => simp [hk, and_assoc]
              | some r =>
                by_cases h : a = 0 ∧ r ≠ ""
                · obtain ⟨rfl, hr⟩ := h
                  simp [hk, hr, and_assoc]
                · simp [hk, h, and_assoc]
      · cases known <;> simp [hcls, hcharged]

/-- **The SQL gives the projection of the event.** -/
theorem source_eq {detail : PersonalUsageEvent} (h : projectUsageEvent event = some detail)
    (hbasis : ¬ ArrayBasis event.json) : source (owned event) = detail.scalar := by
  obtain ⟨cost, hcost, e⟩ := Option.map_eq_some_iff.mp h
  obtain ⟨hlane, hclass, hamount⟩ := cost_eq event hcost hbasis
  have hcache := cacheCounters_eq event
  have hreasoning : (owned event).reasoning = subsetCounter
      (event.json.get? "reasoning_output_tokens") (counter (event.json.get? "output_tokens")) := by
    rw [← jsonCounter_eq (event.json.get? "output_tokens")]
    exact caseWhen_subset _ _
  subst e
  refine ScalarRow.ext rfl rfl rfl rfl (text_eq _) (text_eq _) (jsonCounter_eq _)
    (jsonCounter_eq _) ?_ ?_ hreasoning (callKind_eq event) hlane hclass hamount
  · exact congrArg Prod.fst hcache
  · exact congrArg Prod.snd hcache

end Twin

end ClawRouter.Report
