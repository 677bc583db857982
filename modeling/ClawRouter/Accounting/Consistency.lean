/-
  Subject:   Whether a receipt contradicts itself or its report (`accountingReceipt` of
             src/worker/proxy-accounting.ts, `reportingCost` of src/worker/usage-report-cost.ts).

  The charge and its basis come from different conditionals over the same members. They agree but for
  one case: the estimate has the basis `none`, and all the same something is due.

  * **`receipt_consistent`**: there is no other.
-/
import ClawRouter.Accounting.Receipt
import ClawRouter.Report.Projection

namespace ClawRouter.Accounting

open Pricing Js

/-! ## 1. The receipt as it is reported -/

def UsageEvent.json (event : UsageEvent) : Json :=
  .obj ([("grant_lane", (event.grantLane.map fun lane => Json.str lane.text).getD .null),
      ("cost_basis", .str event.costBasis), ("actual_cost_micros", .int event.actualCostMicros)] ++
    (match event.reportingKnownCostMicros with
      | none => []
      | some none => [("reporting_known_cost_micros", .null)]
      | some (some known) => [("reporting_known_cost_micros", .int known)]) ++
    match event.reportingEstimate with
    | none => []
    | some estimate =>
      [("reporting_estimated_cost_micros", .int estimate.micros),
        ("reporting_estimate_reason", .str estimate.reason)])

section Report

variable (event : UsageEvent)

theorem json_basis : event.json.get? "cost_basis" = some (.str event.costBasis) := by
  rfl

theorem json_actual : event.json.get? "actual_cost_micros" = some (.int event.actualCostMicros) := by
  rfl

theorem json_canonicalClass : Report.canonicalClass (event.json.get? "cost_basis") =
      some ((Report.knownBasisClasses.lookup event.costBasis).getD .unknown) := by
  rw [json_basis]
  rfl

theorem canonical_not_part (basis : String) :
    (Report.knownBasisClasses.lookup basis).getD .unknown ≠ .partialCost := by
  cases h : Report.knownBasisClasses.lookup basis with
  | none => exact fun hc => by cases hc
  | some costClass =>
    obtain ⟨l₁, l₂, e, -⟩ := List.lookup_eq_some_iff.mp h
    have hmem : (basis, costClass) ∈ Report.knownBasisClasses := by
      rw [e]
      exact List.mem_append_right _ List.mem_cons_self
    have hall : ∀ m ∈ Report.knownBasisClasses, m.2 ≠ .partialCost := by decide
    exact hall _ hmem

theorem estimate_not_part {json : Json} {lane : Report.UsageCostLane}
    {costClass : Report.UsageCostClass} {actual : Option Int} (h : costClass ≠ .partialCost) :
    (Report.reportingCost.estimate json lane costClass actual).costClass ≠ .partialCost := by
  unfold Report.reportingCost.estimate
  split
  · split
    · split
      · exact fun hc => by cases hc
      · exact fun hc => by cases hc
    · exact fun hc => by cases hc
  · exact h

theorem part_reported {json : Json} {lane : Report.UsageCostLane} {costClass : Report.UsageCostClass}
    {actual : Option Int} {known : Int} {p : Prop} [Decidable p] {cost : Report.ReportingCost}
    (hne : costClass ≠ .partialCost) (h : (if costClass = .unknown ∧ p then ⟨lane, .partialCost, some known⟩
      else Report.reportingCost.estimate json lane costClass actual) = cost)
    (hclass : cost.costClass = .partialCost) : p ∧ cost.amount = some known := by
  split at h
  · rename_i hpart
    subst h
    exact ⟨hpart.2, rfl⟩
  · subst h
    exact absurd hclass (estimate_not_part hne)

theorem reportingCost_free (hbasis : event.costBasis = "none") (hactual : event.actualCostMicros = 0) :
    ∃ cost, Report.reportingCost event.json = some cost ∧ cost.costClass = .noCharge := by
  have hclass : (Report.knownBasisClasses.lookup event.costBasis).getD .unknown = .noCharge := by
    rw [hbasis]
    decide
  have hcounter : Report.counter (event.json.get? "actual_cost_micros") = some 0 := by
    rw [json_actual, hactual]
    rfl
  have hcost : ∃ cost, Report.reportingCost event.json = some cost := by
    unfold Report.reportingCost
    dsimp only
    rw [json_canonicalClass]
    exact ⟨_, rfl⟩
  obtain ⟨cost, h⟩ := hcost
  refine ⟨cost, h, ?_⟩
  unfold Report.reportingCost at h
  dsimp only at h
  rw [json_canonicalClass, hclass, Option.map_some] at h
  rw [hcounter, if_neg (by decide)] at h
  split at h
  · rw [if_neg (fun hc => by cases hc.1)] at h
    cases h
    rfl
  · cases h
    rfl

theorem reportingCost_part {cost : Report.ReportingCost}
    (h : Report.reportingCost event.json = some cost) (hclass : cost.costClass = .partialCost) :
    ∃ amount, cost.amount = some amount ∧ amount ≤ event.actualCostMicros := by
  unfold Report.reportingCost at h
  dsimp only at h
  rw [json_canonicalClass, Option.map_some] at h
  have hne : ∀ actual : Option Int,
      (if actual = none ∨ (Report.knownBasisClasses.lookup event.costBasis).getD .unknown = .noCharge ∧
          actual ≠ some 0 then Report.UsageCostClass.unknown
        else (Report.knownBasisClasses.lookup event.costBasis).getD .unknown) ≠ .partialCost := by
    intro actual
    split
    · exact fun hc => by cases hc
    · exact canonical_not_part _
  split at h
  · rename_i actual known hactual hknown
    obtain ⟨hpart, hamount⟩ := part_reported (hne _) (Option.some.inj h) hclass
    refine ⟨known, hamount, ?_⟩
    rw [json_actual] at hactual
    unfold Report.counter at hactual
    dsimp only at hactual
    split at hactual
    · cases hactual
      exact hpart.2.2
    · cases hactual
  · cases h
    exact absurd hclass (estimate_not_part (hne _))

end Report

/-! ## 2. What a receipt promises -/

def SafeAmount (n : Int) : Prop := 0 ≤ n ∧ n ≤ maxMicros

def tariffApplies (facts : AccountingFacts) : Bool := facts.cost.requestTariff.isSome && facts.fixed.isNone

/-- The amounts a receipt may be computed from are safe: what was measured, the fees and the
    reserves. -/
structure SafeAmounts (facts : AccountingFacts) (outcome : AccountingOutcome) : Prop where
  measured : ∀ cost, measured facts outcome = some cost → SafeAmount cost
  fixed : ∀ price, facts.fixed = some price → SafeAmount price
  reserve : SafeAmount facts.cost.reserveMicros
  reserved : SafeAmount outcome.reservation.reservedMicros
  tariff : ∀ tariff micros, facts.cost.requestTariff = some tariff →
    tariff.kind = .successfulRequest micros → SafeAmount micros
  receipt : ∀ receipt, outcome.requestCostReceipt = some receipt → SafeAmount receipt.costMicros

/-- **What the receipt of an outcome and its report promise each other.** -/
structure Consistent (facts : AccountingFacts) (outcome : AccountingOutcome) : Prop where
  free : (accountingReceipt facts outcome).costBasis = "none" →
    (accountingReceipt facts outcome).actualCostMicros = 0
  known : ∀ part,
    (accountingReceipt facts outcome).reportingKnownCostMicros = some (some part) →
      0 < part ∧ part ≤ (accountingReceipt facts outcome).actualCostMicros ∧
        isUnpriced (accountingReceipt facts outcome).costBasis = true
  unbilled : outcome.billable = false → tariffApplies facts = false →
    (accountingReceipt facts outcome).actualCostMicros = 0
  safe : SafeAmounts facts outcome → SafeAmount (accountingReceipt facts outcome).actualCostMicros
  notUnknown : (accountingReceipt facts outcome).costBasis = "none" →
    ∃ cost, Report.reportingCost (accountingReceipt facts outcome).json = some cost ∧
      cost.costClass ≠ .unknown
  part : ∀ cost, Report.reportingCost (accountingReceipt facts outcome).json = some cost →
    cost.costClass = .partialCost →
      ∃ amount, cost.amount = some amount ∧
        amount ≤ (accountingReceipt facts outcome).actualCostMicros

/-- The usage settles a request: it is no moderation, no media without a price, and has no tariff. -/
def UsageSettles (facts : AccountingFacts) : Prop :=
  facts.requestFormat ≠ "openai.moderations" ∧ ¬ (nativeMedia facts = true ∧ facts.fixed = none) ∧
    tariffApplies facts = false

/-- What a usage without a fixed price costs, where its request has no pricing gap and no web tool of
    Claude: the price of its tokens, or the estimate from its characters. -/
def usageCost (facts : AccountingFacts) (outcome : AccountingOutcome) : Option Int :=
  match outcome.tokens with
  | some tokens =>
    if outcome.reservation.charges.isSome ∧ facts.pricing.isNone then none
    else actualCost facts.model tokens none facts.requestFormat facts.anthropicRequest
  | none => outcome.characterEstimate

/-- What a receipt should charge, and on which basis. -/
inductive Due (facts : AccountingFacts) (outcome : AccountingOutcome) : Prop
  | fixed (price : Int) (h : facts.fixed = some price) (hprice : price ≠ 0)
  | measured (hfixed : facts.fixed = none) (hclaude : claudeWeb facts = none)
      (hhosted : hostedEvent facts outcome = false) (cost : Int)
      (h : usageCost facts outcome = some cost) (hcost : cost ≠ 0)
  | reserve (hfixed : facts.fixed = none) (hclaude : claudeWeb facts = none)
      (hhosted : hostedEvent facts outcome = false) (h : usageCost facts outcome = none)
      (hhard : outcome.reservation.charges = none ∨ image facts = true)
      (hreserve : facts.cost.reserveMicros ≠ 0)

/-- **A charge without a basis**: the estimate names none, and something is due all the same. -/
structure UnbasedCharge (facts : AccountingFacts) (outcome : AccountingOutcome) : Prop where
  usage : UsageSettles facts
  basis : facts.cost.basis = "none"
  gap : facts.cost.pricingGap = none
  billable : outcome.billable = true
  priced : anthropicUnpriced facts outcome = false
  due : Due facts outcome

/-! ## 3. The three receipts that need no usage -/

section Receipts

variable {facts : AccountingFacts} {outcome : AccountingOutcome}

theorem maxMicros_pos : 0 < maxMicros := by decide

theorem safeAmount_zero : SafeAmount 0 := ⟨Int.le_refl 0, Int.le_of_lt maxMicros_pos⟩

theorem receipt_cases (facts : AccountingFacts) (outcome : AccountingOutcome) : (¬ UsageSettles facts ∧
      (accountingReceipt facts outcome = moderationReceipt facts outcome ∨
      accountingReceipt facts outcome = mediaReceipt facts outcome ∨
      ∃ tariff, facts.cost.requestTariff = some tariff ∧ tariffApplies facts = true ∧
        accountingReceipt facts outcome = tariffReceipt facts outcome tariff)) ∨
    (UsageSettles facts ∧ accountingReceipt facts outcome = usageReceipt facts outcome) := by
  unfold accountingReceipt
  by_cases hformat : facts.requestFormat = "openai.moderations"
  · rw [if_pos hformat]
    exact Or.inl ⟨fun h => h.1 hformat, Or.inl rfl⟩
  · rw [if_neg hformat]
    by_cases hmedia : nativeMedia facts = true ∧ facts.fixed = none
    · rw [if_pos hmedia]
      exact Or.inl ⟨fun h => h.2.1 hmedia, Or.inr (Or.inl rfl)⟩
    · rw [if_neg hmedia]
      cases htariff : facts.cost.requestTariff with
      | none =>
        refine Or.inr ⟨⟨hformat, hmedia, ?_⟩, rfl⟩
        rw [tariffApplies, htariff]
        rfl
      | some tariff =>
        cases hfixed : facts.fixed with
        | none =>
          have happlies : tariffApplies facts = true := by
            rw [tariffApplies, htariff, hfixed]
            rfl
          refine Or.inl ⟨fun h => ?_, Or.inr (Or.inr ⟨tariff, rfl, happlies, rfl⟩)⟩
          rw [h.2.2] at happlies
          cases happlies
        | some f =>
          refine Or.inr ⟨⟨hformat, hmedia, ?_⟩, rfl⟩
          rw [tariffApplies, hfixed]
          exact Bool.and_false _

theorem ReceiptBasis.text_ne_none (basis : ReceiptBasis) : basis.text ≠ "none" := by
  cases basis with
  | providerReported | manifestRequest => decide

theorem settleRequestTariff_free {micros : Int} {o : RequestTariffOutcome}
    (h : (settleRequestTariff micros o).basis = "none") : (settleRequestTariff micros o).micros = 0 := by
  cases o with
  | succeeded => exact absurd h (by decide : "manifest_request" ≠ "none")
  | unknown => exact absurd h (by decide : "manifest_request_reservation" ≠ "none")
  | failed => rfl
  | unsent => rfl

theorem settledTariff_cases {tariff : RequestTariff} :
    (∃ micros, tariff.kind = .successfulRequest micros ∧ settledTariff facts outcome tariff =
      settleRequestTariff micros (outcome.requestTariffOutcome.getD .unknown)) ∨
    settledTariff facts outcome tariff = ⟨0, "none"⟩ ∨ (∃ receipt, outcome.requestCostReceipt = some receipt ∧
      settledTariff facts outcome tariff = ⟨receipt.costMicros, receipt.basis.text⟩) ∨
        ∃ basis, basis ≠ "none" ∧
      settledTariff facts outcome tariff = ⟨facts.cost.reserveMicros, basis⟩ := by
  unfold settledTariff
  split
  · rename_i micros hkind
    exact Or.inl ⟨micros, hkind, rfl⟩
  · refine Or.inr ?_
    split
    · exact Or.inl rfl
    · refine Or.inr ?_
      split
      · rename_i receipt hreceipt
        exact Or.inl ⟨receipt, (Option.filter_eq_some_iff.mp hreceipt).1, rfl⟩
      · refine Or.inr ⟨_, ?_, rfl⟩
        split
        · decide
        · decide

theorem settledTariff_free {tariff : RequestTariff}
    (h : (settledTariff facts outcome tariff).basis = "none") :
    (settledTariff facts outcome tariff).micros = 0 := by
  obtain ⟨micros, -, e⟩ | e | ⟨receipt, -, e⟩ | ⟨basis, hbasis, e⟩ :=
    @settledTariff_cases facts outcome tariff
  · rw [e] at h ⊢
    exact settleRequestTariff_free h
  · rw [e]
  · rw [e] at h
    exact absurd h receipt.basis.text_ne_none
  · rw [e] at h
    exact absurd h hbasis

theorem settledTariff_safe {tariff : RequestTariff}
    (htariff : facts.cost.requestTariff = some tariff) (hsafe : SafeAmounts facts outcome) :
    SafeAmount (settledTariff facts outcome tariff).micros := by
  obtain ⟨micros, hkind, e⟩ | e | ⟨receipt, hreceipt, e⟩ | ⟨basis, -, e⟩ :=
    @settledTariff_cases facts outcome tariff
  · rw [e]
    unfold settleRequestTariff
    split
    · exact safeAmount_zero
    · exact safeAmount_zero
    · exact hsafe.tariff tariff micros htariff hkind
    · exact hsafe.tariff tariff micros htariff hkind
  · rw [e]
    exact safeAmount_zero
  · rw [e]
    exact hsafe.receipt receipt hreceipt
  · rw [e]
    exact hsafe.reserve

end Receipts

/-! ## 4. The receipt of a usage -/

section Usage

variable {facts : AccountingFacts} {outcome : AccountingOutcome}

theorem toolFee_billable (h : outcome.billable = false) : toolFee facts outcome = none := by
  unfold toolFee
  rw [if_neg]
  rintro ⟨hb, -⟩
  rw [h] at hb
  cases hb

theorem toolFee_hosted (h : hostedEvent facts outcome = false) : toolFee facts outcome = none := by
  unfold toolFee
  split
  · unfold hostedEvent at h
    cases hhosted : hosted facts outcome with
    | none => rfl
    | some hosted =>
      rw [hhosted, Option.any_some, Bool.or_eq_false_iff] at h
      have hprice : searchPrice facts = none := by
        cases hp : searchPrice facts with
        | none => rfl
        | some price => rw [hp] at h; cases h.1
      dsimp only
      split
      · rw [hprice]
        rfl
      · rfl
  · rfl

theorem actual_unbilled (h : outcome.billable = false) : actual facts outcome = 0 := by
  unfold actual
  rw [toolFee_billable h, h, if_neg Bool.noConfusion]
  rfl

theorem knownNoCharge_free (h : knownNoCharge facts outcome = true) : actual facts outcome = 0 := by
  rcases (Bool.or_eq_true _ _).mp h with hb | hb
  · exact actual_unbilled (Bool.not_eq_true' _ |>.mp hb)
  · rw [Bool.and_eq_true, Bool.and_eq_true] at hb
    exact beq_iff_eq.mp hb.1.2

theorem billable_of_charge (h : actual facts outcome ≠ 0) : outcome.billable = true := by
  cases hb : outcome.billable with
  | true => rfl
  | false => exact absurd (actual_unbilled hb) h

theorem measuredBasis_ne_none : measuredBasis facts outcome ≠ "none" := by
  unfold measuredBasis
  split
  · decide
  · split
    · decide
    · decide

theorem hard_iff : ¬ (soft outcome = true ∧ image facts = false) ↔
    outcome.reservation.charges = none ∨ image facts = true := by
  unfold soft
  cases outcome.reservation.charges with
  | none => simp
  | some charges => simp

theorem cap_eq_zero {x : Int} : min maxMicros x = 0 ↔ x = 0 := by
  have hmax := maxMicros_pos
  omega

theorem claudeBasis_fixed {f : Int} (hfixed : facts.fixed = some f) : claudeBasis facts outcome = none := by
  unfold claudeBasis
  cases claudeWeb facts with
  | none => rfl
  | some web =>
    dsimp only
    rw [if_neg]
    rintro ⟨hnone, -⟩
    rw [hfixed] at hnone
    cases hnone

theorem claudeBasis_web {web : AnthropicWebPrice} (hweb : claudeWeb facts = some web)
    (hfixed : facts.fixed = none) (hbillable : outcome.billable = true)
    (hcharge : knownNoCharge facts outcome = false) :
    ∃ basis, claudeBasis facts outcome = some basis ∧ basis ≠ "none" := by
  unfold claudeBasis
  rw [hweb]
  dsimp only
  rw [if_pos ⟨hfixed, hbillable⟩, hcharge, if_neg Bool.noConfusion]
  split
  · exact ⟨_, rfl, measuredBasis_ne_none⟩
  · exact ⟨_, rfl, by decide⟩

theorem basis_none_iff (hbillable : outcome.billable = true) (hcharge : knownNoCharge facts outcome = false) :
    basis facts outcome = "none" ↔ facts.cost.basis = "none" ∧ facts.cost.pricingGap = none ∧
        anthropicUnpriced facts outcome = false ∧
        ¬ (soft outcome = true ∧ image facts = false ∧ measured facts outcome = none ∧
          facts.fixed = none) := by
  have hmeasured : ∀ other : String, other ≠ "none" →
      (if measured facts outcome = none then other else measuredBasis facts outcome) ≠ "none" := by
    intro other hother
    split
    · exact hother
    · exact measuredBasis_ne_none
  unfold basis
  rw [hbillable, hcharge]
  by_cases hunpriced : anthropicUnpriced facts outcome = true
  · rw [if_pos ⟨hunpriced, rfl⟩, hunpriced]
    exact iff_of_false (by decide) (fun h => by cases h.2.2.1)
  rw [if_neg (fun h => hunpriced h.1)]
  by_cases haudio : audioUnbounded facts = true
  · rw [if_pos ⟨haudio, rfl⟩]
    refine iff_of_false (hmeasured _ (by decide)) (fun h => ?_)
    rw [audioUnbounded, h.2.1] at haudio
    cases haudio
  rw [if_neg (fun h => haudio h.1)]
  by_cases hsoft : soft outcome = true ∧ image facts = false ∧ measured facts outcome = none ∧
    facts.fixed = none
  · rw [if_pos ⟨hsoft.1, hsoft.2.1, rfl, hsoft.2.2⟩]
    exact iff_of_false (by decide) (fun h => h.2.2.2 hsoft)
  rw [if_neg (fun h => hsoft ⟨h.1, h.2.1, h.2.2.2⟩), if_neg Bool.noConfusion]
  cases hgap : facts.cost.pricingGap with
  | some gap =>
    rw [if_pos (show (some gap).isSome = true from rfl)]
    exact iff_of_false (by decide) (fun h => by cases h.2.1)
  | none =>
    rw [if_neg (by decide)]
    have hrest : facts.cost.basis = "none" ∧ (none : Option PricingGap) = none ∧
        anthropicUnpriced facts outcome = false ∧
        ¬ (soft outcome = true ∧ image facts = false ∧ measured facts outcome = none ∧
          facts.fixed = none) ↔ facts.cost.basis = "none" :=
      ⟨fun h => h.1, fun h => ⟨h, rfl, Bool.eq_false_iff.mpr hunpriced, hsoft⟩⟩
    rw [hrest]
    split
    · rename_i hbasis
      refine iff_of_false (hmeasured _ (by decide)) (fun h => ?_)
      rcases hbasis with hb | hb
      · rw [h] at hb
        exact absurd hb (by decide)
      · rw [h] at hb
        exact absurd hb (by decide)
    · split
      · rename_i hbasis
        refine iff_of_false (hmeasured _ (by decide)) (fun h => ?_)
        rw [h] at hbasis
        exact absurd hbasis (by decide)
      · exact Iff.rfl

/-! ## 5. What is due -/

theorem measured_usageCost (hunpriced : anthropicUnpriced facts outcome = false)
    (hgap : facts.cost.pricingGap = none) (hfixed : facts.fixed = none)
    (hclaude : claudeWeb facts = none) : measured facts outcome = usageCost facts outcome := by
  unfold measured usageCost soft
  rw [hunpriced, if_neg Bool.noConfusion, hgap, if_neg (fun h => by cases h.1), hclaude, hfixed]
  cases outcome.tokens with
  | none => exact Option.map_id'
  | some tokens =>
    dsimp only
    by_cases h : outcome.reservation.charges.isSome = true ∧ facts.pricing.isNone = true
    · rw [if_pos ⟨Or.inl h.1, h.2, rfl⟩, if_pos h]
    · rw [if_neg h, if_neg]
      rintro ⟨hsoft | hweb, hpricing, -⟩
      · exact h ⟨hsoft, hpricing⟩
      · cases hweb

theorem unmeasured_reserve (hunpriced : anthropicUnpriced facts outcome = false)
    (hgap : facts.cost.pricingGap = none) (hfixed : facts.fixed = none) (hclaude : claudeWeb facts = none) :
    unmeasured facts outcome = if soft outcome ∧ image facts = false then 0 else
      facts.cost.reserveMicros := by
  unfold unmeasured audioUnbounded
  rw [hunpriced, if_neg Bool.noConfusion, hgap, hclaude, hfixed, if_neg (by decide)]
  rfl

theorem actual_due (hbillable : outcome.billable = true) (hunpriced : anthropicUnpriced facts outcome = false)
    (hgap : facts.cost.pricingGap = none) (hfixed : facts.fixed = none)
    (hclaude : claudeWeb facts = none) (hhosted : hostedEvent facts outcome = false) :
    actual facts outcome = min maxMicros ((usageCost facts outcome).getD
      (if soft outcome ∧ image facts = false then 0 else facts.cost.reserveMicros)) := by
  unfold actual
  rw [toolFee_hosted hhosted, hbillable, if_pos rfl, measured_usageCost hunpriced hgap hfixed hclaude,
    unmeasured_reserve hunpriced hgap hfixed hclaude]
  exact congrArg (min maxMicros) (Int.add_zero _)

theorem actual_price {f : Int} (hbillable : outcome.billable = true)
    (hunpriced : anthropicUnpriced facts outcome = false) (hfixed : facts.fixed = some f) :
    actual facts outcome = min maxMicros f := by
  rw [anthropicUnpriced_fixed hfixed] at hunpriced
  rw [actual_fixed hfixed, hbillable, hunpriced]
  rfl

theorem finalBasis_eq (h : facts.fixed = none → claudeWeb facts = none ∧ hostedEvent facts outcome = false) :
    finalBasis facts outcome = basis facts outcome := by
  unfold finalBasis
  cases hfixed : facts.fixed with
  | some f =>
    rw [claudeBasis_fixed hfixed, Option.getD_none, if_neg (fun h => by cases h.2.1)]
  | none =>
    obtain ⟨hclaude, hhosted⟩ := h hfixed
    have hnone : claudeBasis facts outcome = none := by
      unfold claudeBasis
      rw [hclaude]
    rw [hnone, Option.getD_none, if_neg (fun h => by rw [hhosted] at h; cases h.2.2)]

theorem knownNoCharge_charge (h : actual facts outcome ≠ 0) : knownNoCharge facts outcome = false := by
  cases hknown : knownNoCharge facts outcome with
  | false => rfl
  | true => exact absurd (knownNoCharge_free hknown) h

/-- **A usage is charged under no basis** exactly where its estimate names none and something is
    due. -/
theorem unbased_iff (hsettles : UsageSettles facts) :
    finalBasis facts outcome = "none" ∧ actual facts outcome ≠ 0 ↔ UnbasedCharge facts outcome := by
  constructor
  · rintro ⟨hbasis, hcharge⟩
    have hbillable := billable_of_charge hcharge
    have hknown := knownNoCharge_charge hcharge
    cases hfixed : facts.fixed with
    | some f =>
      rw [finalBasis_eq (fun h => by rw [hfixed] at h; cases h), basis_none_iff hbillable hknown] at hbasis
      obtain ⟨hcost, hgap, hunpriced, -⟩ := hbasis
      refine ⟨hsettles, hcost, hgap, hbillable, hunpriced, .fixed f hfixed fun h0 => hcharge ?_⟩
      rw [actual_price hbillable hunpriced hfixed]
      exact cap_eq_zero.mpr h0
    | none =>
      cases hclaude : claudeWeb facts with
      | some web =>
        obtain ⟨basis, hsome, hne⟩ := claudeBasis_web hclaude hfixed hbillable hknown
        rw [finalBasis, hsome] at hbasis
        exact absurd hbasis hne
      | none =>
        cases hhosted : hostedEvent facts outcome with
        | true =>
          have hnone : claudeBasis facts outcome = none := by
            unfold claudeBasis
            rw [hclaude]
          rw [finalBasis, hnone, Option.getD_none, if_pos ⟨hbillable, hfixed, hhosted⟩] at hbasis
          exact absurd hbasis (by decide)
        | false =>
          rw [finalBasis_eq (fun _ => ⟨hclaude, hhosted⟩), basis_none_iff hbillable hknown] at hbasis
          obtain ⟨hcost, hgap, hunpriced, hsoft⟩ := hbasis
          refine ⟨hsettles, hcost, hgap, hbillable, hunpriced, ?_⟩
          rw [actual_due hbillable hunpriced hgap hfixed hclaude hhosted, Ne, cap_eq_zero] at hcharge
          rw [measured_usageCost hunpriced hgap hfixed hclaude] at hsoft
          cases husage : usageCost facts outcome with
          | some cost =>
            rw [husage] at hcharge
            exact .measured hfixed hclaude hhosted cost husage hcharge
          | none =>
            have hhard : ¬ (soft outcome = true ∧ image facts = false) := fun h =>
              hsoft ⟨h.1, h.2, husage, hfixed⟩
            rw [husage, Option.getD_none, if_neg hhard] at hcharge
            exact .reserve hfixed hclaude hhosted husage (hard_iff.mp hhard) hcharge
  · rintro ⟨-, hcost, hgap, hbillable, hunpriced, hdue⟩
    cases hdue with
    | fixed price hfixed hprice =>
      have hcharge : actual facts outcome ≠ 0 := by
        rw [actual_price hbillable hunpriced hfixed, Ne, cap_eq_zero]
        exact hprice
      rw [finalBasis_eq (fun h => by rw [hfixed] at h; cases h),
        basis_none_iff hbillable (knownNoCharge_charge hcharge)]
      exact ⟨⟨hcost, hgap, hunpriced, fun h => by rw [hfixed] at h; cases h.2.2.2⟩, hcharge⟩
    | measured hfixed hclaude hhosted cost husage hne =>
      have hcharge : actual facts outcome ≠ 0 := by
        rw [actual_due hbillable hunpriced hgap hfixed hclaude hhosted, Ne, cap_eq_zero, husage]
        exact hne
      rw [finalBasis_eq (fun _ => ⟨hclaude, hhosted⟩), basis_none_iff hbillable
        (knownNoCharge_charge hcharge),
        measured_usageCost hunpriced hgap hfixed hclaude, husage]
      exact ⟨⟨hcost, hgap, hunpriced, fun h => by cases h.2.2.1⟩, hcharge⟩
    | reserve hfixed hclaude hhosted husage hhard hreserve =>
      have hhard := hard_iff.mpr hhard
      have hcharge : actual facts outcome ≠ 0 := by
        rw [actual_due hbillable hunpriced hgap hfixed hclaude hhosted, Ne, cap_eq_zero, husage,
          Option.getD_none, if_neg hhard]
        exact hreserve
      rw [finalBasis_eq (fun _ => ⟨hclaude, hhosted⟩), basis_none_iff hbillable
        (knownNoCharge_charge hcharge)]
      exact ⟨⟨hcost, hgap, hunpriced, fun h => hhard ⟨h.1, h.2.1⟩⟩, hcharge⟩

/-! ## 6. The receipt and its report -/

theorem reportingKnown_part {part : Int} (h : reportingKnown facts outcome = some part) :
    0 < part ∧ part ≤ actual facts outcome ∧ isUnpriced (finalBasis facts outcome) = true := by
  unfold reportingKnown at h
  dsimp only at h
  split at h
  · rename_i hpart
    cases h
    exact ⟨hpart.2.2.1, hpart.2.2.2, hpart.1⟩
  · cases h

theorem unmeasured_safe (h : SafeAmounts facts outcome) : 0 ≤ unmeasured facts outcome := by
  have hfixed : ∀ other : Int, 0 ≤ other → 0 ≤ facts.fixed.getD other := by
    intro other hother
    cases hf : facts.fixed with
    | none => exact hother
    | some f => exact (h.fixed f hf).1
  unfold unmeasured
  split
  · exact h.reserved.1
  · split
    · exact hfixed 0 (Int.le_refl 0)
    · split
      · exact hfixed 0 (Int.le_refl 0)
      · exact hfixed _ h.reserve.1

theorem actual_safe (h : SafeAmounts facts outcome) : SafeAmount (actual facts outcome) := by
  have hcost : 0 ≤ if outcome.billable then
      (measured facts outcome).getD (unmeasured facts outcome) else 0 := by
    split
    · cases hm : measured facts outcome with
      | none => exact unmeasured_safe h
      | some cost => exact (h.measured cost hm).1
    · exact Int.le_refl 0
  have hfee : (0 : Int) ≤ ((toolFee facts outcome).getD 0 : Nat) := Int.natCast_nonneg _
  have hmax := maxMicros_pos
  unfold actual SafeAmount
  omega

theorem receipt_free : ((accountingReceipt facts outcome).costBasis = "none" →
      (accountingReceipt facts outcome).actualCostMicros = 0) ↔ ¬ UnbasedCharge facts outcome := by
  rcases receipt_cases facts outcome with ⟨hother, hreceipt⟩ | ⟨hsettles, e⟩
  · refine iff_of_true ?_ (fun h => hother h.usage)
    rcases hreceipt with e | e | ⟨tariff, -, -, e⟩
    · rw [e]
      exact fun _ => rfl
    · rw [e]
      intro h
      cases hb : outcome.billable with
      | false =>
        show (if outcome.billable then outcome.reservation.reservedMicros else 0) = 0
        rw [hb]
        rfl
      | true =>
        change (if outcome.billable then "unpriced_usage" else "none") = "none" at h
        rw [hb] at h
        exact absurd h (by decide)
    · rw [e]
      exact fun h => settledTariff_free h
  · rw [e, ← unbased_iff hsettles, not_and_not_right]
    exact Iff.rfl

/-- **A receipt and its report agree unless a charge has no basis**, and only then do they not. -/
theorem receipt_consistent (facts : AccountingFacts) (outcome : AccountingOutcome) :
    Consistent facts outcome ↔ ¬ UnbasedCharge facts outcome := by
  constructor
  · exact fun h => receipt_free.mp h.free
  · intro hbased
    have hfree := receipt_free.mpr hbased
    refine ⟨hfree, ?_, ?_, ?_, ?_, fun cost h hclass => reportingCost_part _ h hclass⟩
    · intro part hpart
      rcases receipt_cases facts outcome with ⟨-, e | e | ⟨tariff, -, -, e⟩⟩ | ⟨-, e⟩
      · rw [e] at hpart
        cases hpart
      · rw [e] at hpart
        cases hpart
      · rw [e] at hpart
        cases hpart
      · rw [e] at hpart ⊢
        exact reportingKnown_part (Option.some.inj hpart)
    · intro hbillable htariff
      rcases receipt_cases facts outcome with ⟨-, e | e | ⟨tariff, -, happlies, -⟩⟩ | ⟨-, e⟩
      · rw [e]
        rfl
      · rw [e]
        show (if outcome.billable then outcome.reservation.reservedMicros else 0) = 0
        rw [hbillable]
        rfl
      · rw [htariff] at happlies
        cases happlies
      · rw [e]
        exact actual_unbilled hbillable
    · intro hsafe
      rcases receipt_cases facts outcome with ⟨-, e | e | ⟨tariff, htariff, -, e⟩⟩ | ⟨-, e⟩
      · rw [e]
        exact safeAmount_zero
      · rw [e]
        show SafeAmount (if outcome.billable then outcome.reservation.reservedMicros else 0)
        split
        · exact hsafe.reserved
        · exact safeAmount_zero
      · rw [e]
        exact settledTariff_safe htariff hsafe
      · rw [e]
        exact actual_safe hsafe
    · intro hbasis
      obtain ⟨cost, h, hclass⟩ := reportingCost_free _ hbasis (hfree hbasis)
      refine ⟨cost, h, ?_⟩
      rw [hclass]
      decide

end Usage

/-! ## 7. Counting tokens under a fixed price -/

/-- Anthropic's `count_tokens` under a policy price of five micros: `estimateCost` has nothing to
    reserve for it, and no basis. -/
def countFacts : AccountingFacts :=
  { fixedFacts with
    event := ⟨"llm.count_tokens", some .apiKey, none, none⟩
    cost := ⟨0, "none", none, none⟩ }

/-- It is charged the five micros with the basis `none`, and reported as unknown. -/
theorem count_tokens_unbased :
    ¬ ∀ (facts : AccountingFacts) (outcome : AccountingOutcome), Consistent facts outcome := by
  intro h
  have hfree := (h countFacts (billedOutcome false)).free
  have hcharge : (accountingReceipt countFacts (billedOutcome false)).actualCostMicros = 5 := by decide
  rw [hcharge] at hfree
  exact absurd (hfree (by decide)) (by decide)

end ClawRouter.Accounting
