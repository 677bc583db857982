/-
  Subject:   The estimate of a request body whose texts are code units (src/worker/pricing.ts,
             `estimateModelCost`), and that it grows with the body.

  What the estimate looks for in a body is read from its `view`, whose texts are strings; its size is
  counted on the body itself, in which a surrogate alone is six bytes. The wire formats are those other than
  `google.generate_content`, which a chat request does not reach.

  * **`estimate_mono`**: of two such bodies the larger is priced exactly if the smaller is, and reserves at least
    as much.
-/
import ClawRouter.Body.Chunks
import ClawRouter.Pricing.Reservation

namespace ClawRouter.Fusion

open Utf16 PlainJson Pricing
open Js (Json)

/-! ## 1. The view -/

def scalarChar : Point → Char
  | .unit u => if isSurrogate u then '\ufffd' else Char.ofNat u.toNat
  | .pair lead trail _ => Char.ofNat (scalar lead trail)

/-- A text as a string; a surrogate alone becomes the replacement character. -/
def scalarText (t : Text) : String := String.ofList ((points t).map scalarChar)

def viewNumber (n : Number) : Json :=
  let written := scalarText n.text
  match written.toInt? with
  | some value => .int value
  | none =>
    if h : written.toList.head?.any (fun c => c.isDigit || c = '-') = true then .frac ⟨written, h⟩ else .null

mutual

def view : Value → Json
  | .null => .null
  | .bool b => .bool b
  | .num n => viewNumber n
  | .str s => .str (scalarText s)
  | .arr items => .arr (viewItems items)
  | .obj members => .obj (viewMembers members)

def viewItems : List (Option Value) → List Json
  | [] => []
  | none :: rest => .null :: viewItems rest
  | some item :: rest => view item :: viewItems rest

def viewMembers : List (Text × Option Value) → List (String × Json)
  | [] => []
  | (_, none) :: rest => viewMembers rest
  | (key, some item) :: rest => (scalarText key, view item) :: viewMembers rest

end

/-! ## 2. The estimate -/

def bodyBytes (endpoint : Option PricingEndpoint) (body : Value) : Nat :=
  if (endpoint.map (·.requestFormat)) == some "anthropic.messages" then Body.jsonBodyBytes body
  else (encode (stringify body)).length

section Estimate

variable (claudeImageBlockBound : Json → Option InlineImageBound)

/-- `inputTokens` of an estimate; `none` where sealed input has no limit. -/
def inputTokenBound (limits : TokenLimits) (endpoint : Option PricingEndpoint) (body : Value) : Option Nat :=
  let inputLimit := limits.maxRequestInputTokens.getD limits.maxInputTokens
  if opaqueInput endpoint (view body) then opaqueInputLimit limits
  else
    let countImages := (endpoint.map (·.requestFormat)) == some "anthropic.messages"
    match requestHasUnboundedInput claudeImageBlockBound countImages (view body) with
    | (true, _) => some inputLimit
    | (false, images) =>
      some (min inputLimit (saturatingAdd
        (saturatingAdd (bodyBytes endpoint body - images.encodedBytes) images.tokens)
        limits.inputTokenOverhead))

def estimateModelCost (pricing : TokenPricing) (body : Value) (endpoint : Option PricingEndpoint) :
    CostEstimate :=
  if unpricedFormat (endpoint.map (·.requestFormat)) then ⟨0, none, none, false⟩
  else
    match inputTokenBound claudeImageBlockBound pricing.limits endpoint body with
    | none => ⟨0, none, none, false⟩
    | some inputTokens =>
      let outputTokens := outputTokenBound pricing.limits endpoint (view body)
      match resolveRates pricing inputTokens ((view body).get? "service_tier") with
      | none => ⟨0, some inputTokens, some outputTokens, false⟩
      | some rates =>
        ⟨saturatingAdd (tokenCost inputTokens (reservationInputRate (view body) rates))
          (tokenCost outputTokens rates.output), some inputTokens, some outputTokens, true⟩

end Estimate

/-! ## 3. Rates at more tokens -/

/-- Every rate is absent, or at most the other. -/
structure Under (r e : Rates) : Prop where
  below : r.Below e
  write5m : OptionalLe r.cacheWrite5mInput e.cacheWrite5mInput
  write1h : OptionalLe r.cacheWrite1hInput e.cacheWrite1hInput

namespace Under

theorem refl (r : Rates) : Under r r := ⟨.refl r, .refl _, .refl _⟩

theorem maxRates_left (r e : Rates) : Under r (maxRates r e) :=
  ⟨.maxRates_left r e, optionalLe_maxOptional_left _ _, optionalLe_maxOptional_left _ _⟩

end Under

theorem maxOptional_mono {a b a' b' : Option Nat} (ha : OptionalLe a a') (hb : OptionalLe b b') :
    OptionalLe (maxOptional a b) (maxOptional a' b') := by
  intro x hx
  have hleft := ha.trans (optionalLe_maxOptional_left a' b')
  have hright := hb.trans (optionalLe_maxOptional_right a' b')
  cases a with
  | none => exact hright x hx
  | some m =>
    cases b with
    | none => exact hleft x hx
    | some n =>
      cases hx
      rcases Nat.le_total m n with h | h
      · rw [Nat.max_eq_right h]
        exact hright n rfl
      · rw [Nat.max_eq_left h]
        exact hleft m rfl

theorem maxRates_mono {r e r' e' : Rates} (hr : Under r r') (he : Under e e') :
    Under (maxRates r e) (maxRates r' e') where
  below := ⟨max_le_max hr.below.input he.below.input, max_le_max hr.below.output he.below.output,
      maxOptional_mono hr.below.cached he.below.cached, maxOptional_mono hr.below.write he.below.write⟩
  write5m := maxOptional_mono hr.write5m he.write5m
  write1h := maxOptional_mono hr.write1h he.write1h

theorem foldl_mono {α : Type} (f g : α → Rates) (h : ∀ card, Under (f card) (g card))
    (cards : List α) {r e : Rates}
    (hre : Under r e) : Under ((cards.map f).foldl maxRates r) ((cards.map g).foldl maxRates e) := by
  induction cards generalizing r e with
  | nil => exact hre
  | cons card cards ih => exact ih (maxRates_mono hre (h card))

theorem contextRates_mono (pricing : TokenRates) (longContext : Option LongContextPricing) {few many : Nat}
    (h : few ≤ many) :
    Under (contextRates pricing longContext few true) (contextRates pricing longContext many true) := by
  unfold contextRates
  cases longContext with
  | none => exact .refl _
  | some long =>
    dsimp only
    by_cases hfew : few ≤ long.thresholdInputTokens
    · rw [if_pos hfew]
      by_cases hmany : many ≤ long.thresholdInputTokens
      · rw [if_pos hmany]
        exact .refl _
      · rw [if_neg hmany]
        exact .maxRates_left _ _
    · have hmany : ¬ many ≤ long.thresholdInputTokens := by omega
      rw [if_neg hfew, if_neg hmany]
      exact .refl _

theorem resolveRates_mono (pricing : TokenPricing) (tier : Option Json) {few many : Nat} (h : few ≤ many) :
    (resolveRates pricing few tier = none ∧ resolveRates pricing many tier = none) ∨
      ∃ r e, resolveRates pricing few tier = some r ∧ resolveRates pricing many tier = some e ∧
        Under r e := by
  unfold resolveRates
  split
  · exact .inl ⟨rfl, rfl⟩
  · split
    · exact .inr ⟨_, _, rfl, rfl, contextRates_mono _ _ h⟩
    · dsimp only
      split
      · exact .inl ⟨rfl, rfl⟩
      · have hcard : ∀ card : ServiceTierPricing,
            Under (contextRates card.toTokenRates card.longContext
              (min few (card.maxInputTokens.getD few)) true)
              (contextRates card.toTokenRates card.longContext
                (min many (card.maxInputTokens.getD many)) true) := by
          intro card
          refine contextRates_mono _ _ ?_
          cases card.maxInputTokens with
          | none => simpa using h
          | some limit => exact min_le_min h (Nat.le_refl limit)
        cases candidates pricing.serviceTiers (pricing.serviceTiers.find? (·.answers tier)) with
        | nil => exact .inl ⟨rfl, rfl⟩
        | cons card cards => exact .inr ⟨_, _, rfl, rfl, foldl_mono _ _ hcard cards (hcard card)⟩

/-! ## 4. Bodies in which the same is found -/

/-- All that the estimate finds in a body but its size. -/
structure Reads (claudeImageBlockBound : Json → Option InlineImageBound) (body other : Json) : Prop where
  sealed : responsesHasOpaqueInput body = responsesHasOpaqueInput other
  unbounded : ∀ countImages, requestHasUnboundedInput claudeImageBlockBound countImages body =
    requestHasUnboundedInput claudeImageBlockBound countImages other
  output : ∀ limits endpoint, outputTokenBound limits endpoint body = outputTokenBound limits endpoint other
  tier : body.get? "service_tier" = other.get? "service_tier"
  oneHour : jsonHasCacheTtl body "1h" = jsonHasCacheTtl other "1h"
  cacheControl : jsonHasKey body "cache_control" = jsonHasKey other "cache_control"

variable {c : Json → Option InlineImageBound}

theorem Reads.symm {body other : Json} (h : Reads c body other) : Reads c other body :=
  ⟨h.sealed.symm, fun i => (h.unbounded i).symm, fun l e => (h.output l e).symm, h.tier.symm, h.oneHour.symm,
    h.cacheControl.symm⟩

theorem reservationInputRate_mono {body other : Json}
    (h1h : jsonHasCacheTtl body "1h" = jsonHasCacheTtl other "1h")
    (hkey : jsonHasKey body "cache_control" = jsonHasKey other "cache_control") {r e : Rates}
      (h : Under r e) :
    reservationInputRate body r ≤ reservationInputRate other e := by
  have hin := h.below.input
  have hget : ∀ {a b : Option Nat} {rate : Nat}, OptionalLe a b → e.input ≤ rate → b.getD e.input ≤ rate →
      a.getD r.input ≤ rate := fun hab hrate hb => getD_le_of_below hab hin hrate hb
  obtain ⟨hplain, hcached, hwrite⟩ := le_reservationInputRate other e
  have hbase : max (max r.input (r.cachedInput.getD r.input)) (r.cacheWriteInput.getD r.input) ≤
      reservationInputRate other e :=
    max_le (max_le (hin.trans hplain) (hget h.below.cached hplain hcached)) (hget h.below.write hplain hwrite)
  have h1 : jsonHasCacheTtl other "1h" = true → e.cacheWrite1hInput.getD e.input ≤
    reservationInputRate other e := by
    intro hother
    unfold reservationInputRate
    rw [if_pos hother]
    exact Nat.le_max_right _ _
  have h5 : ¬ jsonHasCacheTtl other "1h" = true → jsonHasKey other "cache_control" = true →
      e.cacheWrite5mInput.getD e.input ≤ reservationInputRate other e := by
    intro hother hcontrol
    unfold reservationInputRate
    rw [if_neg hother, if_pos hcontrol]
    exact Nat.le_max_right _ _
  conv_lhs => unfold reservationInputRate
  rw [h1h, hkey]
  split
  · rename_i hother
    exact max_le hbase (hget h.write1h hplain (h1 hother))
  · rename_i hother
    split
    · rename_i hcontrol
      exact max_le hbase (hget h.write5m hplain (h5 hother hcontrol))
    · exact hbase

theorem tokenCost_mono {few many low high : Nat} (h : few ≤ many) (hrate : low ≤ high) :
    tokenCost few low ≤ tokenCost many high := ceilMillion_mono (Nat.mul_le_mul h hrate)

theorem saturatingAdd_mono {a b a' b' : Nat} (ha : a ≤ a') (hb : b ≤ b') :
    saturatingAdd a b ≤ saturatingAdd a' b' := by
  unfold saturatingAdd
  omega

theorem inputTokenBound_mono {body other : Value}
    (h : Reads c (view body) (view other)) {endpoint : Option PricingEndpoint}
    (hbytes : bodyBytes endpoint body ≤ bodyBytes endpoint other) (limits : TokenLimits) :
    (inputTokenBound c limits endpoint body = none ∧ inputTokenBound c limits endpoint other = none) ∨
      ∃ few many, inputTokenBound c limits endpoint body = some few ∧
        inputTokenBound c limits endpoint other = some many ∧ few ≤ many := by
  have hsealed : opaqueInput endpoint (view body) = opaqueInput endpoint (view other) := by
    unfold opaqueInput
    rw [h.sealed]
  unfold inputTokenBound
  dsimp only
  rw [hsealed, h.unbounded]
  split
  · cases opaqueInputLimit limits with
    | none => exact .inl ⟨rfl, rfl⟩
    | some limit => exact .inr ⟨limit, limit, rfl, rfl, Nat.le_refl limit⟩
  · split
    · exact .inr ⟨_, _, rfl, rfl, Nat.le_refl _⟩
    · rename_i images _
      have hsum : saturatingAdd (bodyBytes endpoint body - images.encodedBytes) images.tokens ≤
          saturatingAdd (bodyBytes endpoint other - images.encodedBytes) images.tokens :=
        saturatingAdd_mono (Nat.sub_le_sub_right hbytes _) (Nat.le_refl _)
      exact .inr ⟨_, _, rfl, rfl, min_le_min (Nat.le_refl _) (saturatingAdd_mono hsum (Nat.le_refl _))⟩

/-- **The larger body is priced exactly if the smaller is, and reserves at least as much.** -/
theorem estimate_mono {body other : Value} (h : Reads c (view body) (view other))
    {endpoint : Option PricingEndpoint}
    (hbytes : bodyBytes endpoint body ≤ bodyBytes endpoint other) (pricing : TokenPricing) :
    (estimateModelCost c pricing body endpoint).reserveMicros ≤
        (estimateModelCost c pricing other endpoint).reserveMicros ∧
      (estimateModelCost c pricing body endpoint).pricingAvailable =
        (estimateModelCost c pricing other endpoint).pricingAvailable := by
  unfold estimateModelCost
  split
  · exact ⟨Nat.le_refl 0, rfl⟩
  · obtain ⟨hbody, hother⟩ | ⟨few, many, hbody, hother, hle⟩ := inputTokenBound_mono h hbytes pricing.limits
    · rw [hbody, hother]
      exact ⟨Nat.le_refl 0, rfl⟩
    · rw [hbody, hother]
      dsimp only
      rw [h.output, h.tier]
      obtain ⟨hr, he⟩ | ⟨r, e, hr, he, hunder⟩ :=
        resolveRates_mono pricing ((view other).get? "service_tier") hle
      · rw [hr, he]
        exact ⟨Nat.le_refl 0, rfl⟩
      · rw [hr, he]
        have hinput := tokenCost_mono hle (reservationInputRate_mono h.oneHour h.cacheControl hunder)
        have houtput := tokenCost_mono (Nat.le_refl (outputTokenBound pricing.limits endpoint (view other)))
          hunder.below.output
        exact ⟨saturatingAdd_mono hinput houtput, rfl⟩

end ClawRouter.Fusion
