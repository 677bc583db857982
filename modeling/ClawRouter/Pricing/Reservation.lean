/-
  Subject:   Whether the reserve of a request bounds every cost its usage can settle at.

  The envelope of the admitted tiers and contexts is above the rates of whichever tier is served,
  for plain input, for cached input and for output (`settled_le_envelope`). Cache writes are the
  exception: the estimate looks at the cache controls of the body and reserves one duration, the
  settlement charges the durations the usage reports, and a write without a duration at the
  dearest of them.

  * **`reservation_bounds_iff`**: it does exactly where the card's rates cover the writes that the
    body allows (`writesCovered`).
-/
import ClawRouter.Pricing.Tokens
import Mathlib.Tactic.Ring

namespace ClawRouter.Pricing

open Js

/-! ## 1. Rounding and splitting -/

theorem ceilMillion_mono {a b : Nat} (h : a ≤ b) : ceilMillion a ≤ ceilMillion b := by
  unfold ceilMillion
  omega

theorem ceilMillion_add (a b : Nat) : ceilMillion (a + b) ≤ ceilMillion a + ceilMillion b := by
  unfold ceilMillion
  omega

theorem splitInput_sum (tokens : PricedTokens) (input : Nat) :
    (splitInput tokens input).remaining + (splitInput tokens input).cached +
      (splitInput tokens input).write5m + (splitInput tokens input).write1h +
      (splitInput tokens input).genericWrite = input := by
  unfold splitInput
  dsimp only
  omega

theorem weightedTokens_le {rates : Rates} {split : InputSplit} {input output rate : Nat}
    (hsum : split.remaining + split.cached + split.write5m + split.write1h + split.genericWrite = input)
    (hinput : rates.input ≤ rate) (hcached : rates.cachedInput.getD rates.input ≤ rate)
    (h5m : split.write5m ≠ 0 → rates.write5mRate ≤ rate) (h1h : split.write1h ≠ 0 → rates.write1hRate ≤ rate)
    (hgeneric : split.genericWrite ≠ 0 → rates.genericWriteRate ≤ rate) :
    weightedTokens rates split output ≤ input * rate + output * rates.output := by
  have part : ∀ {n r : Nat}, (n ≠ 0 → r ≤ rate) → n * r ≤ n * rate := by
    intro n r h
    rcases Nat.eq_zero_or_pos n with rfl | hn
    · simp
    · exact Nat.mul_le_mul_left n (h (by omega))
  have e1 := part (n := split.remaining) fun _ => hinput
  have e2 := part (n := split.cached) fun _ => hcached
  have e3 := part h5m
  have e4 := part h1h
  have e5 := part hgeneric
  have e : input * rate = split.remaining * rate + split.cached * rate + split.write5m * rate +
      split.write1h * rate + split.genericWrite * rate := by
    rw [← hsum]
    ring
  unfold weightedTokens
  omega

/-! ## 2. The envelope -/

/-- A rate that is absent, or at most the other. -/
def OptionalLe (a b : Option Nat) : Prop := ∀ x, a = some x → ∃ y, b = some y ∧ x ≤ y

theorem OptionalLe.refl (a : Option Nat) : OptionalLe a a := fun x h => ⟨x, h, Nat.le_refl x⟩

theorem OptionalLe.trans {a b c : Option Nat} (h : OptionalLe a b) (h' : OptionalLe b c) : OptionalLe a c := by
  intro x hx
  obtain ⟨y, hy, hxy⟩ := h x hx
  obtain ⟨z, hz, hyz⟩ := h' y hy
  exact ⟨z, hz, hxy.trans hyz⟩

theorem optionalLe_maxOptional_left (a b : Option Nat) : OptionalLe a (maxOptional a b) := by
  rintro x rfl
  cases b with
  | none => exact ⟨x, rfl, Nat.le_refl x⟩
  | some y => exact ⟨max x y, rfl, Nat.le_max_left x y⟩

theorem optionalLe_maxOptional_right (a b : Option Nat) : OptionalLe b (maxOptional a b) := by
  rintro y rfl
  cases a with
  | none => exact ⟨y, rfl, Nat.le_refl y⟩
  | some x => exact ⟨max x y, rfl, Nat.le_max_right x y⟩

/-- What the reserve has to be above, duration rates apart. -/
structure Rates.Below (r e : Rates) : Prop where
  input : r.input ≤ e.input
  output : r.output ≤ e.output
  cached : OptionalLe r.cachedInput e.cachedInput
  write : OptionalLe r.cacheWriteInput e.cacheWriteInput

namespace Rates.Below

theorem refl (r : Rates) : r.Below r := ⟨Nat.le_refl _, Nat.le_refl _, .refl _, .refl _⟩

theorem trans {r e f : Rates} (h : r.Below e) (h' : e.Below f) : r.Below f :=
  ⟨h.input.trans h'.input, h.output.trans h'.output, h.cached.trans h'.cached, h.write.trans h'.write⟩

theorem maxRates_left (r e : Rates) : r.Below (maxRates r e) :=
  ⟨Nat.le_max_left _ _, Nat.le_max_left _ _, optionalLe_maxOptional_left _ _, optionalLe_maxOptional_left _ _⟩

theorem maxRates_right (r e : Rates) : e.Below (maxRates r e) :=
  ⟨Nat.le_max_right _ _, Nat.le_max_right _ _, optionalLe_maxOptional_right _ _,
    optionalLe_maxOptional_right _ _⟩

theorem foldl (l : List Rates) (r : Rates) :
    r.Below (l.foldl maxRates r) ∧ ∀ e ∈ l, e.Below (l.foldl maxRates r) := by
  induction l generalizing r with
  | nil => exact ⟨refl r, nofun⟩
  | cons x l ih =>
    obtain ⟨hhead, hrest⟩ := ih (maxRates r x)
    refine ⟨(maxRates_left r x).trans hhead, fun e he => ?_⟩
    rcases List.mem_cons.mp he with rfl | he
    · exact (maxRates_right r e).trans hhead
    · exact hrest e he

end Rates.Below

theorem contextRates_below (pricing : TokenRates) (longContext : Option LongContextPricing)
    {used reserved : Nat} (h : used ≤ reserved) : (contextRates pricing longContext used false).Below
      (contextRates pricing longContext reserved true) := by
  unfold contextRates
  cases longContext with
  | none => exact .refl _
  | some long =>
    dsimp only
    by_cases hu : used ≤ long.thresholdInputTokens
    · rw [if_pos hu]
      by_cases hr : reserved ≤ long.thresholdInputTokens
      · rw [if_pos hr]
        exact .refl _
      · rw [if_neg hr]
        exact .maxRates_left _ _
    · have hr : ¬ reserved ≤ long.thresholdInputTokens := by omega
      rw [if_neg hu, if_neg hr]
      exact .maxRates_right _ _

/-- A tier `resolveRates` admits for the tier the body asks for. -/
def Admits (pricing : TokenPricing) (tier : Option Json) (served : Option String) : Prop :=
  pricing.serviceTiers = [] ∨ ∃ card, pricing.serviceTiers.find? (·.answers (served.map .str)) = some card ∧
      card ∈ candidates pricing.serviceTiers (pricing.serviceTiers.find? (·.answers tier))

variable {pricing : TokenPricing} {format served : Option String}

/-- **The envelope is above the rates of every admitted tier.** -/
theorem settled_le_envelope {tier : Option Json}
    {used reserved : Nat} {r e : Rates} (he : resolveRates pricing reserved tier = some e)
    (hr : settledRates pricing used (served.map .str) = some r) (ha : Admits pricing tier served)
    (h : used ≤ reserved) : r.Below e := by
  unfold resolveRates at he
  unfold settledRates at hr
  split at he
  · cases he
  · split at hr
    · cases hr
    · split at he
      · rename_i hnil
        rw [if_pos hnil] at hr
        cases hr
        cases he
        exact contextRates_below _ _ h
      · rename_i hcons
        rw [if_neg hcons] at hr
        obtain ⟨card, hcard, hmem⟩ := ha.resolve_left hcons
        rw [hcard] at hr
        dsimp only at he hr
        split at he
        · cases he
        · split at hr
          · rename_i hfits
            cases hr
            have hused : used ≤ min reserved (card.maxInputTokens.getD reserved) := by
              cases hmax : card.maxInputTokens with
              | none => simpa using h
              | some limit =>
                rw [hmax] at hfits
                have : used ≤ limit := by simpa using hfits
                simpa using ⟨h, this⟩
            have hlist := List.mem_map_of_mem (f := fun card : ServiceTierPricing =>
              contextRates card.toTokenRates card.longContext
                (min reserved (card.maxInputTokens.getD reserved)) true) hmem
            split at he
            · rename_i hempty
              rw [hempty] at hlist
              cases hlist
            · rename_i first rest hfirst
              cases he
              rw [hfirst] at hlist
              refine (contextRates_below _ _ hused).trans ?_
              rcases List.mem_cons.mp hlist with e | hrest
              · rw [e]
                exact (Rates.Below.foldl rest first).1
              · exact (Rates.Below.foldl rest first).2 _ hrest
          · cases hr

/-! ## 3. The reserved input rate -/

theorem le_reservationInputRate (body : Json) (rates : Rates) : rates.input ≤ reservationInputRate body rates ∧
      rates.cachedInput.getD rates.input ≤ reservationInputRate body rates ∧
      rates.cacheWriteInput.getD rates.input ≤ reservationInputRate body rates := by
  unfold reservationInputRate
  dsimp only
  split
  · omega
  · split
    · omega
    · omega

theorem getD_le_of_below {a b : Option Nat} {x y rate : Nat} (h : OptionalLe a b) (hx : x ≤ y)
    (hy : y ≤ rate) (hb : b.getD y ≤ rate) : a.getD x ≤ rate := by
  cases a with
  | none => exact hx.trans hy
  | some c =>
    obtain ⟨d, rfl, hcd⟩ := h c rfl
    exact hcd.trans hb

theorem input_rates_reserved (body : Json) {r e : Rates} (h : r.Below e) :
    r.input ≤ reservationInputRate body e ∧
      r.cachedInput.getD r.input ≤ reservationInputRate body e := by
  obtain ⟨hin, hcached, -⟩ := le_reservationInputRate body e
  exact ⟨h.input.trans hin, getD_le_of_below h.cached h.input hin hcached⟩

/-! ## 4. The claim about a request -/

/-- The card, or one of its tiers or contexts, has a rate for cache writes of no duration. -/
def hasCacheWriteRate (pricing : TokenPricing) : Bool :=
  let own (rates : TokenRates) (long : Option LongContextPricing) : Bool :=
    rates.cacheWriteInputMicrosPerMillion.isSome ||
      long.any (·.cacheWriteInputMicrosPerMillion.isSome)
  own pricing.toTokenRates pricing.longContext ||
    pricing.serviceTiers.any fun card => own card.toTokenRates card.longContext

def writesAllowed (pricing : TokenPricing) (body : Json) : Bool :=
  jsonHasKey body "cache_control" || hasCacheWriteRate pricing

/-- A usage within the bounds of the estimate, with cache counters the body explains. -/
structure Reported (pricing : TokenPricing) (body : Json) (inputTokens outputTokens : Nat)
    (tokens : PricedTokens) : Prop where
  input : ∀ n, tokens.input = some n → n ≤ inputTokens
  output : ∀ n, tokens.output = some n → n ≤ outputTokens
  billedInput : ∀ b n, tokens.billedTokens = some b → b.input = some n → n ≤ inputTokens
  billedOutput : ∀ b n, tokens.billedTokens = some b → b.output = some n → n ≤ outputTokens
  writes : writesAllowed pricing body = false →
    tokens.cacheWrite.getD 0 = 0 ∧ tokens.cacheWrite5m.getD 0 = 0 ∧ tokens.cacheWrite1h.getD 0 = 0
  hour : jsonHasCacheTtl body "1h" = false → tokens.cacheWrite1h.getD 0 = 0
  tier : Admits pricing (body.get? "service_tier") tokens.serviceTier

/-- The dearest rate at which a usage of the body can be charged a cache write. -/
def Rates.dearestWrite (rates : Rates) (body : Json) : Nat :=
  max (max rates.write5mRate rates.genericWriteRate)
    (if jsonHasCacheTtl body "1h" then rates.write1hRate else 0)

/-- A list of rates that input up to `most` tokens can be served under. -/
structure Tariff where
  rates : Rates
  most : Nat

/-- The short context of a card, and its long one where so much input reaches it. -/
def tariffsOf (rates : TokenRates) (longContext : Option LongContextPricing) (most : Nat) :
    List Tariff :=
  match longContext with
  | none => [⟨ratesFromPricing rates, most⟩]
  | some long => ⟨ratesFromPricing rates, min most long.thresholdInputTokens⟩ ::
      if long.thresholdInputTokens < most then [⟨ratesFromPricing long.toTokenRates, most⟩] else []

def ServiceTierPricing.tariffs (card : ServiceTierPricing) (inputTokens : Nat) : List Tariff :=
  tariffsOf card.toTokenRates card.longContext (min inputTokens (card.maxInputTokens.getD inputTokens))

/-- The tariffs of the tiers that `service_tier` admits. -/
def admittedTariffs (pricing : TokenPricing) (tier : Option Json) (inputTokens : Nat) :
    List Tariff :=
  if pricing.serviceTiers = [] then
    tariffsOf pricing.toTokenRates pricing.longContext inputTokens
  else
    (candidates pricing.serviceTiers (pricing.serviceTiers.find? (·.answers tier))).flatMap
      (·.tariffs inputTokens)

/-- A served tier of that name is settled by the card. -/
def servedAs (pricing : TokenPricing) (card : ServiceTierPricing) (name : String) : Bool :=
  pricing.serviceTiers.find? (·.answers (some (.str name))) = some card &&
    !autoUnpriced pricing (some (.str name))

/-- Those of the tiers that a usage can name. -/
def servedTariffs (pricing : TokenPricing) (tier : Option Json) (inputTokens : Nat) : List Tariff :=
  if pricing.serviceTiers = [] then
    tariffsOf pricing.toTokenRates pricing.longContext inputTokens
  else
    ((candidates pricing.serviceTiers (pricing.serviceTiers.find? (·.answers tier))).filter
      fun card => (card.id :: card.aliases).any (servedAs pricing card)).flatMap
        (·.tariffs inputTokens)

def dearest (rate : Rates → Option Nat) (tariffs : List Tariff) : Option Nat :=
  tariffs.foldr (fun t => maxOptional (rate t.rates)) none

/-- The dearest plain rate of the tariffs, or their dearest cached or written one: of the durations
    that of the body's `ttl`, and where no tariff has the rate it is plain. -/
def reservedRate (body : Json) (tariffs : List Tariff) : Nat :=
  let plain := (dearest (fun r => some r.input) tariffs).getD 0
  let write := max plain (max ((dearest (·.cachedInput) tariffs).getD plain)
    ((dearest (·.cacheWriteInput) tariffs).getD plain))
  if jsonHasCacheTtl body "1h" then max write ((dearest (·.cacheWrite1hInput) tariffs).getD plain)
  else if jsonHasKey body "cache_control" then
    max write ((dearest (·.cacheWrite5mInput) tariffs).getD plain)
  else write

def reservedOutput (tariffs : List Tariff) : Nat :=
  (dearest (fun r => some r.output) tariffs).getD 0

/-- **The rates of the card cover the writes the body allows**: the most input of a tariff, written
    at its dearest rate, with all the output costs no more than all the input and output at the
    dearest rates that are reserved. -/
def writesCovered (pricing : TokenPricing) (body : Json) (inputTokens outputTokens : Nat) : Bool :=
  let admitted := admittedTariffs pricing (body.get? "service_tier") inputTokens
  !writesAllowed pricing body ||
    (servedTariffs pricing (body.get? "service_tier") inputTokens).all fun t =>
      ceilMillion (t.most * t.rates.dearestWrite body + outputTokens * t.rates.output) ≤
        ceilMillion (inputTokens * reservedRate body admitted) +
          ceilMillion (outputTokens * reservedOutput admitted)

section Request

variable (claudeImageBlockBound : Json → Option InlineImageBound) (pricing : TokenPricing)
  (body : Json) (endpoint : Option PricingEndpoint)

/-- Every usage of the request settles at no more than its reserve. -/
def ReservationBounds : Prop :=
  ∀ inputTokens outputTokens tokens cost,
    (estimateModelCost claudeImageBlockBound pricing body endpoint).inputTokens = some inputTokens →
    (estimateModelCost claudeImageBlockBound pricing body endpoint).outputTokens = some outputTokens →
    Reported pricing body inputTokens outputTokens tokens →
    actualModelCost pricing tokens (endpoint.map (·.requestFormat)) = some cost →
    cost ≤ (estimateModelCost claudeImageBlockBound pricing body endpoint).reserveMicros

end Request

/-! ## 5. What the two functions compute -/

theorem estimate_priced {c : Json → Option InlineImageBound} {body : Json} {endpoint : Option PricingEndpoint}
    (h : (estimateModelCost c pricing body endpoint).pricingAvailable = true) :
    unpricedFormat (endpoint.map (·.requestFormat)) = false ∧ ∃ inputTokens envelope,
      inputTokenBound c pricing.limits endpoint body = some inputTokens ∧
      resolveRates pricing inputTokens (body.get? "service_tier") = some envelope ∧
      estimateModelCost c pricing body endpoint =
        ⟨saturatingAdd (tokenCost inputTokens (reservationInputRate body envelope))
          (tokenCost (outputTokenBound pricing.limits endpoint body) envelope.output),
          some inputTokens, some (outputTokenBound pricing.limits endpoint body), true⟩ := by
  unfold estimateModelCost at h ⊢
  split at h
  · cases h
  · rename_i hformat
    rw [if_neg hformat]
    refine ⟨by simpa using hformat, ?_⟩
    split at h
    · cases h
    · rename_i inputTokens hinput
      split at h
      · cases h
      · rename_i envelope henvelope
        refine ⟨inputTokens, envelope, hinput, henvelope, ?_⟩
        rfl

variable {tokens : PricedTokens}

theorem actual_priced {cost : Nat} (h : actualModelCost pricing tokens format = some cost) :
    cost = 0 ∨ ∃ priced input rates, pricedTokens tokens format = some priced ∧ priced.input = some input ∧
      settledRates pricing input (priced.serviceTier.map .str) = some rates ∧ cost = ceilMillion
        (weightedTokens rates (splitInput priced input) (priced.output.getD 0)) := by
  unfold actualModelCost at h
  split at h
  · cases h
  · split at h
    · cases h
      exact .inl rfl
    · split at h
      · cases h
      · rename_i priced hpriced
        split at h
        · cases h
        · rename_i input hinput
          split at h
          · cases h
          · rename_i rates hrates
            split at h
            · cases h
            · split at h
              · cases h
              · cases h
                exact .inr ⟨priced, input, rates, hpriced, hinput, hrates, rfl⟩

theorem pricedTokens_reported {body : Json} {I O : Nat} {priced : PricedTokens}
    (h : Reported pricing body I O tokens)
    (hp : pricedTokens tokens format = some priced) :
    Reported pricing body I O priced ∧ (format = some "cohere.chat" →
      priced.cacheWrite = none ∧ priced.cacheWrite5m = none ∧ priced.cacheWrite1h = none) := by
  unfold pricedTokens at hp
  split at hp
  · cases hb : tokens.billedTokens with
    | none =>
      rw [hb] at hp
      cases hp
    | some billed =>
      rw [hb] at hp
      cases hp
      exact ⟨⟨fun n => h.billedInput billed n hb, fun n => h.billedOutput billed n hb,
        fun b n e => h.billedInput b n (hb.trans e), fun b n e => h.billedOutput b n (hb.trans e),
        fun _ => ⟨rfl, rfl, rfl⟩, fun _ => rfl, h.tier⟩,
        fun _ => ⟨rfl, rfl, rfl⟩⟩
  · rename_i hno
    cases hp
    exact ⟨h, fun hf => absurd (.inl hf) hno⟩

theorem charged_writes {body : Json} {I O : Nat} (h : Reported pricing body I O tokens)
    (input : Nat) :
    ((splitInput tokens input).write5m ≠ 0 → writesAllowed pricing body = true) ∧
      ((splitInput tokens input).write1h ≠ 0 →
        writesAllowed pricing body = true ∧ jsonHasCacheTtl body "1h" = true) ∧
      ((splitInput tokens input).genericWrite ≠ 0 → writesAllowed pricing body = true) := by
  have hle : (splitInput tokens input).write5m ≤ tokens.cacheWrite5m.getD 0 ∧
      (splitInput tokens input).write1h ≤ tokens.cacheWrite1h.getD 0 ∧
        (splitInput tokens input).genericWrite ≤ tokens.cacheWrite.getD 0 := by
    unfold splitInput
    dsimp only
    omega
  have hallowed : ∀ {part counter : Nat}, part ≤ counter → (writesAllowed pricing body = false →
      counter = 0) → part ≠ 0 → writesAllowed pricing body = true := by
    intro part counter hle hzero hpart
    cases hw : writesAllowed pricing body with
    | true => rfl
    | false =>
      have := hzero hw
      omega
  refine ⟨hallowed hle.1 fun hw => (h.writes hw).2.1, fun h1 => ⟨hallowed hle.2.1
    (fun hw => (h.writes hw).2.2) h1, ?_⟩, hallowed hle.2.2 fun hw => (h.writes hw).1⟩
  cases httl : jsonHasCacheTtl body "1h" with
  | true => rfl
  | false =>
    have := h.hour httl
    omega

/-! ## 6. The tariffs of a card -/

section Tariffs

theorem maxOptional_assoc (a b c : Option Nat) :
    maxOptional (maxOptional a b) c = maxOptional a (maxOptional b c) := by
  cases a <;> cases b <;> cases c <;> simp [maxOptional, Nat.max_assoc]

theorem maxOptional_none (a : Option Nat) : maxOptional a none = a := by
  cases a <;> rfl

theorem dearest_append (rate : Rates → Option Nat) (l l' : List Tariff) :
    dearest rate (l ++ l') = maxOptional (dearest rate l) (dearest rate l') := by
  induction l with
  | nil => rfl
  | cons t l ih =>
    unfold dearest at ih ⊢
    rw [List.cons_append, List.foldr_cons, ih, List.foldr_cons, maxOptional_assoc]

theorem le_dearest {rate : Rates → Option Nat} {l : List Tariff} {t : Tariff} (h : t ∈ l) :
    OptionalLe (rate t.rates) (dearest rate l) := by
  induction l with
  | nil => cases h
  | cons u l ih =>
    rcases List.mem_cons.mp h with rfl | h
    · exact optionalLe_maxOptional_left _ _
    · exact (ih h).trans (optionalLe_maxOptional_right _ _)

/-- Of every rate it is the dearest of the tariffs. -/
structure Rates.Dearest (e : Rates) (l : List Tariff) : Prop where
  input : dearest (fun r => some r.input) l = some e.input
  output : dearest (fun r => some r.output) l = some e.output
  cached : dearest (·.cachedInput) l = e.cachedInput
  write : dearest (·.cacheWriteInput) l = e.cacheWriteInput
  write5m : dearest (·.cacheWrite5mInput) l = e.cacheWrite5mInput
  write1h : dearest (·.cacheWrite1hInput) l = e.cacheWrite1hInput

namespace Rates.Dearest

theorem single (r : Rates) (most : Nat) : r.Dearest [⟨r, most⟩] := by
  exact ⟨rfl, rfl, maxOptional_none _, maxOptional_none _, maxOptional_none _, maxOptional_none _⟩

theorem append {e f : Rates} {l l' : List Tariff} (h : e.Dearest l) (h' : f.Dearest l') :
    (maxRates e f).Dearest (l ++ l') := by
  constructor
  · rw [dearest_append, h.input, h'.input]
    rfl
  · rw [dearest_append, h.output, h'.output]
    rfl
  · rw [dearest_append, h.cached, h'.cached]
    rfl
  · rw [dearest_append, h.write, h'.write]
    rfl
  · rw [dearest_append, h.write5m, h'.write5m]
    rfl
  · rw [dearest_append, h.write1h, h'.write1h]
    rfl

theorem context (rates : TokenRates) (longContext : Option LongContextPricing) (most : Nat) :
    (contextRates rates longContext most true).Dearest (tariffsOf rates longContext most) := by
  unfold contextRates tariffsOf
  cases longContext with
  | none => exact single _ _
  | some long =>
    dsimp only
    by_cases hmost : most ≤ long.thresholdInputTokens
    · rw [if_pos hmost, if_neg (Nat.not_lt.mpr hmost)]
      exact single _ _
    · rw [if_neg hmost, if_pos (Nat.lt_of_not_le hmost), if_pos rfl]
      exact (single _ _).append (single _ _)

theorem cards {inputTokens : Nat} (cards : List ServiceTierPricing) {e : Rates} {l : List Tariff}
    (h : e.Dearest l) : ((cards.map fun card => contextRates card.toTokenRates card.longContext
      (min inputTokens (card.maxInputTokens.getD inputTokens)) true).foldl maxRates e).Dearest
        (l ++ cards.flatMap (·.tariffs inputTokens)) := by
  induction cards generalizing e l with
  | nil =>
    rw [List.flatMap_nil, List.append_nil]
    exact h
  | cons card cards ih =>
    rw [List.flatMap_cons, ← List.append_assoc]
    exact ih (h.append (context _ _ _))

/-- **The envelope is the dearest of the tariffs that are admitted.** -/
theorem envelope {tier : Option Json} {inputTokens : Nat} {e : Rates}
    (h : resolveRates pricing inputTokens tier = some e) :
    e.Dearest (admittedTariffs pricing tier inputTokens) := by
  unfold resolveRates at h
  unfold admittedTariffs
  split at h
  · cases h
  · split at h
    · rename_i hnil
      cases h
      rw [if_pos hnil]
      exact context _ _ _
    · rename_i hcons
      rw [if_neg hcons]
      dsimp only at h
      split at h
      · cases h
      · generalize candidates pricing.serviceTiers
          (pricing.serviceTiers.find? (·.answers tier)) = l at h ⊢
        cases l with
        | nil => cases h
        | cons card l =>
          cases h
          rw [List.flatMap_cons]
          exact cards l (context _ _ _)

theorem reserved {e : Rates} {l : List Tariff} (h : e.Dearest l) (body : Json) :
    reservationInputRate body e = reservedRate body l ∧ reservedOutput l = e.output := by
  unfold reservationInputRate reservedRate reservedOutput
  rw [h.input, h.output, h.cached, h.write, h.write5m, h.write1h]
  exact ⟨by simp only [Option.getD_some, Nat.max_assoc], rfl⟩

end Rates.Dearest

theorem mem_tariffsOf {rates : TokenRates} {longContext : Option LongContextPricing} {most : Nat}
    {t : Tariff} (h : t ∈ tariffsOf rates longContext most) :
    t.most ≤ most ∧ contextRates rates longContext t.most false = t.rates := by
  unfold tariffsOf at h
  unfold contextRates
  cases longContext with
  | none =>
    cases List.mem_singleton.mp h
    exact ⟨Nat.le_refl _, rfl⟩
  | some long =>
    dsimp only at h ⊢
    rcases List.mem_cons.mp h with rfl | h
    · exact ⟨Nat.min_le_left _ _, if_pos (Nat.min_le_right _ _)⟩
    · split at h
      · rename_i hmost
        cases List.mem_singleton.mp h
        exact ⟨Nat.le_refl _, if_neg (Nat.not_le.mpr hmost)⟩
      · cases h

theorem tariff_of_context {rates : TokenRates} {longContext : Option LongContextPricing}
    {most used : Nat} (h : used ≤ most) : ∃ t ∈ tariffsOf rates longContext most, used ≤ t.most ∧
      contextRates rates longContext used false = t.rates := by
  unfold tariffsOf contextRates
  cases longContext with
  | none => exact ⟨_, List.mem_singleton.mpr rfl, h, rfl⟩
  | some long =>
    dsimp only
    by_cases hused : used ≤ long.thresholdInputTokens
    · exact ⟨_, List.mem_cons_self, Nat.le_min.mpr ⟨h, hused⟩, if_pos hused⟩
    · have hmost : long.thresholdInputTokens < most := by omega
      rw [if_pos hmost]
      exact ⟨_, List.mem_cons_of_mem _ (List.mem_singleton.mpr rfl), h, if_neg hused⟩

/-- **A tariff is settled at** its most input, for some name of its tier. -/
theorem settled_of_tariff {tier : Option Json} {inputTokens : Nat} {t : Tariff}
    (h : t ∈ servedTariffs pricing tier inputTokens) : t.most ≤ inputTokens ∧
      ∃ served, Admits pricing tier served ∧
        settledRates pricing t.most (served.map .str) = some t.rates := by
  unfold servedTariffs at h
  split at h
  · rename_i hnil
    obtain ⟨hmost, hrates⟩ := mem_tariffsOf h
    refine ⟨hmost, none, .inl hnil, ?_⟩
    unfold settledRates autoUnpriced
    rw [Option.map_none]
    dsimp only
    rw [if_neg Bool.false_ne_true, if_pos hnil, hrates]
  · rename_i hcons
    obtain ⟨card, hcard, ht⟩ := List.mem_flatMap.mp h
    obtain ⟨hcard, hnamed⟩ := List.mem_filter.mp hcard
    obtain ⟨name, -, hserved⟩ := List.any_eq_true.mp hnamed
    obtain ⟨hfind, hauto⟩ := Bool.and_eq_true_iff.mp hserved
    have hfind := of_decide_eq_true hfind
    obtain ⟨hmost, hrates⟩ := mem_tariffsOf ht
    refine ⟨hmost.trans (Nat.min_le_left _ _), some name, .inr ⟨card, hfind, hcard⟩, ?_⟩
    unfold settledRates
    rw [Option.map_some, if_neg (by simpa using hauto), if_neg hcons, hfind]
    dsimp only
    rw [if_pos, hrates]
    cases hmax : card.maxInputTokens with
    | none => rfl
    | some limit =>
      rw [hmax] at hmost
      exact decide_eq_true (hmost.trans (Nat.min_le_right _ _))

theorem tariff_of_settled {tier : Option Json} {inputTokens used : Nat} {rates : Rates}
    (hused : used ≤ inputTokens) (hadmits : Admits pricing tier served)
    (h : settledRates pricing used (served.map .str) = some rates) :
    ∃ t ∈ servedTariffs pricing tier inputTokens, used ≤ t.most ∧ rates = t.rates := by
  unfold settledRates at h
  unfold servedTariffs
  split at h
  · cases h
  · rename_i hauto
    split at h
    · rename_i hnil
      rw [if_pos hnil]
      cases h
      exact tariff_of_context hused
    · rename_i hcons
      obtain ⟨card, hfind, hmem⟩ := hadmits.resolve_left hcons
      rw [if_neg hcons]
      rw [hfind] at h
      dsimp only at h
      split at h
      · rename_i hfits
        cases h
        have hmost : used ≤ min inputTokens (card.maxInputTokens.getD inputTokens) := by
          cases hmax : card.maxInputTokens with
          | none => exact Nat.le_min.mpr ⟨hused, hused⟩
          | some limit =>
            rw [hmax] at hfits
            exact Nat.le_min.mpr ⟨hused, of_decide_eq_true hfits⟩
        obtain ⟨t, ht, hle, hrates⟩ :=
          @tariff_of_context card.toTokenRates card.longContext _ _ hmost
        refine ⟨t, List.mem_flatMap.mpr ⟨card, List.mem_filter.mpr ⟨hmem, ?_⟩, ht⟩, hle, hrates⟩
        have hanswers := List.find?_some hfind
        cases served with
        | none => cases hanswers
        | some name =>
          refine List.any_eq_true.mpr ⟨name, ?_, ?_⟩
          · unfold ServiceTierPricing.answers at hanswers
            rcases Bool.or_eq_true_iff.mp hanswers with hid | halias
            · rw [beq_iff_eq] at hid
              exact hid ▸ List.mem_cons_self
            · exact List.mem_cons_of_mem _ (List.contains_iff_mem.mp halias)
          · unfold servedAs
            exact Bool.and_eq_true_iff.mpr ⟨decide_eq_true hfind, by simpa using hauto⟩
      · cases h

theorem served_admitted {tier : Option Json} {inputTokens : Nat} {t : Tariff}
    (h : t ∈ servedTariffs pricing tier inputTokens) : t ∈ admittedTariffs pricing tier inputTokens := by
  unfold servedTariffs at h
  unfold admittedTariffs
  split at h
  · rename_i hnil
    rw [if_pos hnil]
    exact h
  · rename_i hcons
    rw [if_neg hcons]
    obtain ⟨card, hcard, ht⟩ := List.mem_flatMap.mp h
    exact List.mem_flatMap.mpr ⟨card, (List.mem_filter.mp hcard).1, ht⟩

/-- **Covered by the rates alone**: where no tariff writes dearer than the reserved rate. -/
theorem writes_covered_of_rates {body : Json} {inputTokens outputTokens : Nat}
    (h : ∀ t ∈ servedTariffs pricing (body.get? "service_tier") inputTokens, t.rates.dearestWrite body ≤
      reservedRate body (admittedTariffs pricing (body.get? "service_tier") inputTokens)) :
    writesCovered pricing body inputTokens outputTokens = true := by
  unfold writesCovered
  refine Bool.or_eq_true_iff.mpr (.inr (List.all_eq_true.mpr fun t ht => decide_eq_true ?_))
  have houtput : t.rates.output ≤
      reservedOutput (admittedTariffs pricing (body.get? "service_tier") inputTokens) := by
    obtain ⟨y, hy, hle⟩ := @le_dearest (fun r => some r.output) _ _ (served_admitted ht) _ rfl
    unfold reservedOutput
    rw [hy]
    exact hle
  have h1 := Nat.mul_le_mul (settled_of_tariff ht).1 (h t ht)
  have h2 := Nat.mul_le_mul_left outputTokens houtput
  exact (ceilMillion_mono (Nat.add_le_add h1 h2)).trans (ceilMillion_add _ _)

end Tariffs

/-! ## 7. Both directions -/

section Directions

variable {c : Json → Option InlineImageBound} {pricing : TokenPricing} {body : Json}
  {endpoint : Option PricingEndpoint}

theorem reserve_exact {a b : Nat} (h : saturatingAdd a b < maxSafeInteger) : saturatingAdd a b = a + b := by
  unfold saturatingAdd at h ⊢
  omega

theorem cost_le_reserve {I O cost : Nat} {envelope : Rates}
    (he : resolveRates pricing I (body.get? "service_tier") = some envelope)
    (hrep : Reported pricing body I O tokens)
    (hcost : actualModelCost pricing tokens format = some cost)
    (hcov : format = some "cohere.chat" ∨ writesCovered pricing body I O = true) :
    cost ≤ ceilMillion (I * reservationInputRate body envelope) +
      ceilMillion (O * envelope.output) := by
  rcases actual_priced hcost with rfl | ⟨priced, input, rates, hp, hin, hrates, rfl⟩
  · exact Nat.zero_le _
  · obtain ⟨hpriced, hcohere⟩ := pricedTokens_reported hrep hp
    have hI : input ≤ I := hpriced.input input hin
    have hO : priced.output.getD 0 ≤ O := by
      cases ho : priced.output with
      | none => exact Nat.zero_le O
      | some output => exact hpriced.output output ho
    have hbelow := settled_le_envelope he hrates hpriced.tier hI
    obtain ⟨hplain, hcached⟩ := input_rates_reserved body hbelow
    have hO' : priced.output.getD 0 * rates.output ≤ O * rates.output := Nat.mul_le_mul_right _ hO
    obtain ⟨h5m, h1h, hgeneric⟩ := charged_writes hpriced input
    -- a rate above all that are charged: the reserved one, or the dearest of the writes
    have hrate : ∀ rate, reservationInputRate body envelope ≤ rate →
        (∀ part, part ≠ 0 → (part = (splitInput priced input).write5m ∨
          part = (splitInput priced input).write1h ∨ part = (splitInput priced input).genericWrite) →
            rates.dearestWrite body ≤ rate) →
        weightedTokens rates (splitInput priced input) (priced.output.getD 0) ≤
          input * rate + O * rates.output := by
      intro rate hreserved hwrites
      have h1h' : (splitInput priced input).write1h ≠ 0 → rates.write1hRate ≤ rates.dearestWrite body := by
        intro hpart
        unfold Rates.dearestWrite
        rw [if_pos (h1h hpart).2]
        exact Nat.le_max_right _ _
      have hle : weightedTokens rates (splitInput priced input) (priced.output.getD 0) ≤
          input * rate + priced.output.getD 0 * rates.output := weightedTokens_le
        (splitInput_sum priced input) (hplain.trans hreserved) (hcached.trans hreserved)
        (fun h => ((Nat.le_max_left _ _).trans (Nat.le_max_left _ _)).trans (hwrites _ h (.inl rfl)))
        (fun h => (h1h' h).trans (hwrites _ h (.inr (.inl rfl))))
        (fun h => ((Nat.le_max_right _ _).trans (Nat.le_max_left _ _)).trans
          (hwrites _ h (.inr (.inr rfl))))
      omega
    have hwithin : ∀ {rate}, rate = reservationInputRate body envelope →
        ceilMillion (input * rate + O * rates.output) ≤
          ceilMillion (I * reservationInputRate body envelope) + ceilMillion (O * envelope.output) := by
      rintro _ rfl
      have h1 : input * reservationInputRate body envelope ≤ I * reservationInputRate body envelope :=
        Nat.mul_le_mul_right _ hI
      have h2 : O * rates.output ≤ O * envelope.output := Nat.mul_le_mul_left O hbelow.output
      exact (ceilMillion_mono (by omega)).trans (ceilMillion_add _ _)
    rcases hcov with hformat | hcov
    · obtain ⟨hw, hw5, hw1⟩ := hcohere hformat
      have hzero : (splitInput priced input).write5m = 0 ∧ (splitInput priced input).write1h = 0 ∧
          (splitInput priced input).genericWrite = 0 := by
        unfold splitInput
        rw [hw, hw5, hw1]
        simp
      refine (ceilMillion_mono (hrate _ le_rfl fun part hpart hwhich => ?_)).trans (hwithin rfl)
      omega
    · rcases le_or_gt (rates.dearestWrite body) (reservationInputRate body envelope) with hle | hdear
      · exact (ceilMillion_mono (hrate _ le_rfl fun _ _ _ => hle)).trans (hwithin rfl)
      · unfold writesCovered at hcov
        rcases Bool.or_eq_true_iff.mp hcov with hnone | hall
        · rw [Bool.not_eq_true'] at hnone
          have hno : ∀ {P : Prop}, writesAllowed pricing body = true → P := by
            intro P hallowed
            rw [hnone] at hallowed
            cases hallowed
          refine (ceilMillion_mono (hrate _ le_rfl fun part hpart hwhich => ?_)).trans (hwithin rfl)
          rcases hwhich with rfl | rfl | rfl
          · exact hno (h5m hpart)
          · exact hno (h1h hpart).1
          · exact hno (hgeneric hpart)
        · obtain ⟨t, ht, hle, rfl⟩ := tariff_of_settled hI hpriced.tier hrates
          have hcov := of_decide_eq_true (List.all_eq_true.mp hall t ht)
          obtain ⟨hreserved, houtput⟩ := (Rates.Dearest.envelope he).reserved body
          rw [hreserved, ← houtput]
          refine (ceilMillion_mono ((hrate _ hdear.le fun _ _ _ => le_rfl).trans ?_)).trans hcov
          exact Nat.add_le_add_right (Nat.mul_le_mul_right _ hle) _

/-- A usage that is all cache writes: `write5m` and `write1h` of them have a duration. -/
def writeUsage (served : Option String) (used output write5m write1h : Nat) : PricedTokens where
  serviceTier :=
  served
  billable := true
  billedTokens := none
  input := some used
  output := some output
  cached := some 0
  cacheWrite := some used
  cacheWrite5m := some write5m
  cacheWrite1h := some write1h

theorem actual_writeUsage {rates : Rates} {used output write5m write1h : Nat}
    (hformat : unpricedFormat format = false)
    (hcohere : format ≠ some "cohere.chat") (hrates : settledRates pricing used (served.map .str) =
      some rates) :
    actualModelCost pricing (writeUsage served used output write5m write1h) format =
      some (ceilMillion (weightedTokens rates
        (splitInput (writeUsage served used output write5m write1h) used) output)) := by
  unfold actualModelCost
  rw [if_neg (by rw [hformat]; nofun), if_neg (by simp [writeUsage])]
  have hp : pricedTokens (writeUsage served used output write5m write1h) format =
      some (writeUsage served used output write5m write1h) := by
    unfold pricedTokens
    rw [if_neg (by simp [hcohere, writeUsage])]
  simp only [hp]
  simp [writeUsage, hrates]

theorem weighted_writeUsage (rates : Rates) (served : Option String) (used output : Nat) :
    weightedTokens rates (splitInput (writeUsage served used output used 0) used) output =
        used * rates.write5mRate + output * rates.output ∧
      weightedTokens rates (splitInput (writeUsage served used output 0 used) used) output =
        used * rates.write1hRate + output * rates.output ∧
      weightedTokens rates (splitInput (writeUsage served used output 0 0) used) output =
        used * rates.genericWriteRate + output * rates.output := by
  refine ⟨?_, ?_, ?_⟩ <;> simp [weightedTokens, splitInput, writeUsage]

theorem reported_writeUsage {I O used write5m write1h : Nat}
    (hused : used ≤ I) (hadmits : Admits pricing (body.get? "service_tier") served)
    (hallowed : writesAllowed pricing body = true) (hour : jsonHasCacheTtl body "1h" = false → write1h = 0) :
    Reported pricing body I O (writeUsage served used O write5m write1h) where
  input := by
    intro n hn
    cases hn
    exact hused
  output := by
    intro n hn
    cases hn
    exact Nat.le_refl O
  billedInput := nofun
  billedOutput := nofun
  writes := by
    intro hw
    rw [hallowed] at hw
    cases hw
  hour := hour
  tier := hadmits

/-- **The reserve bounds every settlement of a request exactly if the rates of the card cover the
    writes the body allows** (a request on the Cohere wire has none). -/
theorem reservation_bounds_iff {I : Nat}
    (hpriced : (estimateModelCost c pricing body endpoint).pricingAvailable = true)
    (hinput : (estimateModelCost c pricing body endpoint).inputTokens = some I)
    (hexact : (estimateModelCost c pricing body endpoint).reserveMicros < maxSafeInteger) :
    ReservationBounds c pricing body endpoint ↔ endpoint.map (·.requestFormat) = some "cohere.chat" ∨
      writesCovered pricing body I (outputTokenBound pricing.limits endpoint body) = true := by
  obtain ⟨hformat, _, envelope, -, henvelope, hest⟩ := estimate_priced hpriced
  rw [hest] at hinput
  cases hinput
  have hreserve : (estimateModelCost c pricing body endpoint).reserveMicros =
      ceilMillion (I * reservationInputRate body envelope) +
        ceilMillion (outputTokenBound pricing.limits endpoint body * envelope.output) := by
    rw [hest] at hexact ⊢
    exact reserve_exact hexact
  constructor
  · intro hbounds
    refine (Classical.em _).imp_right fun hcohere => ?_
    unfold writesCovered
    cases hallowed : writesAllowed pricing body with
    | false => rfl
    | true =>
      refine Bool.or_eq_true_iff.mpr (.inr (List.all_eq_true.mpr fun t ht => decide_eq_true ?_))
      obtain ⟨hmost, served, hadmits, hrates⟩ := settled_of_tariff ht
      obtain ⟨hrate, houtput⟩ := (Rates.Dearest.envelope henvelope).reserved body
      rw [← hrate, houtput, ← hreserve]
      obtain ⟨e5m, e1h, egeneric⟩ := weighted_writeUsage t.rates served t.most
        (outputTokenBound pricing.limits endpoint body)
      -- all the input is written, in one of the three ways
      have hsettle : ∀ write5m write1h, (jsonHasCacheTtl body "1h" = false → write1h = 0) →
          ceilMillion (weightedTokens t.rates (splitInput (writeUsage served t.most
            (outputTokenBound pricing.limits endpoint body) write5m write1h) t.most)
              (outputTokenBound pricing.limits endpoint body)) ≤
                (estimateModelCost c pricing body endpoint).reserveMicros :=
        fun write5m write1h hour => hbounds I _ _ _ (by rw [hest]) (by rw [hest])
          (reported_writeUsage hmost hadmits hallowed hour) (actual_writeUsage hformat hcohere hrates)
      have h5m := e5m ▸ hsettle t.most 0 fun _ => rfl
      have hgeneric := egeneric ▸ hsettle 0 0 fun _ => rfl
      have h1h : jsonHasCacheTtl body "1h" = true → ceilMillion (t.most * t.rates.write1hRate +
          outputTokenBound pricing.limits endpoint body * t.rates.output) ≤
            (estimateModelCost c pricing body endpoint).reserveMicros := by
        intro httl
        exact e1h ▸ hsettle 0 t.most fun hno => by rw [httl] at hno; cases hno
      unfold Rates.dearestWrite
      rcases max_choice (max t.rates.write5mRate t.rates.genericWriteRate)
        (if jsonHasCacheTtl body "1h" then t.rates.write1hRate else 0) with hmax | hmax
      · rw [hmax]
        rcases max_choice t.rates.write5mRate t.rates.genericWriteRate with hmax | hmax
        · rw [hmax]
          exact h5m
        · rw [hmax]
          exact hgeneric
      · rw [hmax]
        split
        · rename_i httl
          exact h1h httl
        · refine (ceilMillion_mono ?_).trans h5m
          omega
  · intro hcov inputTokens outputTokens tokens cost hin hout hrep hcost
    rw [hreserve]
    rw [hest] at hin hout
    cases hin
    cases hout
    exact cost_le_reserve henvelope hrep hcost hcov

end Directions

/-! ## 8. A card whose writes are not covered -/

/-- The declared rates of `anthropic/claude-opus-5-5`: writes of five minutes and of one hour, none
    for writes of no duration. -/
def claudeOpus : TokenPricing where
  inputMicrosPerMillion :=
  4000000
  outputMicrosPerMillion := 20000000
  cachedInputMicrosPerMillion := some 200000
  cacheWriteInputMicrosPerMillion := none
  cacheWrite5mInputMicrosPerMillion := some 5000000
  cacheWrite1hInputMicrosPerMillion := some 8000000
  limits := ⟨1000000, none, 128000, 1024⟩
  longContext := none
  serviceTiers := []
  autoServiceTierUnpriced := false

/-- A Messages request with a cache control of no ttl. -/
def ephemeralBody : Json :=
  .obj [("model", .str "claude-opus-5-5"), ("max_tokens", .int 16),
    ("cache_control", .obj [("type", .str "ephemeral")]),
    ("messages", .arr [.obj [("role", .str "user"), ("content", .str "hi")]])]

def messagesEndpoint : Option PricingEndpoint := some ⟨"anthropic.messages", none⟩

theorem ephemeral_estimate : estimateModelCost (fun _ => none) claudeOpus ephemeralBody messagesEndpoint =
      ⟨6060, some 1148, some 16, true⟩ := by
  decide +kernel

/-- The usage reports 1148 written tokens without a duration: the reserve of 6060 is at the
    five-minute rate, the settlement of 9504 at the one-hour rate. -/
theorem undated_write_exceeds_reserve :
    (estimateModelCost (fun _ => none) claudeOpus ephemeralBody messagesEndpoint).pricingAvailable = true ∧
      ¬ ReservationBounds (fun _ => none) claudeOpus ephemeralBody messagesEndpoint := by
  refine ⟨by rw [ephemeral_estimate], fun h => ?_⟩
  have hrep : Reported claudeOpus ephemeralBody 1148 16 (writeUsage none 1148 16 0 0) :=
    reported_writeUsage (Nat.le_refl _) (.inl rfl) (by decide +kernel) fun _ => rfl
  have hle := h 1148 16 (writeUsage none 1148 16 0 0) 9504 (by rw [ephemeral_estimate])
    (by rw [ephemeral_estimate]) hrep (by decide +kernel)
  rw [ephemeral_estimate] at hle
  exact absurd hle (by decide)

/-- The characterization at that request: its writes are not covered. -/
theorem reservation_bounds_iff_ephemeral :
    ReservationBounds (fun _ => none) claudeOpus ephemeralBody messagesEndpoint ↔
      messagesEndpoint.map (·.requestFormat) = some "cohere.chat" ∨
        writesCovered claudeOpus ephemeralBody 1148 16 = true :=
  reservation_bounds_iff (by rw [ephemeral_estimate]) (by rw [ephemeral_estimate])
    (by rw [ephemeral_estimate]; decide)

end ClawRouter.Pricing
