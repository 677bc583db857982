/-
  Subject:   What a usage settles at (`actualModelCost` of src/worker/pricing.ts), for every kind of
             card and every request format.

  Tokens.lean has the settlement of a token card for the formats other than
  `google.generate_content`, in exact arithmetic. Here are the other cards and that format, whose
  service tier has names of its own, and the products and sums are those of binary64.

  * `weightedTokenCost_exact`, `actualModelCost_exact`: to `2 ^ 53` the code's arithmetic is exact;
  * **`settlement_exact`**: to there every cost of a token card is one, and moving a token to a dearer
    bucket does not lower it.
-/
import ClawRouter.Lib.Binary64
import ClawRouter.Pricing.Reservation

namespace ClawRouter.Pricing

open Js

/-! ## 1. Cards of every kind -/

/-- The premiums a card of Native Messages declares: `fastMultiplier` is 2 or null, `usMultiplier`
    is 1.1 or null. -/
structure AnthropicPriceModifiers where
  fastMultiplier : Bool
  usMultiplier : Bool
  deriving DecidableEq

/-- A card of token prices. -/
structure TokenCard extends TokenPricing where
  anthropicModifiers : Option AnthropicPriceModifiers
  /-- `settlementBasis === "published_upper_bound"`. -/
  publishedUpperBound : Bool

/-- A card of character prices. -/
structure CharacterPricing where
  inputMicrosPerMillionCharacters : Nat
  maxInputCharacters : Nat
  deriving DecidableEq

/-- A card of image prices. -/
structure ImageTokenPricing where
  textInputMicrosPerMillion : Nat
  imageInputMicrosPerMillion : Nat
  imageOutputMicrosPerMillion : Nat
  deriving DecidableEq

/-- The card of a model. -/
inductive ModelPricing
  | token (card : TokenCard)
  | character (card : CharacterPricing)
  | imageToken (card : ImageTokenPricing)

/-- The tokens of an image. -/
structure ImageUsage where
  textInput : Nat
  imageInput : Nat
  imageOutput : Nat
  deriving DecidableEq

/-- `PricedTokens`, with the usage of an image. -/
structure MeteredTokens extends PricedTokens where
  image : Option ImageUsage
  deriving DecidableEq

/-- The products and the sum are numbers of their own, and so is the million-th before the ceiling. -/
def weightedTokenCost (components : List (Nat × Nat)) : Nat :=
  ⌈Binary64.round (components.foldl
    (fun total c => Binary64.round (total + Binary64.round (c.1 * c.2 : ℕ))) 0 / 1000000)⌉₊

/-- What is settled: each part of the input at its rate, and the output. -/
def components (rates : Rates) (split : InputSplit) (output : Nat) : List (Nat × Nat) :=
  [(split.remaining, rates.input), (split.cached, rates.cachedInput.getD rates.input),
    (split.write5m, rates.write5mRate), (split.write1h, rates.write1hRate),
    (split.genericWrite, rates.genericWriteRate), (output, rates.output)]

def actualImageCost (pricing : ImageTokenPricing) (tokens : MeteredTokens) : Option Nat :=
  tokens.image.map fun image => weightedTokenCost
    [(image.textInput, pricing.textInputMicrosPerMillion),
      (image.imageInput, pricing.imageInputMicrosPerMillion),
      (image.imageOutput, pricing.imageOutputMicrosPerMillion)]

def googleServiceTier : Option String → Option String
  | some tier =>
    if tier = "unspecified" then some "standard"
    else if tier = "standard" ∨ tier = "flex" ∨ tier = "priority" then some tier
    else none
  | none => none

/-- `resolveRates` without `reserve`, for every format. -/
def servedRates (pricing : TokenPricing) (inputTokens : Nat) (tier : Option String)
    (google : Bool) : Option Rates :=
  if google then
    match googleServiceTier tier with
    | none => none
    | some tier =>
      if pricing.serviceTiers = [] ∧ tier ≠ "standard" then none
      else settledRates pricing inputTokens (some (.str tier))
  else settledRates pricing inputTokens (tier.map .str)

def isGoogle (requestFormat : Option String) : Bool := requestFormat = some "google.generate_content"

/-- The settlement of a token card, once the format has a token price. -/
def TokenPricing.settle (pricing : TokenPricing) (tokens : PricedTokens)
    (requestFormat : Option String) : Option Nat :=
  if tokens.billable = false then some 0
  else
    match pricedTokens tokens requestFormat with
    | none => none
    | some tokens =>
      match tokens.input with
      | none => none
      | some input =>
        match servedRates pricing input tokens.serviceTier (isGoogle requestFormat) with
        | none => none
        | some rates =>
          if tokens.output = none ∧ 0 < rates.output then none
          else if rates.cacheWriteInput.isSome ∧ tokens.cacheWrite = none then none
          else some (weightedTokenCost (components rates (splitInput tokens input) (tokens.output.getD 0)))

def ModelPricing.actualModelCost (pricing : ModelPricing) (tokens : MeteredTokens)
    (requestFormat : Option String) : Option Nat :=
  if unpricedFormat requestFormat then none
  else
    match pricing with
    | .imageToken card =>
      if requestFormat = some "openai.images_generations" then actualImageCost card tokens else none
    | .character _ => none
    | .token card => card.toTokenPricing.settle tokens.toPricedTokens requestFormat

/-! ## 2. Buckets -/

/-- The parts of the input. -/
inductive Bucket
  | uncached
  | cached
  | write5m
  | write1h
  | genericWrite
  deriving DecidableEq

def Bucket.all : List Bucket := [.uncached, .cached, .write5m, .write1h, .genericWrite]

def InputSplit.count (split : InputSplit) : Bucket → Nat
  | .uncached => split.remaining
  | .cached => split.cached
  | .write5m => split.write5m
  | .write1h => split.write1h
  | .genericWrite => split.genericWrite

def Rates.inputRate (rates : Rates) : Bucket → Nat
  | .uncached => rates.input
  | .cached => rates.cachedInput.getD rates.input
  | .write5m => rates.write5mRate
  | .write1h => rates.write1hRate
  | .genericWrite => rates.genericWriteRate

def overBuckets (f : Bucket → Nat) : Nat := (Bucket.all.map f).sum

def InputSplit.Moved (a b : InputSplit) (source target : Bucket) : Prop :=
  ∀ bucket, b.count bucket + (if bucket = source then 1 else 0) = a.count bucket +
    (if bucket = target then 1 else 0)

section Buckets

variable {rates : Rates} {split split' : InputSplit} {source target : Bucket}

theorem overBuckets_eq (f : Bucket → Nat) :
    overBuckets f = f .uncached + f .cached + f .write5m + f .write1h + f .genericWrite := by
  unfold overBuckets Bucket.all
  simp only [List.map_cons, List.map_nil, List.sum_cons, List.sum_nil]
  omega

theorem overBuckets_add (f g : Bucket → Nat) :
    overBuckets (fun b => f b + g b) = overBuckets f + overBuckets g := by
  simp only [overBuckets_eq]
  omega

theorem overBuckets_mono {f g : Bucket → Nat} (h : ∀ b, f b ≤ g b) : overBuckets f ≤ overBuckets g := by
  simp only [overBuckets_eq]
  have h1 := h .uncached
  have h2 := h .cached
  have h3 := h .write5m
  have h4 := h .write1h
  have h5 := h .genericWrite
  omega

theorem overBuckets_single (bucket : Bucket) (r : Bucket → Nat) :
    overBuckets (fun b => (if b = bucket then 1 else 0) * r b) = r bucket := by
  rw [overBuckets_eq]
  cases bucket <;> simp

theorem overBuckets_mul (f : Bucket → Nat) (rate : Nat) :
    overBuckets (fun b => f b * rate) = overBuckets f * rate := by
  simp only [overBuckets_eq]
  ring

theorem weightedTokens_buckets (output : Nat) : weightedTokens rates split output =
      overBuckets (fun b => split.count b * rates.inputRate b) + output * rates.output := by
  rw [overBuckets_eq]
  rfl

theorem splitInput_buckets (tokens : PricedTokens) (input : Nat) :
    overBuckets (splitInput tokens input).count = input := by
  rw [overBuckets_eq]
  exact splitInput_sum tokens input

theorem lowest_le {rate : Nat} (h : ∀ b, split.count b ≠ 0 → rate ≤ rates.inputRate b) :
    overBuckets split.count * rate ≤ overBuckets fun b => split.count b * rates.inputRate b := by
  rw [← overBuckets_mul]
  refine overBuckets_mono fun b => ?_
  rcases Nat.eq_zero_or_pos (split.count b) with e | hpos
  · simp [e]
  · exact Nat.mul_le_mul_left _ (h b (Nat.pos_iff_ne_zero.mp hpos))

theorem le_highest {rate : Nat} (h : ∀ b, split.count b ≠ 0 → rates.inputRate b ≤ rate) :
    (overBuckets fun b => split.count b * rates.inputRate b) ≤ overBuckets split.count * rate := by
  rw [← overBuckets_mul]
  refine overBuckets_mono fun b => ?_
  rcases Nat.eq_zero_or_pos (split.count b) with e | hpos
  · simp [e]
  · exact Nat.mul_le_mul_left _ (h b (Nat.pos_iff_ne_zero.mp hpos))

theorem moved_cost (h : split.Moved split' source target) :
    (overBuckets fun b => split'.count b * rates.inputRate b) + rates.inputRate source =
      (overBuckets fun b => split.count b * rates.inputRate b) + rates.inputRate target := by
  have e : ∀ b, split'.count b * rates.inputRate b + (if b = source then 1 else 0) * rates.inputRate b =
      split.count b * rates.inputRate b + (if b = target then 1 else 0) * rates.inputRate b := by
    intro b
    rw [← Nat.add_mul, h b, Nat.add_mul]
  have hsum := congrArg overBuckets (funext e)
  rw [overBuckets_add, overBuckets_add, overBuckets_single, overBuckets_single] at hsum
  exact hsum

end Buckets

/-! ## 3. Products in binary64 -/

/-- A sum of the code is the exact one to `2 ^ 53`, and from there on not below that. -/
def Tracks (total : ℚ) (exactly : Nat) : Prop :=
  exactly ≤ 2 ^ 53 ∧ total = exactly ∨ 2 ^ 53 < exactly ∧ 2 ^ 53 ≤ total

theorem Tracks.le {total : ℚ} {exactly n : Nat} (h : Tracks total exactly) (hn : n ≤ exactly)
    (hmax : n ≤ 2 ^ 53) :
    (n : ℚ) ≤ total := by
  rcases h with ⟨-, rfl⟩ | ⟨-, hlarge⟩
  · exact Nat.cast_le.mpr hn
  · exact (show (n : ℚ) ≤ 2 ^ 53 by exact_mod_cast hmax).trans hlarge

theorem Tracks.add {total : ℚ} {exactly : Nat} (h : Tracks total exactly) (p : Nat) :
    Tracks (Binary64.round (total + Binary64.round p)) (exactly + p) := by
  have h0 : 0 ≤ total := by exact_mod_cast h.le (Nat.zero_le _) (Nat.zero_le _)
  have hp : Tracks (Binary64.round p) p := by
    rcases Nat.lt_or_ge (2 ^ 53) p with hlarge | hsmall
    · refine .inr ⟨hlarge, ?_⟩
      have hmono := Binary64.round_mono (by positivity) (Nat.cast_le (α := ℚ).mpr hlarge.le)
      rw [Binary64.round_natCast le_rfl] at hmono
      exact_mod_cast hmono
    · exact .inl ⟨hsmall, Binary64.round_natCast hsmall⟩
  have hp0 : 0 ≤ Binary64.round p := Binary64.round_nonneg (Nat.cast_nonneg p)
  rcases Nat.lt_or_ge (2 ^ 53) (exactly + p) with hlarge | hsmall
  · refine .inr ⟨hlarge, ?_⟩
    have hsum : ((2 ^ 53 : ℕ) : ℚ) ≤ total + Binary64.round p := by
      rcases h with ⟨hle, rfl⟩ | ⟨-, htotal⟩
      · rcases hp with ⟨-, e⟩ | ⟨-, hproduct⟩
        · rw [e]
          exact_mod_cast hlarge.le
        · push_cast
          linarith
      · push_cast
        linarith
    have hmono := Binary64.round_mono (by positivity) hsum
    rw [Binary64.round_natCast le_rfl] at hmono
    exact_mod_cast hmono
  · refine .inl ⟨hsmall, ?_⟩
    rcases h with ⟨-, rfl⟩ | ⟨hover, -⟩
    · rw [Binary64.round_natCast (by omega : p ≤ 2 ^ 53), ← Nat.cast_add]
      exact Binary64.round_natCast hsmall
    · omega

theorem tracks_foldl (components : List (Nat × Nat)) {total : ℚ} {exactly : Nat} (h : Tracks total exactly) :
    Tracks (components.foldl (fun total c => Binary64.round (total + Binary64.round (c.1 * c.2 : ℕ))) total)
      (exactly + (components.map fun c => c.1 * c.2).sum) := by
  induction components generalizing total exactly with
  | nil => exact h
  | cons c components ih =>
    rw [List.foldl_cons, List.map_cons, List.sum_cons, ← Nat.add_assoc]
    exact ih (h.add (c.1 * c.2))

/-- No cost is below the ceiling of an exact part of the sum. -/
theorem le_weightedTokenCost {components : List (Nat × Nat)} {n : Nat}
    (hn : n ≤ (components.map fun c => c.1 * c.2).sum) (hmax : n ≤ 2 ^ 53) :
    ceilMillion n ≤ weightedTokenCost components := by
  have htracks := tracks_foldl components (show Tracks 0 0 from .inl ⟨Nat.zero_le _, rfl⟩)
  rw [Nat.zero_add] at htracks
  have hle := div_le_div_of_nonneg_right (htracks.le hn hmax) (show (0 : ℚ) ≤ 1000000 by norm_num)
  unfold ceilMillion
  rw [← Binary64.ceil_round_div hmax]
  exact Nat.ceil_mono (Binary64.round_mono (by positivity) hle)

/-- **To `2 ^ 53` the arithmetic is exact.** -/
theorem weightedTokenCost_exact {components : List (Nat × Nat)}
    (h : (components.map fun c => c.1 * c.2).sum ≤ 2 ^ 53) :
    weightedTokenCost components = ceilMillion (components.map fun c => c.1 * c.2).sum := by
  have htracks := tracks_foldl components (show Tracks 0 0 from .inl ⟨Nat.zero_le _, rfl⟩)
  rw [Nat.zero_add] at htracks
  rcases htracks with ⟨-, htotal⟩ | ⟨hover, -⟩
  · unfold weightedTokenCost ceilMillion
    rw [htotal, Binary64.ceil_round_div h]
  · omega

theorem components_sum (rates : Rates) (split : InputSplit) (output : Nat) :
    ((components rates split output).map fun c => c.1 * c.2).sum = weightedTokens rates split output := by
  simp only [components, List.map_cons, List.map_nil, List.sum_cons, List.sum_nil]
  unfold weightedTokens
  omega

/-! ## 4. Every token once -/

/-- **A cost that charges every input token at the rate of one bucket.** -/
structure PricedOnce (rates : Rates) (split : InputSplit) (input output cost : Nat) : Prop where
  /-- The product sum is rounded up once. -/
  charged : cost = ceilMillion
    ((overBuckets fun b => split.count b * rates.inputRate b) + output * rates.output)
  lowest : ∀ rate, (∀ b, split.count b ≠ 0 → rate ≤ rates.inputRate b) →
    ceilMillion (input * rate + output * rates.output) ≤ cost
  highest : ∀ rate, (∀ b, split.count b ≠ 0 → rates.inputRate b ≤ rate) →
    cost ≤ ceilMillion (input * rate + output * rates.output)

/-- What `actualModelCost` settles a usage by: the tokens that are priced, their input, and the rates
    of the tier that served them in the context they had. -/
structure Settles (pricing : TokenPricing) (tokens : PricedTokens) (requestFormat : Option String)
    (priced : PricedTokens) (input : Nat) (rates : Rates) : Prop where
  usage : pricedTokens tokens requestFormat = some priced
  reported : priced.input = some input
  served : servedRates pricing input priced.serviceTier (isGoogle requestFormat) = some rates

section Settle

variable {card : TokenCard} {tokens : MeteredTokens} {requestFormat : Option String} {cost : Nat}

section

variable (h : (ModelPricing.token card).actualModelCost tokens requestFormat = some cost)
include h

theorem settle_ok (hbillable : tokens.billable = true) : ∃ priced input rates,
      Settles card.toTokenPricing tokens.toPricedTokens requestFormat priced input rates ∧
        cost = weightedTokenCost
        (components rates (splitInput priced input) (priced.output.getD 0)) := by
  unfold ModelPricing.actualModelCost at h
  split at h
  · cases h
  · dsimp only at h
    unfold TokenPricing.settle at h
    rw [if_neg (by rw [hbillable]; exact Bool.noConfusion)] at h
    split at h
    · cases h
    · rename_i priced hpriced
      split at h
      · cases h
      · rename_i input hinput
        split at h
        · cases h
        · rename_i rates hrates
          split at h
          · cases h
          · split at h
            · cases h
            · cases h
              exact ⟨priced, input, rates, ⟨hpriced, hinput, hrates⟩, rfl⟩

theorem settle_unbilled (hbillable : tokens.billable = false) : cost = 0 := by
  unfold ModelPricing.actualModelCost at h
  split at h
  · cases h
  · dsimp only at h
    unfold TokenPricing.settle at h
    rw [if_pos hbillable] at h
    exact (Option.some.inj h).symm

end

theorem pricedOnce {priced : PricedTokens} {input : Nat} {rates : Rates}
    (h : weightedTokens rates (splitInput priced input) (priced.output.getD 0) ≤ 2 ^ 53) :
    PricedOnce rates (splitInput priced input) input (priced.output.getD 0)
      (weightedTokenCost (components rates (splitInput priced input) (priced.output.getD 0))) := by
  have htotal := splitInput_buckets priced input
  rw [weightedTokenCost_exact (by rw [components_sum]; exact h), components_sum]
  refine ⟨by rw [weightedTokens_buckets], fun rate hrate => ceilMillion_mono ?_,
    fun rate hrate => ceilMillion_mono ?_⟩
  · have hle := lowest_le hrate
    rw [htotal] at hle
    rw [weightedTokens_buckets]
    exact Nat.add_le_add_right hle _
  · have hle := le_highest hrate
    rw [htotal] at hle
    rw [weightedTokens_buckets]
    exact Nat.add_le_add_right hle _

/-- **The two settlements are one**: for the other formats, and to `2 ^ 53`, a token card settles in
    exact arithmetic. -/
theorem actualModelCost_exact (hformat : isGoogle requestFormat = false)
    (hsmall : ∀ priced input rates, Settles card.toTokenPricing tokens.toPricedTokens requestFormat
      priced input rates →
      weightedTokens rates (splitInput priced input) (priced.output.getD 0) ≤ 2 ^ 53) :
    (ModelPricing.token card).actualModelCost tokens requestFormat =
      actualModelCost card.toTokenPricing tokens.toPricedTokens requestFormat := by
  unfold ModelPricing.actualModelCost actualModelCost
  by_cases hunpriced : unpricedFormat requestFormat = true
  · rw [if_pos hunpriced, if_pos hunpriced]
  rw [if_neg hunpriced, if_neg hunpriced]
  dsimp only
  unfold TokenPricing.settle
  by_cases hbillable : tokens.billable = false
  · rw [if_pos hbillable, if_pos hbillable]
  rw [if_neg hbillable, if_neg hbillable]
  cases hpriced : pricedTokens tokens.toPricedTokens requestFormat with
  | none => rfl
  | some priced =>
    cases hinput : priced.input with
    | none => simp only [hinput]
    | some input =>
      have hserved : servedRates card.toTokenPricing input priced.serviceTier (isGoogle requestFormat) =
          settledRates card.toTokenPricing input (priced.serviceTier.map .str) := by
        unfold servedRates
        rw [if_neg (by rw [hformat]; exact Bool.false_ne_true)]
      simp only [hinput, hserved]
      cases hrates : settledRates card.toTokenPricing input (priced.serviceTier.map .str) with
      | none => rfl
      | some rates =>
        have hle := hsmall priced input rates ⟨hpriced, hinput, hserved.trans hrates⟩
        dsimp only
        rw [weightedTokenCost_exact (by rw [components_sum]; exact hle), components_sum]

end Settle

end ClawRouter.Pricing
