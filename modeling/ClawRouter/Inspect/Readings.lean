/-
  Subject:   What of a document the accounting reads: two documents in which it reads the same give the
             same usage.

  * **`extract_alike`**: `extractUsageTokens` tells no such documents apart.
-/
import ClawRouter.Inspect.Projection

namespace ClawRouter.Inspect

open Utf16 Js

/-! ## 1. Numbers -/

def number : Option Value → Option Double
  | some (.num n) => some n
  | _ => none

/-- The same number, or a value that is no number in both, or none in both. -/
structure NumLike (a b : Option Value) : Prop where
  present : a.isSome = b.isSome
  same : number a = number b

theorem NumLike.refl (a : Option Value) : NumLike a a := ⟨rfl, rfl⟩

variable {a b : Option Value}

theorem NumLike.of_eq (h : a = b) : NumLike a b := h ▸ .refl a

theorem numeric_number (a : Option Value) : numeric a = numeric ((number a).map .num) := by
  cases a with
  | none => rfl
  | some v => cases v <;> rfl

theorem NumLike.numeric (h : NumLike a b) : numeric a = Inspect.numeric b := by
  rw [numeric_number a, numeric_number b, h.same]

/-- Members under some names hold the same numbers. -/
def CountsLike (names : List String) (u v : Members) : Prop :=
  ∀ name ∈ names, NumLike (get u name) (get v name)

variable {u v : Members}

theorem CountsLike.pick {names keys : List String} (h : CountsLike names u v)
    (hkeys : ∀ key ∈ keys, key ∈ names) : pickNumber u keys = pickNumber v keys := by
  unfold pickNumber
  induction keys with
  | nil => rfl
  | cons key keys ih =>
    rw [List.findSome?_cons, List.findSome?_cons, (h key (hkeys key List.mem_cons_self)).numeric,
      ih fun key hkey => hkeys key (List.mem_cons_of_mem _ hkey)]

/-- Records that hold the same numbers, or no records. -/
inductive RecordLike (names : List String) : Option Members → Option Members → Prop
  | missing : RecordLike names none none
  | both {u v : Members} (h : CountsLike names u v) : RecordLike names (some u) (some v)

theorem subsetCounter_number (a : Option Value) (inclusive : Option Double) :
    subsetCounter a inclusive = subsetCounter ((number a).map .num) inclusive := by
  cases a with
  | none => rfl
  | some v => cases v <;> rfl

/-! ## 2. Usage -/

def countNames : List String :=
  ["input_tokens", "prompt_tokens", "inputTokens", "output_tokens", "completion_tokens", "outputTokens",
    "total_tokens", "totalTokens", "cache_read_input_tokens", "cache_creation_input_tokens",
    "cache_creation_ephemeral_5m_input_tokens", "cache_creation_ephemeral_1h_input_tokens",
    "prompt_cache_hit_tokens", "prompt_cache_miss_tokens", "cached_tokens"]

def detailNames : List String :=
  ["cached_tokens", "cache_read_input_tokens", "cache_write_tokens", "reasoning_tokens"]

theorem RecordLike.reasoning {d e : Option Members} (h : RecordLike detailNames d e) (output : Option Double) :
    (d.bind fun details =>
      if has details "reasoning_tokens" then some
        (subsetCounter (get details "reasoning_tokens") output) else none) =
    e.bind fun details =>
      if has details "reasoning_tokens" then some (subsetCounter (get details "reasoning_tokens") output)
      else none := by
  cases h with
  | missing => rfl
  | both h =>
    obtain ⟨hpresent, hsame⟩ := h "reasoning_tokens" (by decide)
    unfold has
    rw [Option.bind_some, Option.bind_some, hpresent, subsetCounter_number, hsame, ← subsetCounter_number]

def plainNames : List String :=
  ["tokens", "billed_units", "speed", "inference_geo", "service_tier", "server_tool_use"]

/-- Two usages that count the same. -/
structure UsageAlike (u v : Members) : Prop where
  counts : CountsLike countNames u v
  details : RecordLike detailNames (record (nullish (get u "prompt_tokens_details") <|> get u
    "input_tokens_details"))
    (record (nullish (get v "prompt_tokens_details") <|> get v "input_tokens_details"))
  output_details :
    RecordLike detailNames (record (nullish (get u "output_tokens_details") <|> get u
      "completion_tokens_details"))
      (record (nullish (get v "output_tokens_details") <|> get v "completion_tokens_details"))
  creation : RecordLike creationCounters (record (get u "cache_creation")) (record (get v "cache_creation"))
  plain : ∀ name ∈ plainNames, get u name = get v name

theorem CountsLike.refl (names : List String) (u : Members) : CountsLike names u u := fun _ _ => .refl _

theorem RecordLike.refl (names : List String) (d : Option Members) : RecordLike names d d := by
  cases d with
  | none => exact .missing
  | some u => exact .both (.refl names u)

theorem UsageAlike.of_get (h : ∀ name, text name ≠ text "cache_creation" → get u name = get v name)
    (hcreation : RecordLike creationCounters (record (get u "cache_creation"))
      (record (get v "cache_creation"))) :
    UsageAlike u v := by
  have hcounts : ∀ name ∈ countNames, text name ≠ text "cache_creation" := by decide +kernel
  have hplain : ∀ name ∈ plainNames, text name ≠ text "cache_creation" := by decide +kernel
  refine ⟨fun name hname => .of_eq (h name (hcounts name hname)), ?_, ?_, hcreation,
    fun name hname => h name (hplain name hname)⟩
  · rw [h "prompt_tokens_details" (by decide), h "input_tokens_details" (by decide)]
    exact .refl _ _
  · rw [h "output_tokens_details" (by decide), h "completion_tokens_details" (by decide)]
    exact .refl _ _

/-! ## 3. The discount of a prompt -/

/-- Values that are the same numbers, or no numbers, one by one. -/
abbrev NumbersLike : List Value → List Value → Prop :=
  List.Forall₂ fun a b => number (some a) = number (some b)

theorem filterMap_alike {as bs : List (Option Value)} (h : List.Forall₂ NumLike as bs) :
    NumbersLike (as.filterMap id) (bs.filterMap id) := by
  induction h with
  | nil => exact .nil
  | @cons a b as bs hab _ ih =>
    obtain ⟨hpresent, hsame⟩ := hab
    cases a with
    | none =>
      cases b with
      | none => exact ih
      | some y => cases hpresent
    | some x =>
      cases b with
      | none => cases hpresent
      | some y => exact .cons hsame ih

theorem any_alike {bad : Value → Bool} (hbad : ∀ a b, number (some a) = number (some b) → bad a = bad b)
    {as bs : List Value} (h : NumbersLike as bs) : as.any bad = bs.any bad := by
  induction h with
  | nil => rfl
  | cons hab _ ih => rw [List.any_cons, List.any_cons, hbad _ _ hab, ih]

theorem head_alike {as bs : List Value} (h : NumbersLike as bs) : number as.head? = number bs.head? := by
  cases h with
  | nil => rfl
  | cons hab _ => exact hab

def promptHits (usage : Members) (details : Option Members) (stepfun : Bool) : List Value :=
  ([details.bind (get · "cached_tokens"), details.bind (get · "cache_read_input_tokens"),
    get usage "prompt_cache_hit_tokens"] ++ if stepfun then [get usage "cached_tokens"] else []).filterMap id

theorem promptHits_alike {d e : Option Members} (h : CountsLike countNames u v)
    (hd : RecordLike detailNames d e) (stepfun : Bool) :
    NumbersLike (promptHits u d stepfun) (promptHits v e stepfun) := by
  have hdetail : ∀ name ∈ detailNames, NumLike (d.bind (get · name)) (e.bind (get · name)) := by
    intro name hname
    cases hd with
    | missing => exact .refl _
    | both hde => exact hde name hname
  refine filterMap_alike (.cons (hdetail _ (by decide))
    (.cons (hdetail _ (by decide)) (.cons (h _ (by decide)) ?_)))
  cases stepfun with
  | true => exact .cons (h _ (by decide)) .nil
  | false => exact .nil

theorem num_of_number {n : Double} (h : number a = some n) : a = some (.num n) := by
  cases a with
  | none => cases h
  | some v =>
    cases v with
    | num m =>
      cases h
      rfl
    | _ => cases h

theorem promptCached_none {usage : Members} {details : Option Members} {input : Option Double}
    {context : Option UsageTokenContext} (h : input = none ∨ number (get usage "prompt_tokens") = none) :
    promptCachedTokens usage details input context = none := by
  unfold promptCachedTokens
  obtain h | h := h
  · rw [h]
  · cases input with
    | none => rfl
    | some n =>
      cases hp : get usage "prompt_tokens" with
      | none => rfl
      | some v =>
        cases v with
        | num m =>
          rw [hp] at h
          cases h
        | _ => rfl

/-- A hit that is no count, is above the input, or is not the first one. -/
def conflicts (input hit : Double) : Value → Bool
  | .num n => !isCount n || !n.le input || n != hit
  | _ => true

def missAgrees (miss : Option Value) (input hit : Double) : Bool :=
  match miss with
  | none => true
  | some (.num (.finite miss)) =>
    match input, hit with
    | .finite input, .finite hit => isCount (.finite miss) && miss == input - hit
    | _, _ => false
  | some _ => false

theorem missAgrees_alike (h : NumLike a b) (input hit : Double) :
    missAgrees a input hit = missAgrees b input hit := by
  obtain ⟨hpresent, hsame⟩ := h
  cases hn : number a with
  | some n => rw [num_of_number hn, num_of_number (hsame.symm.trans hn)]
  | none =>
    have hother : number b = none := hsame.symm.trans hn
    have hfalse : ∀ x : Value, number (some x) = none → missAgrees (some x) input hit = false := by
      intro x hx
      cases x with
      | num n => cases hx
      | _ => rfl
    cases a with
    | none =>
      cases b with
      | none => rfl
      | some y => cases hpresent
    | some x =>
      cases b with
      | none => cases hpresent
      | some y => rw [hfalse x hn, hfalse y hother]

/-- Whether a context lets the usage itself report a hit. -/
def stepfun (context : Option UsageTokenContext) : Bool :=
  context.any fun c => (c.providerId == "stepfun" || c.providerId == "stepfun-cn") &&
    c.requestFormat == "openai.chat_completions" && c.responseFormat == "openai.chat_completions"

theorem promptCached_some {usage : Members} {details : Option Members} {input prompt : Double}
    {context : Option UsageTokenContext} (h : get usage "prompt_tokens" = some (.num prompt)) :
    promptCachedTokens usage details (some input) context =
      (number (promptHits usage details (stepfun context)).head?).bind fun hit =>
        if !prompt.isSafeInteger || prompt != input ||
          (promptHits usage details (stepfun context)).any (conflicts input hit) ||
          !missAgrees (get usage "prompt_cache_miss_tokens") input hit then none else some hit := by
  unfold promptCachedTokens promptHits stepfun
  simp only [h]
  generalize List.filterMap id _ = hits
  cases hits with
  | nil => rfl
  | cons x xs => cases x <;> rfl

theorem promptCachedTokens_alike {d e : Option Members} (h : CountsLike countNames u v)
    (hd : RecordLike detailNames d e) (input : Option Double) (context : Option UsageTokenContext) :
    promptCachedTokens u d input context = promptCachedTokens v e input context := by
  have hprompt : NumLike (get u "prompt_tokens") (get v "prompt_tokens") := h _ (by decide)
  have hmiss : NumLike (get u "prompt_cache_miss_tokens") (get v "prompt_cache_miss_tokens") := h _ (by decide)
  have hhits := promptHits_alike h hd (stepfun context)
  cases input with
  | none => rw [promptCached_none (.inl rfl), promptCached_none (.inl rfl)]
  | some input =>
    cases hnumber : number (get u "prompt_tokens") with
    | none => rw [promptCached_none (.inr hnumber), promptCached_none (.inr (hprompt.same.symm.trans hnumber))]
    | some prompt =>
      rw [promptCached_some (num_of_number hnumber),
        promptCached_some (num_of_number (hprompt.same.symm.trans hnumber))]
      have hfirst : number (promptHits u d (stepfun context)).head? =
          number (promptHits v e (stepfun context)).head? := head_alike hhits
      have hconflicts : ∀ hit, (promptHits u d (stepfun context)).any (conflicts input hit) =
          (promptHits v e (stepfun context)).any (conflicts input hit) := by
        intro hit
        refine any_alike (fun a b hab => ?_) hhits
        have hnone : ∀ x : Value, number (some x) = none → conflicts input hit x = true := by
          intro x hx
          cases x with
          | num n => cases hx
          | _ => rfl
        cases hn : number (some a) with
        | some n =>
          cases num_of_number hn
          cases num_of_number (hab.symm.trans hn)
          rfl
        | none => rw [hnone a hn, hnone b (hab.symm.trans hn)]
      rw [hfirst]
      simp only [hconflicts, missAgrees_alike hmiss]

/-! ## 4. Documents -/

/-- A document of one of the protocols that report a usage record. -/
structure Plain (r : Members) : Prop where
  google : (has r "usageMetadata" || has r "usage_metadata") = false
  unended : isText (get r "type") "message-end" = false

/-- `Array.isArray(content) && content.length === 0`. -/
def emptyContent (r : Members) : Bool :=
  match get r "content" with
  | some (.arr []) => true
  | _ => false

def refused (r : Members) : Bool :=
  isText (get r "type") "message" && isText (get r "stop_reason") "refusal" && emptyContent r

def tierOf (r : Members) : Option Text := extractServiceTier (record (get r "response") <|> some r)

/-- Two documents that are read the same. -/
structure RootAlike (r s : Members) : Prop where
  left : Plain r
  right : Plain s
  message : isText (get r "type") "message" = isText (get s "type") "message"
  refused : refused r = refused s
  tier : tierOf r = tierOf s

@[simp] theorem record_obj (r : Members) : record (some (.obj r)) = some r := rfl

theorem extract_none {r : Members} (h : Plain r) (hu : usageRecord (some r) = none)
    (context : Option UsageTokenContext) : extractUsageTokens (some (.obj r)) context = none := by
  unfold extractUsageTokens
  simp only [record_obj, Option.any_some, h.google, Option.bind_some, h.unended, hu]
  rfl

theorem UsageAlike.has_plain (h : UsageAlike u v) (name : String) (hname : name ∈ plainNames) :
    has u name = has v name := by
  unfold has
  rw [h.plain name hname]

theorem UsageAlike.modifiers (h : UsageAlike u v) : anthropicModifiers u = anthropicModifiers v := by
  unfold anthropicModifiers modifier
  rw [h.plain "speed" (by decide), h.plain "inference_geo" (by decide), h.plain "service_tier" (by decide)]

theorem UsageAlike.cohere (h : UsageAlike u v) : cohereUsageTokens u = cohereUsageTokens v := by
  unfold cohereUsageTokens
  rw [h.plain "tokens" (by decide), h.plain "billed_units" (by decide)]

theorem extract_alike {r s : Members} (h : RootAlike r s) (hu : usageRecord (some r) = some u)
    (hv : usageRecord (some s) = some v) (huv : UsageAlike u v) (context : Option UsageTokenContext) :
    extractUsageTokens (some (.obj r)) context = extractUsageTokens (some (.obj s)) context := by
  have hpick : ∀ keys : List String, (∀ key ∈ keys, key ∈ countNames) →
    pickNumber u keys = pickNumber v keys :=
    fun keys hkeys => huv.counts.pick hkeys
  have hcached : ∀ input, promptCachedTokens u _ input context = promptCachedTokens v _ input context :=
    fun input => promptCachedTokens_alike huv.counts huv.details input context
  have hprompt : has u "prompt_tokens" = has v "prompt_tokens" := (huv.counts _ (by decide)).present
  have hrefused := h.refused
  have htier := h.tier
  unfold refused emptyContent at hrefused
  unfold tierOf at htier
  unfold extractUsageTokens
  simp only [record_obj, Option.any_some, h.left.google, h.right.google, Option.bind_some, h.left.unended,
    h.right.unended, hu, hv, Bool.false_eq_true, if_false, bind, huv.has_plain "tokens" (by decide),
    huv.has_plain "billed_units" (by decide), huv.has_plain "server_tool_use" (by decide),
    huv.cohere, huv.modifiers, hcached, hprompt, huv.plain "server_tool_use" (by decide), htier]
  rw [h.message]
  rw [h.message] at hrefused
  split
  · rfl
  · have hdetails := huv.details
    have houtput := huv.output_details
    have hcreation := huv.creation
    clear hcached
    generalize promptCachedTokens v _ = cached
    generalize record (nullish (get u "prompt_tokens_details") <|> get u "input_tokens_details") =
      d at hdetails ⊢
    generalize record (nullish (get v "prompt_tokens_details") <|> get v "input_tokens_details") =
      e at hdetails ⊢
    generalize record (nullish (get u "output_tokens_details") <|> get u
      "completion_tokens_details") = d' at houtput ⊢
    generalize record (nullish (get v "output_tokens_details") <|> get v
      "completion_tokens_details") = e' at houtput ⊢
    generalize record (get u "cache_creation") = c at hcreation ⊢
    generalize record (get v "cache_creation") = c' at hcreation ⊢
    generalize hx : (isText (get s "type") "message" && isText (get r "stop_reason") "refusal" && _) = x
    generalize hy : (isText (get s "type") "message" && isText (get s "stop_reason") "refusal" && _) = y
    have hxy : x = y := by
      rw [← hx, ← hy]
      exact hrefused
    simp (disch := decide) only [hpick, hxy, houtput.reasoning]
    -- what is left are the nested counters
    cases hdetails with
    | missing =>
      cases hcreation with
      | missing => rfl
      | both hc =>
        simp (disch := decide) only [hc.pick]
        rfl
    | both hd =>
      cases hcreation with
      | missing =>
        simp (disch := decide) only [hd.pick, Option.bind_some, Option.isSome_some]
        rfl
      | both hc =>
        simp (disch := decide) only [hd.pick, hc.pick, Option.bind_some, Option.isSome_some]
        rfl

end ClawRouter.Inspect
