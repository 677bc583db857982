/-
  Subject:   What a personal usage request asks for (`parseUsageReportQuery`, `decodeCursor`,
             `encodeCursor`, `cursorBinding`, `mapUsageShards` of src/worker/usage-report.ts,
             `parseUsageReportRange` of src/worker/usage-report-range.ts).

  The parameters are given as they are read: an instant for a date or a timestamp, a number for a
  limit; Buckets.lean has the ranges of parameters as they are written. The text of a cursor is
  given by its length and by the JSON that is read out of it.

  * `decodeCursor`, `encodeCursor`: **`decodeCursor_encodeCursor`**: what is read back, and when.
-/
import ClawRouter.Http
import ClawRouter.Lib.JsonText
import ClawRouter.Lib.Utf8
import ClawRouter.Report.ReadPaths

namespace ClawRouter.Report

open Js Json Fallible

/-! ## 1. Ids -/

def compareUsageIds (a b : String) : Int := Utf8.compareBytes (Utf8.bytes a) (Utf8.bytes b)

/-! ## 2. The query -/

def invalidRange (message : String) : HttpError := ⟨400, "invalid_usage_range", message⟩

def invalidQuery (message : String) : HttpError := ⟨400, "invalid_usage_query", message⟩

/-- `usageDateTools` of one timezone, with `nextUsageDate`. -/
structure UsageDateTools where
  label : Int → String
  midnight : String → Int
  nextUsageDate : String → String

/-- A bucket and its label. -/
structure UsageBucket where
  start : Int
  stop : Int
  label : String
  deriving DecidableEq

/-- A range with its buckets. -/
structure UsageReportRange where
  rangeFrom : Int
  rangeTo : Int
  timezone : String
  retentionStart : Int
  clampedStart : Bool
  buckets : List UsageBucket
  deriving DecidableEq

/-- `from`, `to` and `days`, with the instants they name. `calendarDays` are the days between two
    dates, where both are dates. -/
structure UsageRangeParams where
  rangeFrom : Option Int
  rangeTo : Option Int
  days : Option Int
  calendarDays : Option Int
  timezone : String

def UsageRangeParams.tooLong (params : UsageRangeParams) (length : Int) : Bool :=
  match params.calendarDays with
  | some calendarDays => calendarDays > 30 || length > 31 * reportDayMs
  | none => length > 30 * reportDayMs

/-- The loop over the days of a range: the buckets, and where it stopped. -/
def dayBuckets (tools : UsageDateTools) (rangeTo : Int) : Nat → String → Int → List UsageBucket →
    List UsageBucket × Int
  | 0, _, start, buckets => (buckets, start)
  | days + 1, date, start, buckets =>
    if start < rangeTo ∧ buckets.length < 32 then
      let nextDate := tools.nextUsageDate date
      let stop := min rangeTo (tools.midnight nextDate)
      if start < stop then
        dayBuckets tools rangeTo days nextDate stop (buckets ++ [⟨start, stop, date⟩])
      else dayBuckets tools rangeTo days nextDate start buckets
    else (buckets, start)

def parseUsageReportRange (tools : UsageDateTools) (params : UsageRangeParams) (now : Int) :
    Answer UsageReportRange := do
  require (params.days.all fun days => days = 7 || days = 30) (invalidRange "days must be 7 or 30")
  require (params.days.isNone || params.rangeFrom.isNone && params.rangeTo.isNone)
    (invalidRange "days cannot be combined with from/to")
  let rangeTo := params.rangeTo.getD now
  let requestedFrom := params.rangeFrom.getD (rangeTo - params.days.getD 7 * reportDayMs)
  require (requestedFrom < rangeTo && !params.tooLong (rangeTo - requestedFrom))
    (invalidRange "range must be positive and at most 30 days")
  require (rangeTo ≤ now) (invalidRange "to must not be in the future")
  let retentionStart := now - reportRetentionMs
  let start := min rangeTo (max requestedFrom retentionStart)
  let buckets := dayBuckets tools rangeTo 33 (tools.label start) start []
  require (rangeTo ≤ buckets.2) (invalidRange "range exceeds 32 daily buckets")
  return ⟨start, rangeTo, params.timezone, retentionStart, start ≠ requestedFrom, buckets.1⟩

/-- The parameters but the cursor. A limit that is not given is 25. -/
structure UsageReportParams where
  range : UsageRangeParams
  groupBy : UsageGroupBy
  filters : UsageFilters
  limit : Int

def UsageFilters.all (filters : UsageFilters) (p : String → Bool) : Bool :=
  filters.model.all p && filters.provider.all p && filters.key.all p && filters.status.all p &&
    filters.costClass.all p && filters.lane.all p

/-- A query that was read. -/
structure ParsedUsageQuery where
  range : UsageReportRange
  groupBy : UsageGroupBy
  filters : UsageFilters
  limit : Nat

def costClasses : List String :=
  ["calculated", "fixed", "estimated", "upper_bound", "partial", "unknown", "no_charge"]

def costLanes : List String := ["api", "subscription", "unattributed"]

def parseUsageReportQuery (tools : UsageDateTools) (params : UsageReportParams) (now : Int) :
    Answer ParsedUsageQuery := do
  require (params.filters.all fun value => value ≠ "" && utf16Length value ≤ 512)
    (invalidQuery "invalid exact filter")
  require (params.filters.costClass.all costClasses.contains &&
    params.filters.lane.all costLanes.contains) (invalidQuery "invalid cost classification")
  require (1 ≤ params.limit && params.limit ≤ 100) (invalidQuery "limit must be 1..100")
  let range ← parseUsageReportRange tools params.range now
  return ⟨range, params.groupBy, params.filters, params.limit.toNat⟩

/-! ## 3. Cursors -/

/-- Where a walk goes on. -/
structure Cursor where
  binding : String
  position : UsageEventPosition
  shard : String
  now : Int

/-- The text of a cursor: its length, and what `JSON.parse` reads out of its bytes. -/
structure CursorText where
  length : Nat
  json : Option Json

def safeInteger : Option Json → Option Int
  | some (.int n) => if -maxSafeInteger ≤ n ∧ n ≤ maxSafeInteger then some n else none
  | _ => none

def isOne : Option Json → Bool
  | some (.int 1) => true
  | _ => false

def invalidCursor : HttpError := invalidQuery "invalid usage cursor"

def decodeCursor (text : CursorText) : Answer Cursor := do
  require (text.length ≤ 16384) invalidCursor
  let cursor ← demand text.json invalidCursor
  require (isOne (cursor.get? "v")) invalidCursor
  let binding ← demand ((cursor.get? "binding").bind str?) invalidCursor
  let now ← demand (safeInteger (cursor.get? "now")) invalidCursor
  let position ← demand (cursor.get? "position") invalidCursor
  let occurredAt ← demand (safeInteger (position.get? "at")) invalidCursor
  let id ← demand ((position.get? "id").bind str?) invalidCursor
  require (id ≠ "" && utf16Length id ≤ 8192) invalidCursor
  let shard ← demand ((position.get? "shard").bind str?) invalidCursor
  require (utf16Length shard ≤ 1200) invalidCursor
  return ⟨binding, ⟨occurredAt, id⟩, shard, now⟩

def Cursor.json (cursor : Cursor) : Json :=
  .obj [("v", .int 1), ("binding", .str cursor.binding), ("now", .int cursor.now),
    ("position", .obj [("at", .int cursor.position.occurredAt), ("id", .str cursor.position.id),
      ("shard", .str cursor.shard)])]

/-- `encodeCursor`: base64 of the bytes, without padding. -/
def encodeCursor (cursor : Cursor) : CursorText := ⟨(4 * byteSize cursor.json + 2) / 3, some cursor.json⟩

structure Cursor.Fits (cursor : Cursor) : Prop where
  text : (encodeCursor cursor).length ≤ 16384
  now : -maxSafeInteger ≤ cursor.now ∧ cursor.now ≤ maxSafeInteger
  occurredAt : -maxSafeInteger ≤ cursor.position.occurredAt ∧
    cursor.position.occurredAt ≤ maxSafeInteger
  id : cursor.position.id ≠ "" ∧ utf16Length cursor.position.id ≤ 8192
  shard : utf16Length cursor.shard ≤ 1200

theorem decodeCursor_ok {cursor cursor' : Cursor} :
    decodeCursor (encodeCursor cursor) = .ok cursor' ↔ cursor.Fits ∧ cursor' = cursor := by
  have hnow : ∀ n m : Int, safeInteger (some (.int n)) = some m ↔
      (-maxSafeInteger ≤ n ∧ n ≤ maxSafeInteger) ∧ n = m := by
    intro n m
    unfold safeInteger
    split <;> simp_all
  unfold decodeCursor
  simp only [bind_ok, demand_ok, require_ok, pure_ok]
  have hjson : (encodeCursor cursor).json = some cursor.json := rfl
  have hv : isOne (cursor.json.get? "v") = true := rfl
  have hbinding : (cursor.json.get? "binding").bind str? = some cursor.binding := rfl
  have hcnow : cursor.json.get? "now" = some (.int cursor.now) := rfl
  have hposition : cursor.json.get? "position" = some (.obj
      [("at", .int cursor.position.occurredAt), ("id", .str cursor.position.id),
        ("shard", .str cursor.shard)]) := rfl
  constructor
  · rintro ⟨-, htext, json, hj, -, -, binding, hb, now, hn, position, hp, at', ha, id, hid, -, hidlen,
      shard, hs, -, hshard, rfl⟩
    cases hjson.symm.trans hj
    cases hbinding.symm.trans hb
    rw [hcnow, hnow] at hn
    cases hposition.symm.trans hp
    obtain ⟨hn, rfl⟩ := hn
    obtain ⟨hat, rfl⟩ := (hnow cursor.position.occurredAt at').mp ha
    cases hid
    cases hs
    rw [Bool.and_eq_true, decide_eq_true_eq, decide_eq_true_eq] at hidlen
    exact ⟨⟨of_decide_eq_true htext, hn, hat, hidlen, of_decide_eq_true hshard⟩, rfl⟩
  · rintro ⟨h, rfl⟩
    refine ⟨(), decide_eq_true h.text, cursor'.json, hjson, (), hv, cursor'.binding, hbinding,
      cursor'.now, ?_, _, hposition, cursor'.position.occurredAt, ?_, cursor'.position.id, rfl, (),
      ?_, cursor'.shard, rfl, (), decide_eq_true h.shard, rfl⟩
    · rw [hcnow, hnow]
      exact ⟨h.now, rfl⟩
    · exact (hnow _ _).mpr ⟨h.occurredAt, rfl⟩
    · rw [Bool.and_eq_true, decide_eq_true_eq, decide_eq_true_eq]
      exact h.id

/-- **A cursor reads back as itself** where it fits. -/
theorem decodeCursor_encodeCursor {cursor : Cursor} (h : cursor.Fits) :
    decodeCursor (encodeCursor cursor) = .ok cursor :=
  decodeCursor_ok.mpr ⟨h, rfl⟩

/-! ## 4. Shards -/

/-- A policy of a tenant. -/
structure Policy where
  tenantId : String
  policyId : String
  deriving DecidableEq

def Policy.json (policy : Policy) : Json := .arr [.str policy.tenantId, .str policy.policyId]

/-- `JSON.stringify([policy.tenantId, policy.policyId])`. -/
def shardName (policy : Policy) : String := String.ofList (render policy.json)

theorem shardName_injective {p p' : Policy} (h : shardName p = shardName p') : p = p' := by
  have h := String.ofList_injective h
  have h : '[' :: (quoteChars p.tenantId.toList ++ ',' :: quoteChars p.policyId.toList) ++ [']'] =
      '[' :: (quoteChars p'.tenantId.toList ++ ',' :: quoteChars p'.policyId.toList) ++ [']'] := h
  rw [List.cons_append, List.cons_append, List.append_assoc, List.append_assoc] at h
  obtain ⟨htenant, hrest⟩ := quote_cancel (List.cons.inj h).2
  rw [List.cons_append, List.cons_append] at hrest
  obtain ⟨hpolicy, -⟩ := quote_cancel (List.cons.inj hrest).2
  cases p
  cases p'
  rw [Policy.mk.injEq]
  exact ⟨String.toList_injective htenant, String.toList_injective hpolicy⟩

/-- The policies under distinct names, in the order of their first occurrence. -/
def uniquePolicies : List Policy → List Policy
  | [] => []
  | p :: rest => p :: (uniquePolicies rest).filter fun p' => shardName p' ≠ shardName p

theorem mem_uniquePolicies {policies : List Policy} {p : Policy} :
    p ∈ uniquePolicies policies ↔ p ∈ policies := by
  induction policies with
  | nil => rfl
  | cons q rest ih =>
    rw [uniquePolicies, List.mem_cons, List.mem_filter, decide_eq_true_eq, ih, List.mem_cons]
    constructor
    · rintro (h | ⟨h, -⟩)
      · exact .inl h
      · exact .inr h
    · rintro (h | h)
      · exact .inl h
      · by_cases e : shardName p = shardName q
        · exact .inl (shardName_injective e)
        · exact .inr ⟨h, e⟩

theorem uniquePolicies_nodup (policies : List Policy) : (uniquePolicies policies).Nodup := by
  induction policies with
  | nil => exact List.nodup_nil
  | cons q rest ih =>
    refine List.nodup_cons.mpr ⟨fun h => ?_, ih.filter _⟩
    exact of_decide_eq_true (List.mem_filter.mp h).2 rfl

/-- `mapUsageShards`: any call that throws rejects the whole read. -/
def mapUsageShards {α : Type} (policies : List Policy) (fetchShard : Policy → Answer α) : Answer (List α) :=
  (uniquePolicies policies).mapM fetchShard

/-! ## 5. Bindings -/

def UsageGroupBy.text : UsageGroupBy → String
  | .model => "model"
  | .provider => "provider"
  | .key => "key"

/-- The filters that are set, in the order of their names. -/
def UsageFilters.json (filters : UsageFilters) : Json :=
  .obj ([("model", filters.model), ("provider", filters.provider), ("key", filters.key),
    ("status", filters.status), ("costClass", filters.costClass),
    ("lane", filters.lane)].filterMap fun f => f.2.map fun value => (f.1, .str value))

/-- `cursorBinding`, with the digest of the text. -/
def cursorBinding (digest : String → String) (principal : String) (policies : List Policy)
    (query : ParsedUsageQuery) : String :=
  let scope := (policies.map Policy.json).mergeSort fun a b =>
    compareUsageIds (String.ofList (render a)) (String.ofList (render b)) ≤ 0
  digest (String.ofList (render (.arr [.str principal, .arr scope, .int query.range.rangeFrom,
    .int query.range.rangeTo, .str query.range.timezone, .str query.groupBy.text,
    query.filters.json])))

end ClawRouter.Report
