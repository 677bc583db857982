/-
  Subject:   One report out of many shards (`safeSum`, `addMetrics`, `addCost`, `mergeUsageReports`
             of src/worker/usage-report.ts).

  Every shard reports its totals, its buckets and its first 101 groups; the merge adds them up row
  by row, throws where a sum is no safe integer any more, and keeps the first 100 groups.

  * **`sharded_report_exact`**: the merge is the report over all the events, or throws.
-/
import ClawRouter.Lib.Keyset
import ClawRouter.Lib.Tally
import ClawRouter.Report.Request

namespace ClawRouter.Report

open Js Fallible Keyed Grouped OrderBy Keyset Tally

/-! ## 1. The merge -/

def usageMetricKeys : List UsageMetric :=
  [.calls, .generationCalls, .utilityCalls, .successfulCalls, .errorCalls, .deniedCalls,
    .inputTokens, .outputTokens, .cachedInputTokens, .cacheWriteInputTokens,
    .reasoningOutputTokens, .inputReportedCalls, .outputReportedCalls, .cacheReadReportedCalls,
    .cacheWriteReportedCalls, .reasoningReportedCalls]

abbrev UsageMetrics := UsageMetric → Int

def emptyUsageMetrics : UsageMetrics := fun _ => 0

def usageRangeTooLarge : HttpError :=
  ⟨422, "usage_range_too_large",
    "usage totals exceed exact numeric bounds; choose a narrower range or filter"⟩

def isSafe (n : Int) : Bool := -maxSafeInteger ≤ n && n ≤ maxSafeInteger

def safeSum (a b : Int) : Answer Int := do
  let value := a + b
  require (isSafe a && isSafe b && 0 ≤ a && 0 ≤ b && isSafe value) usageRangeTooLarge
  return value

def addMetrics (target source : UsageMetrics) : Answer UsageMetrics :=
  usageMetricKeys.foldlM (fun target key => do
    let value ← safeSum (target key) (source key)
    return fun k => if k = key then value else target k) target

/-- The cost of a class. -/
structure UsageCostSummary where
  lane : UsageCostLane
  costClass : UsageCostClass
  calls : Int
  amountMicros : Int
  deriving DecidableEq

abbrev CostKey := UsageCostLane × UsageCostClass

def UsageCostSummary.key (cost : UsageCostSummary) : CostKey := (cost.lane, cost.costClass)

def UsageCostSummary.add (cost : UsageCostSummary) (row : UsageAggregateRow) : Answer UsageCostSummary := do
  let calls ← safeSum cost.calls (row.counts .calls)
  let amountMicros ← safeSum cost.amountMicros (row.counts .amountMicros)
  return ⟨cost.lane, cost.costClass, calls, amountMicros⟩

def addCost (target : List UsageCostSummary) (row : UsageAggregateRow) : Answer (List UsageCostSummary) :=
  tally UsageCostSummary.key (fun k => ⟨k.1, k.2, 0, 0⟩) UsageCostSummary.add row.key.2 row target

/-- The counts and the costs. -/
structure UsageSummary where
  metrics : UsageMetrics
  costs : List UsageCostSummary

def UsageSummary.empty : UsageSummary := ⟨emptyUsageMetrics, []⟩

def UsageSummary.addRow (summary : UsageSummary) (row : UsageAggregateRow) : Answer UsageSummary := do
  let metrics ← addMetrics summary.metrics row.counts
  let costs ← addCost summary.costs row
  return ⟨metrics, costs⟩

/-- What a bucket counts. -/
structure UsageReportBucket where
  bucket : UsageBucket
  summary : UsageSummary

/-- What a group counts. -/
structure UsageReportGroup where
  value : Option String
  summary : UsageSummary

/-- A report. -/
structure PersonalUsageReport where
  range : UsageReportRange
  groupBy : UsageGroupBy
  summary : UsageSummary
  groups : List UsageReportGroup
  buckets : List UsageReportBucket
  groupsTruncated : Bool
  generatedAt : Int

def UsageReportGroup.addRow (group : UsageReportGroup) (row : UsageAggregateRow) : Answer UsageReportGroup :=
  (group.summary.addRow row).map fun summary => { group with summary := summary }

def addToBucket (row : UsageAggregateRow) : Int → List UsageReportBucket → Answer (List UsageReportBucket)
  | _, [] => .ok []
  | i, b :: buckets =>
    if i = 0 then (b.summary.addRow row).map fun summary => { b with summary := summary } :: buckets
    else (addToBucket row (i - 1) buckets).map fun buckets => b :: buckets

def mergeRow (report : PersonalUsageReport) (row : UsageAggregateRow) : Answer PersonalUsageReport :=
  match row.key.1 with
  | .total => (report.summary.addRow row).map fun summary => { report with summary := summary }
  | .bucket i => (addToBucket row i report.buckets).map fun buckets =>
    { report with buckets := buckets }
  | .group value => (tally UsageReportGroup.value (fun v => ⟨v, .empty⟩) UsageReportGroup.addRow
      value row report.groups).map fun groups => { report with groups := groups }

/-- The comparison of the values of two groups. -/
def compareGroups (a b : Option String) : Int :=
  match a, b with
  | none, none => 0
  | none, some _ => -1
  | some _, none => 1
  | some a, some b => compareUsageIds a b

def PersonalUsageReport.cut (report : PersonalUsageReport) : PersonalUsageReport :=
  { report with
    groupsTruncated := report.groupsTruncated || 100 < report.groups.length
    groups := (report.groups.mergeSort fun a b => compareGroups a.value b.value ≤ 0).take 100 }

def emptyReport (query : ParsedUsageQuery) (groupsTruncated : Bool) (now : Int) : PersonalUsageReport where
  range :=
  query.range
  groupBy := query.groupBy
  summary := .empty
  groups := []
  buckets := query.range.buckets.map fun bucket => ⟨bucket, .empty⟩
  groupsTruncated := groupsTruncated
  generatedAt := now

def mergeUsageReports (shards : List UsageReportShard) (query : ParsedUsageQuery) (now : Int) :
    Answer PersonalUsageReport := do
  let report ← (shards.flatMap (·.rows)).foldlM mergeRow
    (emptyReport query (shards.any (·.groupsTruncated)) now)
  return report.cut

/-! ## 2. Sums -/

section Sums

variable {a b c : Int} {e : HttpError}

theorem safeSum_ok : safeSum a b = .ok c ↔ (0 ≤ a ∧ 0 ≤ b ∧ a + b ≤ maxSafeInteger) ∧ c = a + b := by
  unfold safeSum isSafe
  simp only [bind_ok, require_ok, pure_ok, Bool.and_eq_true, decide_eq_true_eq]
  constructor
  · rintro ⟨_, h, rfl⟩
    exact ⟨by omega, rfl⟩
  · rintro ⟨h, rfl⟩
    exact ⟨(), by omega, rfl⟩

theorem safeSum_error (ha : 0 ≤ a) (hb : 0 ≤ b) :
    safeSum a b = .error e ↔ maxSafeInteger < a + b ∧ e = usageRangeTooLarge := by
  cases h : safeSum a b with
  | ok c =>
    have := (safeSum_ok.mp h).1.2.2
    constructor
    · intro h'
      cases h'
    · intro h'
      omega
  | error e' =>
    have he : e' = usageRangeTooLarge := by
      unfold safeSum require at h
      dsimp only at h
      split at h
      · cases h
      · cases h
        rfl
    have hlt : maxSafeInteger < a + b := by
      by_contra hle
      have hok := safeSum_ok.mpr ⟨⟨ha, hb, by omega⟩, rfl⟩
      rw [h] at hok
      cases hok
    constructor
    · intro h'
      cases h'
      exact ⟨hlt, he⟩
    · rintro ⟨-, rfl⟩
      rw [he]

def total (rows : List UsageAggregateRow) (m : UsageMetric) : Int := (rows.map fun row => row.counts m).sum

theorem total_append (rows : List UsageAggregateRow) (row : UsageAggregateRow) (m : UsageMetric) :
    total (rows ++ [row]) m = total rows m + row.counts m := by
  unfold total
  rw [List.map_append, List.sum_append, List.map_singleton, List.sum_singleton]

def Natural (rows : List UsageAggregateRow) : Prop := ∀ row ∈ rows, ∀ m, 0 ≤ row.counts m

theorem total_nonneg {rows : List UsageAggregateRow} (h : Natural rows) (m : UsageMetric) :
    0 ≤ total rows m := by
  refine List.sum_nonneg fun x hx => ?_
  obtain ⟨row, hrow, rfl⟩ := List.mem_map.mp hx
  exact h row hrow m

theorem total_filter_le {rows : List UsageAggregateRow} (h : Natural rows)
    (p : UsageAggregateRow → Bool) (m : UsageMetric) : total (rows.filter p) m ≤ total rows m := by
  induction rows with
  | nil => exact Int.le_refl _
  | cons row rows ih =>
    have hrow := h row List.mem_cons_self m
    have ih := ih fun r hr => h r (List.mem_cons_of_mem _ hr)
    have hcons : total (row :: rows) m = row.counts m + total rows m := List.sum_cons
    cases hp : p row with
    | false =>
      rw [List.filter_cons_of_neg (by rw [hp]; exact Bool.false_ne_true)]
      omega
    | true =>
      rw [List.filter_cons_of_pos hp]
      have : total (row :: rows.filter p) m = row.counts m + total (rows.filter p) m := List.sum_cons
      omega

theorem total_append_le {rows rows' : List UsageAggregateRow} (h : Natural rows')
    (m : UsageMetric) : total rows m ≤ total (rows ++ rows') m := by
  have := total_nonneg h m
  unfold total at this ⊢
  rw [List.map_append, List.sum_append]
  omega

end Sums

/-! ## 3. Metrics and costs of rows -/

section Summaries

variable {rows : List UsageAggregateRow} {row : UsageAggregateRow} {e : HttpError}

/-- Every sum over the rows is a safe integer. -/
structure Fits (rows : List UsageAggregateRow) : Prop where
  metrics : ∀ m ∈ usageMetricKeys, total rows m ≤ maxSafeInteger
  costs : ∀ k : CostKey, total (rows.filter fun r => r.key.2 = k) .amountMicros ≤ maxSafeInteger

theorem zero_le_safe : (0 : Int) ≤ maxSafeInteger := by decide

theorem fits_nil : Fits [] where
  metrics := fun _ _ => zero_le_safe
  costs := fun _ => zero_le_safe

theorem Fits.mono {rows' : List UsageAggregateRow} (h : Natural rows')
    (hfits : Fits (rows ++ rows')) : Fits rows where
  metrics := fun m hm => (total_append_le h m).trans (hfits.metrics m hm)
  costs := fun k => by
    have hk := hfits.costs k
    rw [List.filter_append] at hk
    refine (total_append_le (fun r hr => h r (List.mem_filter.mp hr).1) _).trans hk

structure CostOf (cost : UsageCostSummary) (rows : List UsageAggregateRow) : Prop where
  calls : cost.calls = total rows .calls
  amountMicros : cost.amountMicros = total rows .amountMicros

/-- The metrics and the costs of some rows. -/
structure UsageSummary.Describes (summary : UsageSummary) (rows : List UsageAggregateRow) :
    Prop where
  metrics : ∀ m ∈ usageMetricKeys, summary.metrics m = total rows m
  costs : Tallied UsageCostSummary.key (fun r : UsageAggregateRow => r.key.2) CostOf
    summary.costs rows
  fits : Fits rows

theorem describes_empty : UsageSummary.empty.Describes [] where
  metrics := fun _ _ => rfl
  costs := ⟨List.nodup_nil, fun _ => iff_of_false List.not_mem_nil fun ⟨_, hin, _⟩ =>
    List.not_mem_nil hin, List.forall_mem_nil _⟩
  fits := fits_nil

theorem addKeys_ok {keys : List UsageMetric} (hkeys : keys.Nodup) {target source target' : UsageMetrics} :
    keys.foldlM (fun target key => do
      let value ← safeSum (target key) (source key)
      return fun k => if k = key then value else target k) target = Except.ok target' ↔
      (∀ m ∈ keys, 0 ≤ target m ∧ 0 ≤ source m ∧ target m + source m ≤ maxSafeInteger) ∧
        target' = fun m => if m ∈ keys then target m + source m else target m := by
  induction keys generalizing target with
  | nil =>
    rw [List.foldlM_nil, pure_ok]
    constructor
    · rintro rfl
      exact ⟨nofun, rfl⟩
    · rintro ⟨-, rfl⟩
      rfl
  | cons key keys ih =>
    obtain ⟨hkey, hnodup⟩ := List.nodup_cons.mp hkeys
    have hne : ∀ m ∈ keys, m ≠ key := fun m hm e => hkey (e ▸ hm)
    have hlater : ∀ value : Int, (fun m => if m ∈ keys then
          (if m = key then value else target m) + source m
        else if m = key then value else target m) =
        fun m => if m ∈ keys then target m + source m else if m = key then value else target m := by
      intro value
      funext m
      by_cases hm : m ∈ keys
      · rw [if_pos hm, if_pos hm, if_neg (hne m hm)]
      · rw [if_neg hm, if_neg hm]
    have hall : (fun m => if m ∈ keys then target m + source m
        else if m = key then target key + source key else target m) =
        fun m => if m ∈ key :: keys then target m + source m else target m := by
      funext m
      by_cases hm : m ∈ keys
      · rw [if_pos hm, if_pos (List.mem_cons_of_mem _ hm)]
      · by_cases e : m = key
        · rw [if_neg hm, if_pos e, if_pos (List.mem_cons.mpr (.inl e)), e]
        · rw [if_neg hm, if_neg e, if_neg (by rw [List.mem_cons, not_or]; exact ⟨e, hm⟩)]
    rw [List.foldlM_cons]
    simp only [bind_ok, pure_ok, safeSum_ok]
    constructor
    · rintro ⟨_, ⟨value, ⟨hsafe, rfl⟩, rfl⟩, hrest⟩
      obtain ⟨hkeys, rfl⟩ := (ih hnodup).mp hrest
      refine ⟨fun m hm => ?_, (hlater _).trans hall⟩
      rcases List.mem_cons.mp hm with rfl | hm
      · exact hsafe
      · have := hkeys m hm
        rwa [if_neg (hne m hm)] at this
    · rintro ⟨hsafe, rfl⟩
      refine ⟨_, ⟨_, ⟨hsafe key List.mem_cons_self, rfl⟩, rfl⟩, (ih hnodup).mpr ⟨?_, ?_⟩⟩
      · intro m hm
        rw [if_neg (hne m hm)]
        exact hsafe m (List.mem_cons_of_mem _ hm)
      · exact ((hlater _).trans hall).symm

theorem addKeys_error {keys : List UsageMetric} {target source : UsageMetrics}
    (hkeys : keys.Nodup) (htarget : ∀ m ∈ keys, 0 ≤ target m) (hsource : ∀ m, 0 ≤ source m)
    (h : keys.foldlM (fun target key => do
      let value ← safeSum (target key) (source key)
      return fun k => if k = key then value else target k) target = Except.error e) :
    e = usageRangeTooLarge := by
  induction keys generalizing target with
  | nil => cases h
  | cons key keys ih =>
    rw [List.foldlM_cons] at h
    cases hsum : safeSum (target key) (source key) with
    | error e' =>
      rw [hsum] at h
      cases h
      exact ((safeSum_error (htarget key List.mem_cons_self) (hsource key)).mp hsum).2
    | ok value =>
      rw [hsum] at h
      obtain ⟨hkey, hnodup⟩ := List.nodup_cons.mp hkeys
      refine ih hnodup (fun m hm => ?_) h
      rw [if_neg fun (e : m = key) => hkey (e ▸ hm)]
      exact htarget m (List.mem_cons_of_mem _ hm)

theorem usageMetricKeys_nodup : usageMetricKeys.Nodup := by decide

theorem addMetrics_ok {target source target' : UsageMetrics} : addMetrics target source = .ok target' ↔
      (∀ m ∈ usageMetricKeys, 0 ≤ target m ∧ 0 ≤ source m ∧ target m + source m ≤ maxSafeInteger) ∧
        target' = fun m => if m ∈ usageMetricKeys then target m + source m else target m :=
  addKeys_ok usageMetricKeys_nodup

theorem costAdd_ok {cost cost' : UsageCostSummary} : cost.add row = .ok cost' ↔
      (0 ≤ cost.calls ∧ 0 ≤ row.counts .calls ∧ cost.calls + row.counts .calls ≤ maxSafeInteger) ∧
      (0 ≤ cost.amountMicros ∧ 0 ≤ row.counts .amountMicros ∧
        cost.amountMicros + row.counts .amountMicros ≤ maxSafeInteger) ∧
      cost' = ⟨cost.lane, cost.costClass, cost.calls + row.counts .calls,
        cost.amountMicros + row.counts .amountMicros⟩ := by
  unfold UsageCostSummary.add
  simp only [bind_ok, pure_ok, safeSum_ok]
  constructor
  · rintro ⟨_, ⟨h1, rfl⟩, _, ⟨h2, rfl⟩, rfl⟩
    exact ⟨h1, h2, rfl⟩
  · rintro ⟨h1, h2, rfl⟩
    exact ⟨_, ⟨h1, rfl⟩, _, ⟨h2, rfl⟩, rfl⟩

theorem costAdd_error {cost : UsageCostSummary} (hcalls : 0 ≤ cost.calls)
    (hamount : 0 ≤ cost.amountMicros) (hrow : ∀ m, 0 ≤ row.counts m) (h : cost.add row = .error e) :
    e = usageRangeTooLarge ∧ (maxSafeInteger < cost.calls + row.counts .calls ∨
      maxSafeInteger < cost.amountMicros + row.counts .amountMicros) := by
  rcases bind_error.mp h with h | ⟨calls, -, h⟩
  · obtain ⟨hlarge, rfl⟩ := (safeSum_error hcalls (hrow _)).mp h
    exact ⟨rfl, .inl hlarge⟩
  · rcases bind_error.mp h with h | ⟨amount, -, h⟩
    · obtain ⟨hlarge, rfl⟩ := (safeSum_error hamount (hrow _)).mp h
      exact ⟨rfl, .inr hlarge⟩
    · cases h

theorem costOf_add {cost cost' : UsageCostSummary} {rows : List UsageAggregateRow}
    (h : CostOf cost rows) (hadd : cost.add row = .ok cost') :
    cost'.key = cost.key ∧ CostOf cost' (rows ++ [row]) := by
  obtain ⟨-, -, rfl⟩ := costAdd_ok.mp hadd
  refine ⟨rfl, ?_, ?_⟩
  · rw [total_append, ← h.calls]
  · rw [total_append, ← h.amountMicros]

theorem filter_key_append (rows : List UsageAggregateRow) (row : UsageAggregateRow) :
    (rows ++ [row]).filter (fun r => r.key.2 = row.key.2) = rows.filter
      (fun r => r.key.2 = row.key.2) ++ [row] := by
  rw [List.filter_append, List.filter_singleton, decide_eq_true (rfl : row.key.2 = row.key.2)]
  rfl

theorem describes_addRow {summary summary' : UsageSummary} (h : summary.Describes rows)
    (hadd : summary.addRow row = .ok summary') : summary'.Describes (rows ++ [row]) := by
  unfold UsageSummary.addRow at hadd
  simp only [bind_ok, pure_ok] at hadd
  obtain ⟨metrics, hmetrics, costs, hcosts, rfl⟩ := hadd
  obtain ⟨hsafe, rfl⟩ := addMetrics_ok.mp hmetrics
  have htallied : Tallied UsageCostSummary.key (fun r : UsageAggregateRow => r.key.2) CostOf costs
    (rows ++ [row]) :=
    tallied_tally (fun _ => ⟨rfl, rfl, rfl⟩) (fun _ _ _ hR htake => costOf_add hR htake) h.costs hcosts
  refine ⟨fun m hm => ?_, htallied, fun m hm => ?_, fun k => ?_⟩
  · dsimp only
    rw [if_pos hm, total_append, h.metrics m hm]
  · rw [total_append, ← h.metrics m hm]
    exact (hsafe m hm).2.2
  · by_cases hk : row.key.2 = k
    · -- the class of the row has a summary, whose amount was checked
      subst hk
      rw [filter_key_append, total_append]
      rcases tally_cases hcosts with ⟨before, cost, after, cost', hsplit, hkey, htake, -⟩ |
        ⟨hnone, cost', htake, -⟩
      · have hcost := h.costs.holds cost (by
          rw [hsplit]
          exact List.mem_append_right before List.mem_cons_self)
        rw [hkey] at hcost
        rw [← hcost.amountMicros]
        exact (costAdd_ok.mp htake).2.1.2.2
      · have hempty : rows.filter (fun r => r.key.2 = row.key.2) = [] := by
          rw [List.filter_eq_nil_iff]
          intro r hr e
          exact hnone ((h.costs.keys _).mpr ⟨r, hr, of_decide_eq_true e⟩)
        rw [hempty]
        exact (costAdd_ok.mp htake).2.1.2.2
    · rw [List.filter_append, List.filter_cons_of_neg (by rwa [decide_eq_true_eq]), List.filter_nil,
        List.append_nil]
      exact h.fits.costs k

theorem addRow_error {summary : UsageSummary} (h : summary.Describes rows)
    (hrows : Natural (rows ++ [row])) (hadd : summary.addRow row = .error e) :
    e = usageRangeTooLarge ∧ ¬ Fits (rows ++ [row]) := by
  have hrow : ∀ m, 0 ≤ row.counts m := hrows row (List.mem_append_right _ (List.mem_singleton_self row))
  have hdone : Natural rows := fun r hr => hrows r (List.mem_append_left _ hr)
  have hzero : ∀ m ∈ usageMetricKeys, 0 ≤ summary.metrics m := by
    intro m hm
    rw [h.metrics m hm]
    exact total_nonneg hdone m
  rcases bind_error.mp hadd with hmetrics | ⟨metrics, -, hadd⟩
  · refine ⟨addKeys_error usageMetricKeys_nodup hzero hrow hmetrics, fun hfits => ?_⟩
    have hok := addMetrics_ok.mpr ⟨fun m hm => ⟨hzero m hm, hrow m, ?_⟩, rfl⟩
    · rw [hmetrics] at hok
      cases hok
    · have := hfits.metrics m hm
      rwa [total_append, ← h.metrics m hm] at this
  · rcases bind_error.mp hadd with hcosts | ⟨costs, -, hadd⟩
    · obtain ⟨cost, hcost, htake⟩ := tally_error (fun _ => ⟨rfl, rfl⟩) h.costs hcosts
      have hclass : Natural (rows.filter fun r => r.key.2 = row.key.2) := fun r hr =>
        hdone r (List.mem_filter.mp hr).1
      have hcalls : 0 ≤ cost.calls := by
        rw [hcost.calls]
        exact total_nonneg hclass _
      have hamount : 0 ≤ cost.amountMicros := by
        rw [hcost.amountMicros]
        exact total_nonneg hclass _
      obtain ⟨rfl, hlarge⟩ := costAdd_error hcalls hamount hrow htake
      refine ⟨rfl, fun hfits => ?_⟩
      rcases hlarge with hlarge | hlarge
      · have hall := hfits.metrics .calls (by decide)
        have hle := total_filter_le hdone (fun r => decide (r.key.2 = row.key.2)) .calls
        rw [total_append] at hall
        rw [hcost.calls] at hlarge
        omega
      · have hall := hfits.costs row.key.2
        rw [filter_key_append, total_append, ← hcost.amountMicros] at hall
        omega
    · cases hadd

end Summaries

/-! ## 4. A run of the merge -/

section Run

variable {query : ParsedUsageQuery} {truncated : Bool} {now : Int}
  {report report' : PersonalUsageReport} {rows : List UsageAggregateRow} {row : UsageAggregateRow}
  {e : HttpError}

def ofDimension (rows : List UsageAggregateRow) (d : Dimension) : List UsageAggregateRow :=
  rows.filter fun r => r.key.1 = d

theorem ofDimension_append (rows rows' : List UsageAggregateRow) (d : Dimension) :
    ofDimension (rows ++ rows') d = ofDimension rows d ++ ofDimension rows' d :=
  List.filter_append rows rows'

theorem ofDimension_self (row : UsageAggregateRow) : ofDimension [row] row.key.1 = [row] := by
  unfold ofDimension
  rw [List.filter_singleton, decide_eq_true (rfl : row.key.1 = row.key.1)]
  rfl

theorem ofDimension_other {d : Dimension} (h : row.key.1 ≠ d) : ofDimension [row] d = [] := by
  unfold ofDimension
  rw [List.filter_singleton, decide_eq_false h]
  rfl

theorem ofDimension_natural (h : Natural rows) (d : Dimension) : Natural (ofDimension rows d) :=
  fun r hr => h r (List.mem_filter.mp hr).1

def isGroup (row : UsageAggregateRow) : Bool :=
  match row.key.1 with
  | .group _ => true
  | _ => false

def groupValue (row : UsageAggregateRow) : Option String :=
  match row.key.1 with
  | .group value => value
  | _ => none

theorem ofDimension_group (rows : List UsageAggregateRow) (value : Option String) :
    (rows.filter isGroup).filter (fun r => groupValue r = value) = ofDimension rows (.group value) := by
  rw [List.filter_filter]
  refine List.filter_congr fun r _ => ?_
  unfold isGroup groupValue
  cases r.key.1 with
  | total | bucket i | group v => simp

def GroupOf (group : UsageReportGroup) (rows : List UsageAggregateRow) : Prop := group.summary.Describes rows

theorem groupOf_empty (value : Option String) : GroupOf ⟨value, .empty⟩ [] := describes_empty

/-- Every part of the report describes the rows of its dimension. -/
structure Merged (query : ParsedUsageQuery) (truncated : Bool) (now : Int)
    (report : PersonalUsageReport) (rows : List UsageAggregateRow) : Prop where
  frame : report.range = query.range ∧ report.groupBy = query.groupBy ∧
    report.groupsTruncated = truncated ∧ report.generatedAt = now
  summary : report.summary.Describes (ofDimension rows .total)
  ranges : report.buckets.map (·.bucket) = query.range.buckets
  buckets : ∀ (i : Nat) b, report.buckets[i]? = some b →
    b.summary.Describes (ofDimension rows (.bucket i))
  groups : Tallied UsageReportGroup.value groupValue GroupOf report.groups (rows.filter isGroup)

theorem merged_empty : Merged query truncated now (emptyReport query truncated now) [] where
  frame := ⟨rfl, rfl, rfl, rfl⟩
  summary := describes_empty
  ranges := by
    show (query.range.buckets.map _).map _ = _
    rw [List.map_map]
    exact List.map_id _
  buckets := fun i b hb => by
    have hb : (query.range.buckets.map fun bucket =>
      UsageReportBucket.mk bucket .empty)[i]? = some b := hb
    rw [List.getElem?_map] at hb
    obtain ⟨bucket, -, rfl⟩ := Option.map_eq_some_iff.mp hb
    exact describes_empty
  groups := ⟨List.nodup_nil, fun _ => iff_of_false List.not_mem_nil fun ⟨_, hin, _⟩ =>
    List.not_mem_nil hin, List.forall_mem_nil _⟩

theorem addToBucket_ok {i : Int} {buckets buckets' : List UsageReportBucket}
    (h : addToBucket row i buckets = .ok buckets') : buckets'.map (·.bucket) = buckets.map (·.bucket) ∧
      ∀ (j : Nat) b', buckets'[j]? = some b' → ∃ b, buckets[j]? = some b ∧
        (((j : Int) = i ∧ b.summary.addRow row = .ok b'.summary) ∨ ((j : Int) ≠ i ∧ b' = b)) := by
  induction buckets generalizing i buckets' with
  | nil =>
    cases h
    exact ⟨rfl, fun j b' hb => by cases hb⟩
  | cons b buckets ih =>
    unfold addToBucket at h
    by_cases hi : i = 0
    · rw [if_pos hi] at h
      obtain ⟨summary, hadd, rfl⟩ := map_ok.mp h
      refine ⟨rfl, fun j b' hb => ?_⟩
      cases j with
      | zero =>
        cases hb
        exact ⟨b, rfl, .inl ⟨hi.symm, hadd⟩⟩
      | succ j => exact ⟨b', hb, .inr ⟨by omega, rfl⟩⟩
    · rw [if_neg hi] at h
      obtain ⟨rest, hrest, rfl⟩ := map_ok.mp h
      obtain ⟨hmap, hcells⟩ := ih hrest
      refine ⟨by rw [List.map_cons, List.map_cons, hmap], fun j b' hb => ?_⟩
      cases j with
      | zero =>
        cases hb
        exact ⟨b, rfl, .inr ⟨fun e => hi (by omega), rfl⟩⟩
      | succ j =>
        obtain ⟨c, hc, hcase⟩ := hcells j b' hb
        refine ⟨c, hc, hcase.imp (fun ⟨e, hadd⟩ => ⟨by omega, hadd⟩) fun ⟨e, hb⟩ =>
          ⟨fun e' => e (by omega), hb⟩⟩

theorem addToBucket_error {i : Int} {buckets : List UsageReportBucket}
    (h : addToBucket row i buckets = .error e) :
    ∃ (j : Nat) (b : UsageReportBucket), buckets[j]? = some b ∧ (j : Int) = i ∧
      b.summary.addRow row = .error e := by
  induction buckets generalizing i with
  | nil => cases h
  | cons b buckets ih =>
    unfold addToBucket at h
    by_cases hi : i = 0
    · rw [if_pos hi] at h
      exact ⟨0, b, rfl, hi.symm, map_error.mp h⟩
    · rw [if_neg hi] at h
      obtain ⟨j, c, hc, hj, hadd⟩ := ih (map_error.mp h)
      exact ⟨j + 1, c, hc, by omega, hadd⟩

theorem groupAdd_ok {group group' : UsageReportGroup} {rows : List UsageAggregateRow}
    (h : GroupOf group rows) (hadd : group.addRow row = .ok group') :
    group'.value = group.value ∧ GroupOf group' (rows ++ [row]) := by
  obtain ⟨summary, hsummary, rfl⟩ := map_ok.mp hadd
  exact ⟨rfl, describes_addRow h hsummary⟩

section

variable (h : Merged query truncated now report rows)
include h

theorem merge_step (hstep : mergeRow report row = .ok report') :
    Merged query truncated now report' (rows ++ [row]) := by
  obtain ⟨hframe, hsummary, hranges, hbuckets, hgroups⟩ := h
  have hgroup : isGroup row = false → (rows ++ [row]).filter isGroup = rows.filter isGroup := by
    intro hno
    rw [List.filter_append, List.filter_singleton, hno]
    exact List.append_nil _
  unfold mergeRow at hstep
  cases hd : row.key.1 with
  | total =>
    rw [hd] at hstep
    obtain ⟨summary, hadd, rfl⟩ := map_ok.mp hstep
    refine ⟨hframe, ?_, hranges, fun i b hb => ?_, ?_⟩
    · rw [ofDimension_append, ← hd, ofDimension_self, hd]
      exact describes_addRow hsummary hadd
    · rw [ofDimension_append, ofDimension_other (by rw [hd]; exact nofun), List.append_nil]
      exact hbuckets i b hb
    · rw [hgroup (by unfold isGroup; rw [hd])]
      exact hgroups
  | bucket k =>
    rw [hd] at hstep
    obtain ⟨buckets, hadd, rfl⟩ := map_ok.mp hstep
    obtain ⟨hmap, hcells⟩ := addToBucket_ok hadd
    refine ⟨hframe, ?_, hmap.trans hranges, fun i b hb => ?_, ?_⟩
    · rw [ofDimension_append, ofDimension_other (by rw [hd]; exact nofun), List.append_nil]
      exact hsummary
    · rw [ofDimension_append]
      obtain ⟨c, hc, ⟨hi, hadd⟩ | ⟨hi, rfl⟩⟩ := hcells i b hb
      · rw [hi, ← hd, ofDimension_self, hd, ← hi]
        exact describes_addRow (hbuckets i c hc) hadd
      · have hne : row.key.1 ≠ .bucket i := by
          rw [hd]
          intro e
          exact hi (Dimension.bucket.inj e).symm
        rw [ofDimension_other hne, List.append_nil]
        exact hbuckets i b hc
    · rw [hgroup (by unfold isGroup; rw [hd])]
      exact hgroups
  | group value =>
    rw [hd] at hstep
    obtain ⟨groups, hadd, rfl⟩ := map_ok.mp hstep
    refine ⟨hframe, ?_, hranges, fun i b hb => ?_, ?_⟩
    · rw [ofDimension_append, ofDimension_other (by rw [hd]; exact nofun), List.append_nil]
      exact hsummary
    · rw [ofDimension_append, ofDimension_other (by rw [hd]; exact nofun), List.append_nil]
      exact hbuckets i b hb
    · have hvalue : groupValue row = value := by
        unfold groupValue
        rw [hd]
      have his : isGroup row = true := by
        unfold isGroup
        rw [hd]
      rw [← hvalue] at hadd
      rw [List.filter_append, List.filter_singleton, his]
      exact tallied_tally (fun value => ⟨rfl, groupOf_empty value⟩)
        (fun _ _ _ hR htake => groupAdd_ok hR htake) hgroups hadd

theorem merge_step_error (hrows : Natural (rows ++ [row])) (hstep : mergeRow report row = .error e) :
    e = usageRangeTooLarge ∧ ∃ d, ¬ Fits (ofDimension (rows ++ [row]) d) := by
  have hsplit : ofDimension (rows ++ [row]) row.key.1 = ofDimension rows row.key.1 ++ [row] := by
    rw [ofDimension_append, ofDimension_self]
  have hnatural := ofDimension_natural hrows row.key.1
  rw [hsplit] at hnatural
  unfold mergeRow at hstep
  suffices hadd : ∃ summary : UsageSummary, summary.Describes (ofDimension rows row.key.1) ∧
      summary.addRow row = .error e by
    obtain ⟨summary, hsummary, hadd⟩ := hadd
    obtain ⟨he, hfits⟩ := addRow_error hsummary hnatural hadd
    exact ⟨he, row.key.1, by rwa [hsplit]⟩
  cases hd : row.key.1 with
  | total =>
    rw [hd] at hstep
    exact ⟨report.summary, h.summary, map_error.mp hstep⟩
  | bucket k =>
    rw [hd] at hstep
    obtain ⟨j, b, hb, hj, hadd⟩ := addToBucket_error (map_error.mp hstep)
    rw [← hj]
    exact ⟨b.summary, h.buckets j b hb, hadd⟩
  | group value =>
    rw [hd] at hstep
    have hvalue : groupValue row = value := by
      unfold groupValue
      rw [hd]
    have hstep := map_error.mp hstep
    rw [← hvalue] at hstep
    obtain ⟨group, hgroup, hadd⟩ := tally_error groupOf_empty h.groups hstep
    rw [ofDimension_group, hvalue] at hgroup
    exact ⟨group.summary, hgroup, map_error.mp hadd⟩

theorem merge_run {later : List UsageAggregateRow}
    (hrows : Natural (rows ++ later)) : (∀ report', later.foldlM mergeRow report = .ok report' →
      Merged query truncated now report' (rows ++ later)) ∧ (∀ e, later.foldlM mergeRow report = .error e →
      e = usageRangeTooLarge ∧ ∃ d, ¬ Fits (ofDimension (rows ++ later) d)) := by
  induction later generalizing report rows with
  | nil =>
    rw [List.append_nil]
    exact ⟨fun report' e => pure_ok.mp e ▸ h, fun e he => by cases he⟩
  | cons row later ih =>
    have hsplit : rows ++ row :: later = (rows ++ [row]) ++ later := by
      rw [List.append_assoc, List.singleton_append]
    rw [hsplit] at hrows ⊢
    have hdone : Natural (rows ++ [row]) := fun r hr => hrows r (List.mem_append_left _ hr)
    rw [List.foldlM_cons]
    constructor
    · intro report' hrun
      obtain ⟨middle, hstep, hrest⟩ := bind_ok.mp hrun
      exact (ih (merge_step h hstep) hrows).1 report' hrest
    · intro e hrun
      rcases bind_error.mp hrun with hstep | ⟨middle, hstep, hrest⟩
      · obtain ⟨he, d, hfits⟩ := merge_step_error h hdone hstep
        refine ⟨he, d, fun hall => hfits ?_⟩
        rw [ofDimension_append _ later] at hall
        exact hall.mono (ofDimension_natural (fun r hr => hrows r (List.mem_append_right _ hr)) d)
      · exact (ih (merge_step h hstep) hrows).2 e hrest

end

end Run

/-! ## 5. Rows and their events -/

section Events

variable {rows : List UsageAggregateRow} {events events' : List ScalarRow}

def costKey (event : ScalarRow) : CostKey := (event.lane, event.costClass)

def metricSum (events : List ScalarRow) (m : UsageMetric) : Int :=
  (events.map fun event => metricExpressions event m).sum

structure CostReports (cost : UsageCostSummary) (events : List ScalarRow) : Prop where
  calls : cost.calls = metricSum events .calls
  amountMicros : cost.amountMicros = metricSum events .amountMicros

/-- **The metrics and the costs of some events**: every metric is its sum over them, and each lane
    and class that occurs has one summary, of its own events. -/
structure UsageSummary.Reports (summary : UsageSummary) (events : List ScalarRow) : Prop where
  metrics : ∀ m ∈ usageMetricKeys, summary.metrics m = metricSum events m
  costs : Tallied UsageCostSummary.key costKey CostReports summary.costs events

/-- The rows are the sums of the events. -/
structure Represents (rows : List UsageAggregateRow) (events : List ScalarRow) : Prop where
  sum : ∀ (p : CostKey → Bool) m, total (rows.filter fun r => p r.key.2) m =
    metricSum (events.filter fun e => p (costKey e)) m
  occurs : ∀ k, (∃ r ∈ rows, r.key.2 = k) ↔ ∃ e ∈ events, costKey e = k

theorem Represents.total_eq (h : Represents rows events) (m : UsageMetric) :
    total rows m = metricSum events m := by
  have hall := h.sum (fun _ => true) m
  rwa [List.filter_true, List.filter_true] at hall

theorem Represents.reports (h : Represents rows events) {summary : UsageSummary}
    (hdescribes : summary.Describes rows) : summary.Reports events where
  metrics := fun m hm => (hdescribes.metrics m hm).trans (h.total_eq m)
  costs := {
    nodup := hdescribes.costs.nodup
    keys := fun k => (hdescribes.costs.keys k).trans (h.occurs k)
    holds := fun cost hcost => by
      have hof := hdescribes.costs.holds cost hcost
      refine ⟨?_, ?_⟩
      · rw [hof.calls]
        exact h.sum (fun k => decide (k = cost.key)) _
      · rw [hof.amountMicros]
        exact h.sum (fun k => decide (k = cost.key)) _ }

theorem metricSum_perm (h : events.Perm events') (m : UsageMetric) :
    metricSum events m = metricSum events' m := (h.map _).sum_eq

theorem UsageSummary.Reports.perm {summary : UsageSummary} (h : summary.Reports events)
    (hperm : events.Perm events') : summary.Reports events' where
  metrics := fun m hm => (h.metrics m hm).trans (metricSum_perm hperm m)
  costs := {
    nodup := h.costs.nodup
    keys := fun k => by
      rw [h.costs.keys k]
      constructor
      · rintro ⟨e, he, hk⟩
        exact ⟨e, hperm.mem_iff.mp he, hk⟩
      · rintro ⟨e, he, hk⟩
        exact ⟨e, hperm.mem_iff.mpr he, hk⟩
    holds := fun cost hcost => by
      have hof := h.costs.holds cost hcost
      exact ⟨hof.calls.trans (metricSum_perm (hperm.filter _) _),
        hof.amountMicros.trans (metricSum_perm (hperm.filter _) _)⟩ }

theorem represents_nil : Represents [] [] where
  sum := fun p m => by
    rw [List.filter_nil, List.filter_nil]
    rfl
  occurs := fun k => by
    constructor
    · rintro ⟨_, h, _⟩
      cases h
    · rintro ⟨_, h, _⟩
      cases h

theorem represents_flatMap {ι : Type} {parts : List ι} {f : ι → List UsageAggregateRow}
    {g : ι → List ScalarRow} (h : ∀ i ∈ parts, Represents (f i) (g i)) :
    Represents (parts.flatMap f) (parts.flatMap g) := by
  induction parts with
  | nil => exact represents_nil
  | cons i parts ih =>
    have hi := h i List.mem_cons_self
    have hparts := ih fun j hj => h j (List.mem_cons_of_mem _ hj)
    refine ⟨fun p m => ?_, fun k => ?_⟩
    · have h1 := hi.sum p m
      have h2 := hparts.sum p m
      unfold total metricSum at h1 h2 ⊢
      rw [List.flatMap_cons, List.flatMap_cons, List.filter_append, List.filter_append,
        List.map_append, List.map_append, List.sum_append, List.sum_append, h1, h2]
    · simp only [List.flatMap_cons, List.mem_append, or_and_right, exists_or]
      exact or_congr (hi.occurs k) (hparts.occurs k)

section Aggregated

variable (request : UsageReportQuery) (part : List ScalarRow)

def expanded : List (Dimension × ScalarRow) :=
  part.flatMap fun row =>
    (dimensions request (selectedGroups request.groupBy part) row).map fun d => (d, row)

theorem aggregateReport_rows : (aggregateReport request part).rows =
    (aggregate (expanded request part) (fun r => (r.1, r.2.lane, r.2.costClass))
      fun r => metricExpressions r.2).rows := rfl

theorem dimensions_nodup (selected : List (Option String)) (row : ScalarRow) :
    (dimensions request selected row).Nodup := by
  unfold dimensions
  dsimp only
  split
  · exact List.nodup_cons.mpr ⟨by simp, List.nodup_cons.mpr ⟨by simp, List.nodup_singleton _⟩⟩
  · exact List.nodup_cons.mpr ⟨by simp, List.nodup_singleton _⟩

theorem filter_expanded (dims : ScalarRow → List Dimension) (hdims : ∀ row, (dims row).Nodup)
    (d : Dimension) (p : ScalarRow → Bool) (rows : List ScalarRow) :
    (((rows.flatMap fun row => (dims row).map fun d => (d, row)).filter fun r =>
      p r.2 && decide (r.1 = d)).map Prod.snd) = (rows.filter fun row => decide (d ∈ dims row)).filter p := by
  induction rows with
  | nil => rfl
  | cons row rows ih =>
    have hfirst : (((dims row).map fun d => (d, row)).filter fun r =>
        p r.2 && decide (r.1 = d)).map Prod.snd =
        if d ∈ dims row ∧ p row = true then [row] else [] := by
      rw [List.filter_map, List.map_map]
      have hconst : (Prod.snd ∘ fun d : Dimension => (d, row)) = fun _ => row := rfl
      rw [hconst, List.map_const']
      have hcount : ((dims row).filter ((fun r : Dimension × ScalarRow =>
          p r.2 && decide (r.1 = d)) ∘ fun d => (d, row))).length =
          if p row = true then (dims row).count d else 0 := by
        cases hp : p row with
        | false =>
          rw [if_neg Bool.false_ne_true, List.length_eq_zero_iff, List.filter_eq_nil_iff]
          intro x _
          simp [hp]
        | true =>
          rw [if_pos rfl, List.count, List.countP_eq_length_filter]
          refine congrArg List.length (List.filter_congr fun x _ => ?_)
          rw [Function.comp_apply, hp, Bool.true_and, Bool.eq_iff_iff, decide_eq_true_eq, beq_iff_eq]
      rw [hcount]
      by_cases hp : p row = true
      · rw [if_pos hp]
        by_cases hd : d ∈ dims row
        · rw [if_pos ⟨hd, hp⟩, List.count_eq_one_of_mem (hdims row) hd]
          rfl
        · rw [if_neg (fun h => hd h.1), List.count_eq_zero_of_not_mem hd]
          rfl
      · rw [if_neg hp, if_neg fun h => hp h.2]
        rfl
    rw [List.flatMap_cons, List.filter_append, List.map_append, ih, hfirst]
    by_cases hd : d ∈ dims row
    · rw [List.filter_cons (x := row), if_pos (decide_eq_true hd)]
      by_cases hp : p row = true
      · rw [if_pos ⟨hd, hp⟩, List.filter_cons_of_pos hp]
        rfl
      · rw [if_neg (fun h => hp h.2), List.filter_cons_of_neg hp]
        rfl
    · rw [List.filter_cons (x := row), if_neg (fun h => hd h.1), if_neg (by rwa [decide_eq_true_eq])]
      rfl

theorem represents_dimension (d : Dimension) : Represents (ofDimension (aggregateReport request part).rows d)
      (part.filter fun row => decide (d ∈ dimensions request (selectedGroups request.groupBy part) row)) := by
  have hsums : Sums _ (expanded request part) (fun r => (r.1, r.2.lane, r.2.costClass)) _ _ :=
    sums_aggregate metric_calls_pos
  constructor
  · intro p m
    have hsum := sum_totals metric_calls_pos hsums (fun k => p k.2 && decide (k.1 = d)) m
    have hevents := filter_expanded (dimensions request (selectedGroups request.groupBy part))
      (dimensions_nodup request _) d (fun row => p (costKey row)) part
    unfold total ofDimension metricSum
    rw [List.filter_filter, aggregateReport_rows, ← hevents, List.map_map]
    exact hsum
  · intro k
    constructor
    · rintro ⟨t, ht, rfl⟩
      obtain ⟨ht, hd⟩ := List.mem_filter.mp ht
      obtain ⟨-, hz⟩ := Grouped.total_eq hsums ht
      obtain ⟨⟨d', row⟩, hr, hkey⟩ := (sumBy_pos metric_calls_pos).2.mp hz
      obtain ⟨row', hrow, hmem⟩ := List.mem_flatMap.mp hr
      obtain ⟨x, hx, e⟩ := List.mem_map.mp hmem
      cases e
      have hd : t.key.1 = d := of_decide_eq_true hd
      rw [← hkey] at hd
      cases hd
      refine ⟨row, List.mem_filter.mpr ⟨hrow, decide_eq_true hx⟩, ?_⟩
      rw [← hkey]
      rfl
    · rintro ⟨row, hrow, rfl⟩
      obtain ⟨hrow, hd⟩ := List.mem_filter.mp hrow
      have hmem : (d, row) ∈ expanded request part :=
        List.mem_flatMap.mpr ⟨row, hrow, List.mem_map_of_mem (of_decide_eq_true hd)⟩
      obtain ⟨t, ht, hkey⟩ := total_of_row metric_calls_pos hsums hmem
      refine ⟨t, List.mem_filter.mpr ⟨ht, decide_eq_true ?_⟩, ?_⟩
      · rw [hkey]
      · rw [hkey]
        rfl

theorem mem_dimensions {selected : List (Option String)} {row : ScalarRow} {d : Dimension} :
    d ∈ dimensions request selected row ↔ d = .total ∨ d = .bucket
      (bucketOf request.buckets row.occurredAtMs) ∨
      (d = .group (request.groupBy.column row) ∧ request.groupBy.column row ∈ selected) := by
  unfold dimensions
  rw [List.mem_cons, List.mem_cons]
  by_cases h : request.groupBy.column row ∈ selected
  · rw [if_pos h, List.mem_singleton]
    exact or_congr Iff.rfl (or_congr Iff.rfl ⟨fun e => ⟨e, h⟩, fun e => e.1⟩)
  · rw [if_neg h]
    exact or_congr Iff.rfl (or_congr Iff.rfl ⟨nofun, fun e => absurd e.2 h⟩)

theorem group_row_iff (value : Option String) :
    (∃ r ∈ (aggregateReport request part).rows, r.key.1 = .group value) ↔
      value ∈ selectedGroups request.groupBy part := by
  have hdim := represents_dimension request part (.group value)
  constructor
  · rintro ⟨r, hr, hd⟩
    obtain ⟨row, hrow, -⟩ := (hdim.occurs r.key.2).mp ⟨r, List.mem_filter.mpr ⟨hr, decide_eq_true hd⟩, rfl⟩
    have hmem := of_decide_eq_true (List.mem_filter.mp hrow).2
    rcases (mem_dimensions request).mp hmem with e | e | ⟨e, hselected⟩
    · cases e
    · cases e
    · cases e
      exact hselected
  · intro hselected
    have hvalue : value ∈ part.map request.groupBy.column := by
      have h := List.mem_of_mem_take hselected
      rwa [List.mem_mergeSort, List.mem_dedup] at h
    obtain ⟨row, hrow, rfl⟩ := List.mem_map.mp hvalue
    obtain ⟨r, hr, -⟩ := (hdim.occurs (costKey row)).mpr ⟨row, List.mem_filter.mpr ⟨hrow, decide_eq_true
        ((mem_dimensions request).mpr (.inr (.inr ⟨rfl, hselected⟩)))⟩, rfl⟩
    obtain ⟨hr, hd⟩ := List.mem_filter.mp hr
    exact ⟨r, hr, of_decide_eq_true hd⟩

def NaturalEvents (events : List ScalarRow) : Prop := ∀ e ∈ events, ∀ m, 0 ≤ metricExpressions e m

theorem aggregateReport_natural (h : NaturalEvents part) : Natural (aggregateReport request part).rows := by
  intro t ht m
  have hsums : Sums _ (expanded request part) (fun r => (r.1, r.2.lane, r.2.costClass)) _ _ :=
    sums_aggregate metric_calls_pos
  rw [(Grouped.total_eq hsums ht).1]
  refine List.sum_nonneg fun x hx => ?_
  obtain ⟨⟨d, row⟩, hr, rfl⟩ := List.mem_map.mp hx
  obtain ⟨row', hrow, hmem⟩ := List.mem_flatMap.mp (List.mem_filter.mp hr).1
  obtain ⟨_, -, e⟩ := List.mem_map.mp hmem
  cases e
  exact h row hrow m

end Aggregated

end Events

/-! ## 6. Groups -/

section Groups

def distinctValues (groupBy : UsageGroupBy) (events : List ScalarRow) : List (Option String) :=
  (events.map groupBy.column).dedup.mergeSort nullsFirst

def valueBefore (a b : Option String) : Bool := nullsFirst a b && decide (a ≠ b)

theorem valueBefore_strict : Strict valueBefore where
  irrefl := fun a => by
    unfold valueBefore
    rw [decide_eq_false (not_not.mpr rfl), Bool.and_false]
  trans := fun a b c hab hbc => by
    unfold valueBefore at hab hbc ⊢
    rw [Bool.and_eq_true, decide_eq_true_eq] at hab hbc ⊢
    refine ⟨nullsFirst_trans a b c hab.1 hbc.1, ?_⟩
    rintro rfl
    exact hab.2 (nullsFirst_antisymm hab.1 hbc.1)

theorem ordered_values {values : List (Option String)} (h : values.Nodup) :
    Ordered valueBefore (values.mergeSort nullsFirst) := by
  have hsorted := List.pairwise_mergeSort nullsFirst_trans nullsFirst_total values
  have hne := (List.mergeSort_perm values nullsFirst).nodup_iff.mpr h
  refine (hsorted.and hne).imp fun {a b} hab => ?_
  unfold valueBefore
  rw [Bool.and_eq_true, decide_eq_true_eq]
  exact hab

theorem mem_distinctValues {groupBy : UsageGroupBy} {events : List ScalarRow} {value : Option String} :
    value ∈ distinctValues groupBy events ↔ ∃ e ∈ events, groupBy.column e = value := by
  unfold distinctValues
  rw [List.mem_mergeSort, List.mem_dedup, List.mem_map]

theorem distinctValues_ordered (groupBy : UsageGroupBy) (events : List ScalarRow) :
    Ordered valueBefore (distinctValues groupBy events) := ordered_values (List.nodup_dedup _)

theorem compareGroups_nonpos {a b : Option String} : compareGroups a b ≤ 0 ↔ nullsFirst a b = true := by
  cases a with
  | none =>
    cases b with
    | none => exact ⟨fun _ => rfl, fun _ => Int.le_refl 0⟩
    | some b => exact ⟨fun _ => rfl, fun _ => (by decide : (-1 : Int) ≤ 0)⟩
  | some a =>
    cases b with
    | none => exact ⟨fun h => absurd h (by decide : ¬ (1 : Int) ≤ 0), nofun⟩
    | some b =>
      unfold compareGroups nullsFirst compareUsageIds
      rw [decide_eq_true_eq]
      exact Utf8.compareBytes_nonpos

variable {query : ParsedUsageQuery} {truncated : Bool} {now : Int} {request : UsageReportQuery}
  {report : PersonalUsageReport} {parts : List (List ScalarRow)} {events : List ScalarRow}

def shardRows (request : UsageReportQuery) (parts : List (List ScalarRow)) : List UsageAggregateRow :=
  parts.flatMap fun part => (aggregateReport request part).rows

theorem represents_shards (d : Dimension) :
    Represents (ofDimension (shardRows request parts) d) (parts.flatMap fun part => part.filter fun row =>
        decide (d ∈ dimensions request (selectedGroups request.groupBy part) row)) := by
  have hflat : ofDimension (shardRows request parts) d =
      parts.flatMap fun part => ofDimension (aggregateReport request part).rows d := by
    unfold ofDimension shardRows
    rw [List.filter_flatMap]
  rw [hflat]
  exact represents_flatMap fun part _ => represents_dimension request part d

theorem mem_groups (h : Merged query truncated now report (shardRows request parts))
    {value : Option String} : value ∈ report.groups.map UsageReportGroup.value ↔
      ∃ part ∈ parts, value ∈ selectedGroups request.groupBy part := by
  rw [h.groups.keys]
  constructor
  · rintro ⟨r, hr, rfl⟩
    obtain ⟨hr, hgroup⟩ := List.mem_filter.mp hr
    obtain ⟨part, hpart, hr⟩ := List.mem_flatMap.mp hr
    refine ⟨part, hpart, (group_row_iff request part _).mp ⟨r, hr, ?_⟩⟩
    unfold isGroup at hgroup
    unfold groupValue
    cases hd : r.key.1 with
    | total | bucket i =>
      rw [hd] at hgroup
      cases hgroup
    | group value => rfl
  · rintro ⟨part, hpart, hselected⟩
    obtain ⟨r, hr, hd⟩ := (group_row_iff request part value).mpr hselected
    refine ⟨r, List.mem_filter.mpr ⟨List.mem_flatMap.mpr ⟨part, hpart, hr⟩, ?_⟩, ?_⟩
    · unfold isGroup
      rw [hd]
    · unfold groupValue
      rw [hd]

theorem sorted_values (report : PersonalUsageReport) :
    (report.groups.mergeSort fun a b => compareGroups a.value b.value ≤ 0).map (·.value) =
      (report.groups.map (·.value)).mergeSort nullsFirst := by
  refine List.map_mergeSort fun a _ b _ => ?_
  rw [Bool.eq_iff_iff, decide_eq_true_eq]
  exact compareGroups_nonpos

theorem groups_exact (h : Merged query truncated now report (shardRows request parts))
    (hevents : events.Perm parts.flatten) :
    report.cut.groups.map (·.value) = (distinctValues request.groupBy events).take 100 ∧
    (100 < report.groups.length ↔ 100 < (distinctValues request.groupBy events).length) ∧
      ∀ g ∈ report.cut.groups,
      g.summary.Reports (events.filter fun e => request.groupBy.column e = g.value) := by
  have hparts : ∀ values ∈ parts.map (distinctValues request.groupBy), Ordered valueBefore values := by
    intro values hvalues
    obtain ⟨part, -, rfl⟩ := List.mem_map.mp hvalues
    exact distinctValues_ordered request.groupBy part
  have hmem : ∀ value, value ∈ distinctValues request.groupBy events ↔
      ∃ values ∈ parts.map (distinctValues request.groupBy), value ∈ values := by
    intro value
    rw [mem_distinctValues]
    constructor
    · rintro ⟨e, he, rfl⟩
      obtain ⟨part, hpart, he⟩ := List.mem_flatten.mp (hevents.mem_iff.mp he)
      exact ⟨_, List.mem_map_of_mem hpart, mem_distinctValues.mpr ⟨e, he, rfl⟩⟩
    · rintro ⟨values, hvalues, hvalue⟩
      obtain ⟨part, hpart, rfl⟩ := List.mem_map.mp hvalues
      obtain ⟨e, he, rfl⟩ := mem_distinctValues.mp hvalue
      exact ⟨e, hevents.mem_iff.mpr (List.mem_flatten.mpr ⟨part, hpart, he⟩), rfl⟩
  have hmmem : ∀ value, value ∈ (report.groups.map (·.value)).mergeSort nullsFirst ↔
      ∃ values ∈ parts.map (distinctValues request.groupBy), value ∈ values.take 101 := by
    intro value
    rw [List.mem_mergeSort, mem_groups h]
    constructor
    · rintro ⟨part, hpart, hselected⟩
      exact ⟨_, List.mem_map_of_mem hpart, hselected⟩
    · rintro ⟨values, hvalues, hvalue⟩
      obtain ⟨part, hpart, rfl⟩ := List.mem_map.mp hvalues
      exact ⟨part, hpart, hvalue⟩
  obtain ⟨htake, hlength⟩ := take_merge valueBefore_strict hparts
    (distinctValues_ordered request.groupBy events) hmem (ordered_values h.groups.nodup) hmmem
  have hcut : report.cut.groups.map (·.value) = (distinctValues request.groupBy events).take 100 := by
    have hfirst := congrArg (List.take 100) htake
    rw [List.take_take, List.take_take] at hfirst
    rw [show min 100 101 = 100 from rfl] at hfirst
    rw [← hfirst, ← sorted_values, ← List.map_take]
    rfl
  refine ⟨hcut, ?_, fun g hg => ?_⟩
  · rw [List.length_mergeSort, List.length_map] at hlength
    exact hlength
  · have hvalue : g.value ∈ (distinctValues request.groupBy events).take 100 := by
      rw [← hcut]
      exact List.mem_map_of_mem hg
    have hvalue : g.value ∈ (distinctValues request.groupBy events).take 101 :=
      List.take_subset_take_left _ (by omega) hvalue
    have hcomplete : (parts.flatMap fun part => part.filter fun row => decide (.group g.value ∈
        dimensions request (selectedGroups request.groupBy part) row)) =
        parts.flatten.filter fun e => request.groupBy.column e = g.value := by
      rw [← List.flatMap_id, List.filter_flatMap]
      refine List.flatMap_congr fun part hpart => List.filter_congr fun row hrow => ?_
      rw [decide_eq_decide, mem_dimensions]
      constructor
      · rintro (e | e | ⟨e, -⟩)
        · cases e
        · cases e
        · exact (Dimension.group.inj e).symm
      · intro e
        refine .inr (.inr ⟨by rw [e], ?_⟩)
        -- a value among the first of all is among the first of its shard
        rw [e]
        refine mem_take_of_part valueBefore_strict (distinctValues_ordered request.groupBy events)
          (hparts _ (List.mem_map_of_mem hpart)) (fun b hb => ?_) ?_ hvalue
        · exact (hmem b).mpr ⟨_, List.mem_map_of_mem hpart, hb⟩
        · exact mem_distinctValues.mpr ⟨row, hrow, e⟩
    have hg' : g ∈ report.groups := by
      have hg := List.mem_of_mem_take hg
      rwa [List.mem_mergeSort] at hg
    have hdescribes := h.groups.holds g hg'
    rw [ofDimension_group] at hdescribes
    have hreports := (represents_shards (.group g.value)).reports hdescribes
    rw [hcomplete] at hreports
    exact hreports.perm (hevents.symm.filter _)

theorem truncated_shard (h : Merged query truncated now report (shardRows request parts))
    {part : List ScalarRow} (hpart : part ∈ parts)
    (htruncated : (aggregateReport request part).groupsTruncated = true) : 100 < report.groups.length := by
  unfold aggregateReport at htruncated
  rw [decide_eq_true_eq] at htruncated
  refine lt_of_lt_of_le htruncated ?_
  rw [← List.length_map (f := UsageReportGroup.value)]
  refine (List.subperm_of_subset (List.nodup_dedup _) fun value hvalue => ?_).length_le
  rw [List.mem_dedup] at hvalue
  obtain ⟨r, hr, hvalue⟩ := List.mem_filterMap.mp hvalue
  refine (mem_groups h).mpr ⟨part, hpart, (group_row_iff request part value).mp ⟨r, hr, ?_⟩⟩
  cases hd : r.key.1 with
  | total | bucket i =>
    rw [hd] at hvalue
    cases hvalue
  | group v =>
    rw [hd] at hvalue
    cases hvalue
    rfl

end Groups

/-! ## 7. The report over all the events -/

section Whole

variable {query : ParsedUsageQuery} {truncated : Bool} {now : Int} {request : UsageReportQuery}
  {report : PersonalUsageReport} {parts : List (List ScalarRow)} {events : List ScalarRow}

/-- The bounds of the buckets as the SQL has them. -/
def ParsedUsageQuery.bounds (query : ParsedUsageQuery) : List (Int × Int) :=
  query.range.buckets.map fun b => (b.start, b.stop)

/-- **The report over given events.** -/
structure PersonalUsageReport.Exact (report : PersonalUsageReport) (query : ParsedUsageQuery)
    (events : List ScalarRow) : Prop where
  frame : report.range = query.range ∧ report.groupBy = query.groupBy
  summary : report.summary.Reports events
  ranges : report.buckets.map (·.bucket) = query.range.buckets
  buckets : ∀ (i : Nat) b, report.buckets[i]? = some b →
    b.summary.Reports (events.filter fun e => bucketOf query.bounds e.occurredAtMs = i)
  values : report.groups.map (·.value) = (distinctValues query.groupBy events).take 100
  groups : ∀ g ∈ report.groups,
    g.summary.Reports (events.filter fun e => query.groupBy.column e = g.value)
  truncated : report.groupsTruncated =
    decide (100 < (distinctValues query.groupBy events).length)

/-- Every sum of a report over the events is a safe integer. -/
structure InRange (events : List ScalarRow) : Prop where
  metrics : ∀ m ∈ usageMetricKeys, metricSum events m ≤ maxSafeInteger
  costs : ∀ k : CostKey, metricSum (events.filter fun e => costKey e = k) .amountMicros ≤
    maxSafeInteger

theorem metricSum_filter_le (h : NaturalEvents events) (p : ScalarRow → Bool) (m : UsageMetric) :
    metricSum (events.filter p) m ≤ metricSum events m := by
  induction events with
  | nil => exact Int.le_refl _
  | cons e events ih =>
    have he := h e List.mem_cons_self m
    have ih := ih fun e he => h e (List.mem_cons_of_mem _ he)
    have hcons : metricSum (e :: events) m = metricExpressions e m + metricSum events m := List.sum_cons
    cases hp : p e with
    | false =>
      rw [List.filter_cons_of_neg (by rw [hp]; exact Bool.false_ne_true)]
      omega
    | true =>
      rw [List.filter_cons_of_pos hp]
      have : metricSum (e :: events.filter p) m = metricExpressions e m + metricSum
        (events.filter p) m := List.sum_cons
      omega

theorem flatMap_filter_le (h : ∀ part ∈ parts, NaturalEvents part)
    (p : List ScalarRow → ScalarRow → Bool) (q : ScalarRow → Bool) (m : UsageMetric) :
    metricSum ((parts.flatMap fun part => part.filter (p part)).filter q) m ≤ metricSum
      (parts.flatten.filter q) m := by
  induction parts with
  | nil => exact Int.le_refl _
  | cons part parts ih =>
    have hpart := h part List.mem_cons_self
    have ih := ih fun l hl => h l (List.mem_cons_of_mem _ hl)
    have hle := metricSum_filter_le
      (fun e he => hpart e (List.mem_filter.mp he).1 : NaturalEvents (part.filter q)) (p part) m
    rw [List.filter_filter] at hle
    rw [List.flatMap_cons, List.flatten_cons, List.filter_append, List.filter_append, List.filter_filter]
    have hswap : (part.filter fun e => q e && p part e) = part.filter fun e => p part e && q e :=
      List.filter_congr fun e _ => Bool.and_comm _ _
    unfold metricSum at ih hle ⊢
    rw [hswap, List.map_append, List.map_append, List.sum_append, List.sum_append]
    omega

theorem filter_dimension (hbuckets : request.buckets = query.bounds) (i : Nat) :
    (parts.flatMap fun part => part.filter fun row => decide (.total ∈
        dimensions request (selectedGroups request.groupBy part) row)) = parts.flatten ∧
      (parts.flatMap fun part => part.filter fun row => decide (.bucket i ∈
        dimensions request (selectedGroups request.groupBy part) row)) =
        parts.flatten.filter fun e => bucketOf query.bounds e.occurredAtMs = i := by
  constructor
  · rw [← List.flatMap_id]
    refine List.flatMap_congr fun part _ => List.filter_eq_self.mpr fun row _ => ?_
    exact decide_eq_true ((mem_dimensions request).mpr (.inl rfl))
  · rw [← List.flatMap_id, List.filter_flatMap]
    refine List.flatMap_congr fun part _ => List.filter_congr fun row _ => ?_
    rw [decide_eq_decide, mem_dimensions, hbuckets]
    constructor
    · rintro (e | e | ⟨e, -⟩)
      · cases e
      · exact (Dimension.bucket.inj e).symm
      · cases e
    · intro e
      exact .inr (.inl (congrArg Dimension.bucket e.symm))

theorem merge_parts (hgroup : request.groupBy = query.groupBy)
    (hbuckets : request.buckets = query.bounds) (hnatural : NaturalEvents events)
    (hevents : events.Perm parts.flatten) :
    (InRange events → ∃ report, mergeUsageReports (parts.map (aggregateReport request)) query now =
      .ok report ∧ report.Exact query events ∧ report.generatedAt = now) ∧ (¬ InRange events →
      mergeUsageReports (parts.map (aggregateReport request)) query now = .error usageRangeTooLarge) := by
  have hparts : ∀ part ∈ parts, NaturalEvents part := fun part hpart e he =>
    hnatural e (hevents.mem_iff.mpr (List.mem_flatten.mpr ⟨part, hpart, he⟩))
  have hrows : Natural (shardRows request parts) := by
    intro r hr
    obtain ⟨part, hpart, hr⟩ := List.mem_flatMap.mp hr
    exact aggregateReport_natural request part (hparts part hpart) r hr
  have hflat : (parts.map (aggregateReport request)).flatMap (·.rows) = shardRows request parts := by
    unfold shardRows
    rw [List.flatMap_map]
  have hempty : Merged query ((parts.map (aggregateReport request)).any (·.groupsTruncated)) now
    _ [] := merged_empty
  obtain ⟨hok, herror⟩ := merge_run hempty (show Natural ([] ++ shardRows request parts) from hrows)
  rw [List.nil_append] at hok herror
  have hfits : ∀ d, InRange events → Fits (ofDimension (shardRows request parts) d) := by
    intro d hrange
    have hd : Represents (ofDimension (shardRows request parts) d) _ := represents_shards d
    constructor
    · intro m hm
      rw [hd.total_eq m]
      have hle := flatMap_filter_le hparts (fun part row => decide (d ∈ dimensions request
        (selectedGroups request.groupBy part) row)) (fun _ => true) m
      rw [List.filter_true, List.filter_true, ← metricSum_perm hevents] at hle
      exact hle.trans (hrange.metrics m hm)
    · intro k
      rw [hd.sum (fun k' => decide (k' = k)) _]
      have hle := flatMap_filter_le hparts (fun part row => decide (d ∈ dimensions request
        (selectedGroups request.groupBy part) row)) (fun e => decide (costKey e = k)) .amountMicros
      rw [← metricSum_perm (hevents.filter _)] at hle
      exact hle.trans (hrange.costs k)
  unfold mergeUsageReports
  rw [hflat]
  cases hrun : (shardRows request parts).foldlM mergeRow (emptyReport query
      ((parts.map (aggregateReport request)).any (·.groupsTruncated)) now) with
  | error e =>
    obtain ⟨rfl, d, hlarge⟩ := herror e hrun
    exact ⟨fun hrange => absurd (hfits d hrange) hlarge, fun _ => rfl⟩
  | ok report =>
    have hmerged := hok report hrun
    have htotal : Represents (ofDimension (shardRows request parts) .total) _ := represents_shards .total
    rw [(filter_dimension hbuckets 0).1] at htotal
    constructor
    · intro _
      obtain ⟨hvalues, hcount, hgroups⟩ := groups_exact hmerged hevents
      rw [hgroup] at hvalues hcount hgroups
      refine ⟨report.cut, rfl, ⟨⟨hmerged.frame.1, hmerged.frame.2.1⟩,
        (htotal.reports hmerged.summary).perm hevents.symm, hmerged.ranges, ?_, hvalues,
        hgroups, ?_⟩, hmerged.frame.2.2.2⟩
      · intro i b hb
        have hi : Represents (ofDimension (shardRows request parts) (.bucket i)) _ :=
          represents_shards (.bucket i)
        rw [(filter_dimension hbuckets i).2] at hi
        exact (hi.reports (hmerged.buckets i b hb)).perm (hevents.symm.filter _)
      · show (report.groupsTruncated || decide (100 < report.groups.length)) = _
        rw [hmerged.frame.2.2.1, Bool.eq_iff_iff, Bool.or_eq_true, decide_eq_true_eq,
          decide_eq_true_eq, ← hcount]
        refine ⟨fun h => h.elim (fun hany => ?_) id, Or.inr⟩
        rw [List.any_map, List.any_eq_true] at hany
        obtain ⟨part, hpart, htruncated⟩ := hany
        exact truncated_shard hmerged hpart htruncated
    · intro hrange
      refine absurd ⟨fun m hm => ?_, fun k => ?_⟩ hrange
      · rw [metricSum_perm hevents, ← htotal.total_eq]
        exact hmerged.summary.fits.metrics m hm
      · rw [metricSum_perm (hevents.filter _), ← htotal.sum (fun k' => decide (k' = k))]
        exact hmerged.summary.fits.costs k

/-- The same metrics, and the same costs in any order. -/
structure UsageSummary.Same (a b : UsageSummary) : Prop where
  metrics : ∀ m ∈ usageMetricKeys, a.metrics m = b.metrics m
  costs : a.costs.Perm b.costs

/-- The same report, up to the order of the costs. -/
structure PersonalUsageReport.Same (a b : PersonalUsageReport) : Prop where
  frame : a.range = b.range ∧ a.groupBy = b.groupBy ∧ a.groupsTruncated = b.groupsTruncated
  summary : a.summary.Same b.summary
  buckets : List.Forall₂ (fun c d : UsageReportBucket => c.bucket = d.bucket ∧
    c.summary.Same d.summary) a.buckets b.buckets
  groups : List.Forall₂ (fun c d : UsageReportGroup => c.value = d.value ∧
    c.summary.Same d.summary) a.groups b.groups

theorem UsageSummary.Reports.costs_subset {a b : UsageSummary} (ha : a.Reports events)
    (hb : b.Reports events) {cost : UsageCostSummary} (h : cost ∈ a.costs) : cost ∈ b.costs := by
  have hkey := (hb.costs.keys cost.key).mpr ((ha.costs.keys cost.key).mp (List.mem_map_of_mem h))
  obtain ⟨cost', h', hk⟩ := List.mem_map.mp hkey
  have hof := ha.costs.holds cost h
  have hof' := hb.costs.holds cost' h'
  rw [hk] at hof'
  have e : cost' = cost := by
    have hlane := congrArg Prod.fst hk
    have hclass := congrArg Prod.snd hk
    have hcalls := hof'.calls.trans hof.calls.symm
    have hamount := hof'.amountMicros.trans hof.amountMicros.symm
    cases cost
    cases cost'
    rw [UsageCostSummary.mk.injEq]
    exact ⟨hlane, hclass, hcalls, hamount⟩
  rwa [← e]

theorem UsageSummary.Reports.same {a b : UsageSummary} (ha : a.Reports events)
    (hb : b.Reports events) : a.Same b where
  metrics := fun m hm => (ha.metrics m hm).trans (hb.metrics m hm).symm
  costs := (List.perm_ext_iff_of_nodup (List.Nodup.of_map _ ha.costs.nodup)
    (List.Nodup.of_map _ hb.costs.nodup)).mpr fun _ =>
      ⟨ha.costs_subset hb, hb.costs_subset ha⟩

theorem PersonalUsageReport.Exact.same {a b : PersonalUsageReport} (ha : a.Exact query events)
    (hb : b.Exact query events) : a.Same b where
  frame := ⟨ha.frame.1.trans hb.frame.1.symm, ha.frame.2.trans hb.frame.2.symm, ha.truncated.trans
    hb.truncated.symm⟩
  summary := ha.summary.same hb.summary
  buckets := by
    have hmap := ha.ranges.trans hb.ranges.symm
    have hlength := congrArg List.length hmap
    rw [List.length_map, List.length_map] at hlength
    refine List.forall₂_iff_get.mpr ⟨hlength, fun i hi hi' => ⟨?_, ?_⟩⟩
    · have h := congrArg (·[i]?) hmap
      simp only [List.getElem?_map, List.getElem?_eq_getElem hi, List.getElem?_eq_getElem hi',
        Option.map_some, Option.some_inj] at h
      exact h
    · exact (ha.buckets i _ (List.getElem?_eq_getElem hi)).same (hb.buckets i _ (List.getElem?_eq_getElem hi'))
  groups := by
    have hmap := ha.values.trans hb.values.symm
    have hlength := congrArg List.length hmap
    rw [List.length_map, List.length_map] at hlength
    refine List.forall₂_iff_get.mpr ⟨hlength, fun i hi hi' => ?_⟩
    have h := congrArg (·[i]?) hmap
    simp only [List.getElem?_map, List.getElem?_eq_getElem hi, List.getElem?_eq_getElem hi',
      Option.map_some, Option.some_inj] at h
    have hvalue : (a.groups.get ⟨i, hi⟩).value = (b.groups.get ⟨i, hi'⟩).value := h
    have hreports := hb.groups _ (List.get_mem b.groups ⟨i, hi'⟩)
    rw [← hvalue] at hreports
    exact ⟨hvalue, (ha.groups _ (List.get_mem a.groups ⟨i, hi⟩)).same hreports⟩

end Whole

/-! ## 8. Shards -/

section Natural

def Counting (value : Option Int) : Prop := ∀ n, value = some n → 0 ≤ n

theorem counting_none : Counting none := nofun

theorem Counting.getD {value : Option Int} (h : Counting value) : 0 ≤ value.getD 0 := by
  cases value with
  | none => exact Int.le_refl 0
  | some n => exact h n rfl

theorem Counting.caseWhen {condition : Sqlite.Tri} {a b : Option Int} (ha : Counting a)
    (hb : Counting b) : Counting (Sqlite.caseWhen condition a b) := by
  unfold Sqlite.caseWhen
  split
  · exact ha
  · exact hb

theorem counting_counter (value : Option Json) : Counting (counter value) := by
  intro n h
  unfold counter at h
  split at h
  · split at h
    · rename_i hrange
      cases h
      exact hrange.1
    · cases h
  · cases h

theorem counting_subsetCounter (value : Option Json) (inclusive : Option Int) :
    Counting (subsetCounter value inclusive) := by
  intro n h
  unfold subsetCounter at h
  split at h
  · rename_i v _ hv
    split at h
    · cases h
      exact counting_counter value n hv
    · cases h
  · cases h

structure ScalarRow.Counts (row : ScalarRow) : Prop where
  inputTokens : Counting row.inputTokens
  outputTokens : Counting row.outputTokens
  cachedInputTokens : Counting row.cachedInputTokens
  cacheWriteInputTokens : Counting row.cacheWriteInputTokens
  reasoningOutputTokens : Counting row.reasoningOutputTokens
  reportingCostMicros : Counting row.reportingCostMicros

theorem ScalarRow.Counts.nonneg {row : ScalarRow} (h : row.Counts) (m : UsageMetric) :
    0 ≤ metricExpressions row m := by
  have hone : (0 : Int) ≤ 1 := Int.one_nonneg
  have hzero : (0 : Int) ≤ 0 := Int.le_refl 0
  cases m with
  | inputTokens => exact h.inputTokens.getD
  | outputTokens => exact h.outputTokens.getD
  | cachedInputTokens => exact h.cachedInputTokens.getD
  | cacheWriteInputTokens => exact h.cacheWriteInputTokens.getD
  | reasoningOutputTokens => exact h.reasoningOutputTokens.getD
  | amountMicros => exact h.reportingCostMicros.getD
  | calls => exact hone
  | _ =>
    unfold metricExpressions
    dsimp only
    split
    · first | exact hone | exact hzero
    · first | exact hone | exact hzero

theorem counts_source (event : UsageEvent) : (source (owned event)).Counts := by
  have hcounter : ∀ name, Counting (jsonCounter (event.json.get? name)) := by
    intro name
    rw [jsonCounter_eq]
    exact counting_counter _
  refine ⟨hcounter _, hcounter _, ?_, ?_, ?_, ?_⟩
  · exact counting_none.caseWhen ((hcounter _).caseWhen counting_none)
  · exact counting_none.caseWhen ((hcounter _).caseWhen counting_none)
  · exact (hcounter _).caseWhen counting_none
  · exact counting_none.caseWhen ((hcounter _).caseWhen ((hcounter _).caseWhen (hcounter _)))

theorem counting_cost {event : Json} {cost : ReportingCost} (h : reportingCost event = some cost) :
    Counting cost.amount := by
  have hestimate : ∀ lane costClass actual, Counting actual →
      Counting (reportingCost.estimate event lane costClass actual).amount := by
    intro lane costClass actual hactual
    unfold reportingCost.estimate
    split
    · split
      · rename_i estimate reason he hr
        split
        · intro n hn
          cases hn
          exact counting_counter _ _ he
        · exact counting_none
      · exact counting_none
    · exact hactual
  have hif : ∀ (c : Prop) [Decidable c] (a b : ReportingCost), Counting a.amount →
      Counting b.amount → Counting (if c then a else b).amount := by
    intro c _ a b ha hb
    split
    · exact ha
    · exact hb
  obtain ⟨basis, -, rfl⟩ := Option.map_eq_some_iff.mp h
  have hactual := counting_counter (event.get? "actual_cost_micros")
  have hknown := counting_counter (event.get? "reporting_known_cost_micros")
  generalize counter (event.get? "actual_cost_micros") = actual at hactual ⊢
  generalize counter (event.get? "reporting_known_cost_micros") = known at hknown ⊢
  cases actual with
  | none => exact hestimate _ _ _ hactual
  | some actual =>
    cases known with
    | none => exact hestimate _ _ _ hactual
    | some known =>
      exact hif _ _ _ hknown (hestimate _ _ _ hactual)

theorem counting_cacheCounters (event : Json) :
    Counting (cacheCounters event).1 ∧ Counting (cacheCounters event).2 := by
  unfold cacheCounters
  dsimp only
  split
  · rename_i read write input hread hwrite hinput
    split
    · exact ⟨counting_none, counting_none⟩
    · refine ⟨fun n hn => ?_, fun n hn => ?_⟩
      · cases hn
        exact counting_subsetCounter _ _ _ hread
      · cases hn
        exact counting_subsetCounter _ _ _ hwrite
  · exact ⟨counting_subsetCounter _ _, counting_subsetCounter _ _⟩

theorem counts_scalar {event : UsageEvent} {detail : PersonalUsageEvent}
    (h : projectUsageEvent event = some detail) : detail.scalar.Counts := by
  obtain ⟨cost, hcost, rfl⟩ := Option.map_eq_some_iff.mp h
  obtain ⟨hread, hwrite⟩ := counting_cacheCounters event.json
  exact ⟨counting_counter _, counting_counter _, hread, hwrite, counting_subsetCounter _ _,
    counting_cost hcost⟩

end Natural

section Shards

variable {toLowerCase : String → String}

/-- A shard, and what it is asked. -/
structure ReportShard where
  tables : ReportTables
  request : UsageReportQuery

/-- The events that a report of the shard is over. -/
def ReportShard.events (toLowerCase : String → String) (s : ReportShard) : List ScalarRow :=
  if s.tables.projectionComplete then
    (s.tables.report.rows.filter fun row => s.request.owns row.tenantId row.policyId
      row.principalKey row.detail.occurredAt && s.request.filters.select row.detail.scalar).map
        fun row => row.detail.scalar
  else
    ((s.tables.ledger.rows.filter fun event => s.request.owns event.tenantId event.policyId
      (ledgerPrincipalKey toLowerCase event) event.occurredAtMs).map fun event =>
        source (owned event)).filter s.request.filters.select

/-- The shard is asked for its part of the query, and its projection is of events. -/
structure ReportShard.Serves (toLowerCase : String → String) (query : ParsedUsageQuery)
    (s : ReportShard) : Prop where
  bounded : s.request.bounded = true
  groupBy : s.request.groupBy = query.groupBy
  buckets : s.request.buckets = query.bounds
  projected : ∀ row ∈ s.tables.report.rows, ∃ event, usageReportRow toLowerCase event = some row

theorem ReportShard.natural {query : ParsedUsageQuery} {s : ReportShard}
    (h : s.Serves toLowerCase query) : NaturalEvents (s.events toLowerCase) := by
  intro e he
  unfold ReportShard.events at he
  split at he
  · obtain ⟨row, hrow, rfl⟩ := List.mem_map.mp he
    obtain ⟨event, hevent⟩ := h.projected row (List.mem_filter.mp hrow).1
    exact (counts_scalar (usageReportRow_eq hevent).1).nonneg
  · obtain ⟨event, -, rfl⟩ := List.mem_map.mp (List.mem_filter.mp he).1
    exact (counts_source event).nonneg

theorem aggregateReport_congr {a b : UsageReportQuery} (hgroup : a.groupBy = b.groupBy)
    (hbuckets : a.buckets = b.buckets) (rows : List ScalarRow) :
    aggregateReport a rows = aggregateReport b rows := by
  unfold aggregateReport dimensions
  rw [hgroup, hbuckets]

theorem ReportShard.answer {query : ParsedUsageQuery} {s : ReportShard}
    (h : s.Serves toLowerCase query) {request : UsageReportQuery}
    (hgroup : request.groupBy = query.groupBy) (hbuckets : request.buckets = query.bounds) :
    queryUsageReport toLowerCase s.tables s.request = some
      (aggregateReport request (s.events toLowerCase)) := by
  unfold queryUsageReport
  rw [if_pos h.bounded, aggregateReport_congr (hgroup.trans h.groupBy.symm) (hbuckets.trans h.buckets.symm)]
  rfl

/-- Merging what the shards report gives the report over all the events, which is also what the
    report of one table with all of them gives; where a sum of it is no safe integer, both
    throw. -/
def ReportsExact (toLowerCase : String → String) (query : ParsedUsageQuery) (now : Int)
    (shards : List ReportShard) (whole : ReportShard) : Prop :=
  ∃ results result, shards.mapM (fun s => queryUsageReport toLowerCase s.tables s.request) = some results ∧
    queryUsageReport toLowerCase whole.tables whole.request = some result ∧
    (InRange (whole.events toLowerCase) → ∃ report report', mergeUsageReports results query now = .ok report ∧
      mergeUsageReports [result] query now = .ok report' ∧ report.Same report' ∧
      report.Exact query (whole.events toLowerCase)) ∧
    (¬ InRange (whole.events toLowerCase) → mergeUsageReports results query now = .error usageRangeTooLarge ∧
      mergeUsageReports [result] query now = .error usageRangeTooLarge)

/-- **Sharded reports are exact**, however the events of a table are divided among the shards. -/
theorem sharded_report_exact (toLowerCase : String → String) (query : ParsedUsageQuery)
    (now : Int) (shards : List ReportShard) (whole : ReportShard)
    (hshards : ∀ s ∈ shards, s.Serves toLowerCase query) (hwhole : whole.Serves toLowerCase query)
    (hpartition : (whole.events toLowerCase).Perm (shards.flatMap (·.events toLowerCase))) :
    ReportsExact toLowerCase query now shards whole := by
  have hnatural := ReportShard.natural hwhole
  have hparts : (whole.events toLowerCase).Perm (shards.map (·.events toLowerCase)).flatten := by
    rwa [List.flatMap_def] at hpartition
  have hone : (whole.events toLowerCase).Perm [whole.events toLowerCase].flatten := by
    rw [List.flatten_singleton]
  have hanswers : shards.mapM (fun s => queryUsageReport toLowerCase s.tables s.request) =
      some ((shards.map (·.events toLowerCase)).map (aggregateReport whole.request)) := by
    rw [List.map_map]
    exact mapM_eq_some fun s hs => ReportShard.answer (hshards s hs) hwhole.groupBy hwhole.buckets
  refine ⟨_, _, hanswers, ReportShard.answer hwhole hwhole.groupBy hwhole.buckets, ?_, ?_⟩
  · intro hrange
    obtain ⟨report, hreport, hexact, -⟩ : ∃ report, mergeUsageReports _ _ now = .ok report ∧ _ :=
      (merge_parts hwhole.groupBy hwhole.buckets hnatural hparts).1 hrange
    obtain ⟨report', hreport', hexact', -⟩ : ∃ report, mergeUsageReports _ _ now = .ok report ∧ _ :=
      (merge_parts hwhole.groupBy hwhole.buckets hnatural hone).1 hrange
    exact ⟨report, report', hreport, hreport', hexact.same hexact', hexact⟩
  · intro hrange
    exact ⟨(merge_parts hwhole.groupBy hwhole.buckets hnatural hparts).2 hrange,
      (merge_parts hwhole.groupBy hwhole.buckets hnatural hone).2 hrange⟩

section Example

def dayReport : ParsedUsageQuery :=
  ⟨⟨1700000000000, 1700000001000, "UTC", 1697408001000, false,
    [⟨1700000000000, 1700000001000, "2023-11-14"⟩]⟩, .model,
    ⟨none, none, none, none, none, none⟩, 25⟩

def textShard (ids : List String) (h : ids.Nodup) : ReportShard :=
  ⟨⟨textLedger ids h, textReport ids h, true⟩, dayQuery⟩

theorem textShard_serves (ids : List String) (h : ids.Nodup) :
    (textShard ids h).Serves lowerCase dayReport where
  bounded := (by decide : dayQuery.bounded = true)
  groupBy := rfl
  buckets := rfl
  projected := fun row hrow => by
    obtain ⟨id, -, rfl⟩ := List.mem_map.mp hrow
    exact ⟨textEvent id, rfl⟩

/-- Two shards with an event each, and one table with both. -/
theorem sharded_report_exact_two : ReportsExact lowerCase dayReport 1700000001000
    [textShard ["usage_2"] (by decide), textShard ["usage_1"] (by decide)]
    (textShard ["usage_1", "usage_2"] (by decide)) := by
  refine sharded_report_exact lowerCase dayReport 1700000001000
    [textShard ["usage_2"] (by decide), textShard ["usage_1"] (by decide)]
    (textShard ["usage_1", "usage_2"] (by decide)) (fun s hs => ?_) (textShard_serves _ _) ?_
  · rcases List.mem_cons.mp hs with rfl | hs
    · exact textShard_serves _ _
    · rw [List.mem_singleton.mp hs]
      exact textShard_serves _ _
  · exact List.Perm.swap _ _ _

end Example

end Shards

end ClawRouter.Report
