/-
  Subject:   Personal reports and event pages (`queryUsageReport`, `queryUsageEvents` of
             src/worker/usage-report-store.ts), and the two tables they are read from.

  A complete projection is read by itself; before that the ledger is read, and classified by
  `source`. Rows of a report are compared without their order, which is by their key; the order of
  an event page decides what is on it.

  * **`read_paths_agree`**: both tables give the same answers.
-/
import ClawRouter.Lib.Aggregate
import ClawRouter.Lib.OrderBy
import ClawRouter.Report.Retained

namespace ClawRouter.Report

open Js Keyed Grouped OrderBy

/-! ## 1. The queries -/

/-- What a report is grouped by. -/
inductive UsageGroupBy
  | model
  | provider
  | key

/-- Which events a report is of. -/
structure UsageFilters where
  model : Option String
  provider : Option String
  key : Option String
  status : Option String
  costClass : Option String
  lane : Option String

/-- A report as a shard is asked for it. -/
structure UsageReportQuery where
  principal : String
  tenantId : String
  policyId : String
  rangeFrom : Int
  rangeTo : Int
  buckets : List (Int × Int)
  groupBy : UsageGroupBy
  filters : UsageFilters

/-- The range `reportWhere` accepts; otherwise it throws. -/
def UsageReportQuery.bounded (query : UsageReportQuery) : Bool :=
  query.rangeFrom ≤ query.rangeTo && query.rangeTo - query.rangeFrom ≤ reportRetentionMs

/-- The owner and the range in the `WHERE` of either table. -/
def UsageReportQuery.owns (query : UsageReportQuery) (tenantId policyId : String)
    (principalKey : Option String) (occurredAtMs : Int) : Bool :=
  tenantId == query.tenantId && policyId == query.policyId &&
    principalKey == some query.principal && query.rangeFrom ≤ occurredAtMs &&
    occurredAtMs < query.rangeTo

def UsageFilters.term (filter column : Option String) : Bool :=
  match filter with
  | none => true
  | some value => column == some value

def UsageFilters.select (filters : UsageFilters) (row : ScalarRow) : Bool :=
  term filters.model row.model && term filters.provider (some row.provider) &&
    term filters.key row.keyId && term filters.status (some row.status) &&
    term filters.costClass (some row.costClass.text) && term filters.lane (some row.lane.text)

def UsageFilters.isEmpty (filters : UsageFilters) : Bool :=
  filters.model.isNone && filters.provider.isNone && filters.key.isNone &&
    filters.status.isNone && filters.costClass.isNone && filters.lane.isNone

/-- The tables of a shard. -/
structure ReportTables where
  ledger : Table UsageEvent.id
  report : Table UsageReportRow.id
  projectionComplete : Bool

section Reports

/-- What a report counts. -/
inductive UsageMetric
  | calls
  | generationCalls
  | utilityCalls
  | successfulCalls
  | errorCalls
  | deniedCalls
  | inputTokens
  | outputTokens
  | cachedInputTokens
  | cacheWriteInputTokens
  | reasoningOutputTokens
  | inputReportedCalls
  | outputReportedCalls
  | cacheReadReportedCalls
  | cacheWriteReportedCalls
  | reasoningReportedCalls
  | amountMicros
  deriving DecidableEq

def metricExpressions (row : ScalarRow) : UsageMetric → Int
  | .calls => 1
  | .generationCalls => if row.callKind = .generation then 1 else 0
  | .utilityCalls => if row.callKind = .utility then 1 else 0
  | .successfulCalls => if row.status = "success" then 1 else 0
  | .errorCalls => if row.status = "success" ∨ row.status = "denied" then 0 else 1
  | .deniedCalls => if row.status = "denied" then 1 else 0
  | .inputTokens => row.inputTokens.getD 0
  | .outputTokens => row.outputTokens.getD 0
  | .cachedInputTokens => row.cachedInputTokens.getD 0
  | .cacheWriteInputTokens => row.cacheWriteInputTokens.getD 0
  | .reasoningOutputTokens => row.reasoningOutputTokens.getD 0
  | .inputReportedCalls => if row.inputTokens.isSome then 1 else 0
  | .outputReportedCalls => if row.outputTokens.isSome then 1 else 0
  | .cacheReadReportedCalls => if row.cachedInputTokens.isSome then 1 else 0
  | .cacheWriteReportedCalls => if row.cacheWriteInputTokens.isSome then 1 else 0
  | .reasoningReportedCalls => if row.reasoningOutputTokens.isSome then 1 else 0
  | .amountMicros => row.reportingCostMicros.getD 0

/-- What a row of a report is of. -/
inductive Dimension
  | total
  | bucket (i : Int)
  | group (value : Option String)
  deriving DecidableEq

abbrev UsageAggregateRow := Total (Dimension × UsageCostLane × UsageCostClass) UsageMetric

/-- What a shard answers. -/
structure UsageReportShard where
  rows : List UsageAggregateRow
  groupsTruncated : Bool

def UsageGroupBy.column (groupBy : UsageGroupBy) (row : ScalarRow) : Option String :=
  match groupBy with
  | .model => row.model
  | .provider => some row.provider
  | .key => row.keyId

def bucketOf (buckets : List (Int × Int)) (at' : Int) : Int :=
  match buckets.findIdx? fun b => b.1 ≤ at' && at' < b.2 with
  | some i => i
  | none => -1

/-- `SELECT DISTINCT column … ORDER BY value COLLATE BINARY LIMIT 101`. -/
def selectedGroups (groupBy : UsageGroupBy) (filtered : List ScalarRow) : List (Option String) :=
  ((filtered.map groupBy.column).dedup.mergeSort nullsFirst).take 101

def dimensions (query : UsageReportQuery) (selected : List (Option String)) (row : ScalarRow) :
    List Dimension :=
  let value := query.groupBy.column row
  Dimension.total :: .bucket (bucketOf query.buckets row.occurredAtMs) ::
    if value ∈ selected then [.group value] else []

def aggregateReport (query : UsageReportQuery) (filtered : List ScalarRow) : UsageReportShard :=
  let selected := selectedGroups query.groupBy filtered
  let expanded := filtered.flatMap fun row =>
    (dimensions query selected row).map fun dimension => (dimension, row)
  let rows := (aggregate expanded (fun r => (r.1, r.2.lane, r.2.costClass)) fun r =>
    metricExpressions r.2).rows
  let groups := (rows.filterMap fun r =>
    match r.key.1 with
    | .group value => some value
    | _ => none).dedup
  ⟨rows, 100 < groups.length⟩

def queryUsageReport (toLowerCase : String → String) (tables : ReportTables)
    (query : UsageReportQuery) : Option UsageReportShard :=
  if query.bounded then
    some (aggregateReport query (if tables.projectionComplete then
        (tables.report.rows.filter fun row => query.owns row.tenantId row.policyId row.principalKey
          row.detail.occurredAt && query.filters.select row.detail.scalar).map fun row =>
            row.detail.scalar
      else
        ((tables.ledger.rows.filter fun event => query.owns event.tenantId event.policyId
          (ledgerPrincipalKey toLowerCase event) event.occurredAtMs).map fun event =>
            source (owned event)).filter query.filters.select))
  else none

end Reports

section Events

/-- Where a page ends. -/
structure UsageEventPosition where
  occurredAt : Int
  id : String

def beforePosition (before : Option UsageEventPosition) (includeEqualId : Bool)
    (occurredAtMs : Int) (id : String) : Bool :=
  match before with
  | none => true
  | some position =>
    occurredAtMs < position.occurredAt || (occurredAtMs == position.occurredAt &&
      if includeEqualId then id ≤ position.id else id < position.id)

/-- `ORDER BY occurred_at_ms DESC, id COLLATE BINARY DESC LIMIT limit + 1`. -/
def newestPage {ρ : Type} (occurredAtMs : ρ → Int) (id : ρ → String) (limit : Nat) (rows : List ρ) : List ρ :=
  (rows.mergeSort fun a b => newestFirst (occurredAtMs a, id a) (occurredAtMs b, id b)).take (limit + 1)

def queryUsageEvents (toLowerCase : String → String) (tables : ReportTables)
    (query : UsageReportQuery) (limit : Nat) (before : Option UsageEventPosition)
    (includeEqualId : Bool) : Option (List PersonalUsageEvent) :=
  let owned' := fun event : UsageEvent => query.owns event.tenantId event.policyId
    (ledgerPrincipalKey toLowerCase event) event.occurredAtMs &&
      beforePosition before includeEqualId event.occurredAtMs event.id
  if query.bounded then
    if tables.projectionComplete then
      some ((newestPage (·.detail.occurredAt) (·.id) limit (tables.report.rows.filter fun row =>
        query.owns row.tenantId row.policyId row.principalKey row.detail.occurredAt &&
          query.filters.select row.detail.scalar &&
          beforePosition before includeEqualId row.detail.occurredAt row.id)).map (·.detail))
    else if query.filters.isEmpty then
      (newestPage (·.occurredAtMs) (·.id) limit (tables.ledger.rows.filter owned')).mapM projectUsageEvent
    else
      let page := newestPage (·.occurredAtMs) (·.id) limit
        (((tables.ledger.rows.filter owned').map fun event => source (owned event)).filter
          query.filters.select)
      -- the join keeps the order of the page
      (page.filterMap fun row => tables.ledger.find? row.id).mapM projectUsageEvent
  else none

end Events

/-! ## 2. What the queries do not depend on -/

section Order

theorem metric_calls_pos {expanded : List (Dimension × ScalarRow)} :
    ∀ r ∈ expanded, 0 < metricExpressions r.2 .calls := fun _ _ => Int.one_pos

structure SameShard (a b : UsageReportShard) : Prop where
  rows : a.rows.Perm b.rows
  groupsTruncated : a.groupsTruncated = b.groupsTruncated

theorem aggregateReport_perm (query : UsageReportQuery) {filtered filtered' : List ScalarRow}
    (h : filtered.Perm filtered') :
    SameShard (aggregateReport query filtered) (aggregateReport query filtered') := by
  have hselected : selectedGroups query.groupBy filtered = selectedGroups query.groupBy filtered' := by
    unfold selectedGroups
    rw [mergeSort_eq_of_perm nullsFirst_trans nullsFirst_total (fun _ _ _ _ => nullsFirst_antisymm)
      (h.map _).dedup]
  unfold aggregateReport
  dsimp only
  rw [hselected]
  have hexpanded := h.flatMap_right fun row =>
    (dimensions query (selectedGroups query.groupBy filtered') row).map fun dimension =>
      (dimension, row)
  have hrows := aggregate_perm (fun r : Dimension × ScalarRow => (r.1, r.2.lane, r.2.costClass))
    metric_calls_pos hexpanded
  refine ⟨hrows, ?_⟩
  rw [((hrows.filterMap _).dedup).length_eq]

theorem newestPage_map {ρ σ : Type} {f : ρ → σ} {at₁ : ρ → Int} {id₁ : ρ → String}
    {at₂ : σ → Int} {id₂ : σ → String} {rows : List ρ} (limit : Nat)
    (h : ∀ r ∈ rows, at₂ (f r) = at₁ r ∧ id₂ (f r) = id₁ r) :
    newestPage at₂ id₂ limit (rows.map f) = (newestPage at₁ id₁ limit rows).map f := by
  unfold newestPage
  rw [List.map_take]
  refine congrArg (List.take (limit + 1)) (List.map_mergeSort fun a ha b hb => ?_).symm
  rw [(h a ha).1, (h a ha).2, (h b hb).1, (h b hb).2]

theorem newestPage_perm {ρ : Type} {occurredAt : ρ → Int} {id : ρ → String} {rows rows' : List ρ}
    (limit : Nat) (hid : ∀ r ∈ rows, ∀ r' ∈ rows, id r = id r' → r = r') (h : rows.Perm rows') :
    newestPage occurredAt id limit rows = newestPage occurredAt id limit rows' := by
  refine congrArg (List.take (limit + 1)) (mergeSort_eq_of_perm
    (fun _ _ _ => newestFirst_trans _ _ _) (fun _ _ => newestFirst_total _ _)
    (fun a ha b hb h1 h2 => ?_) h)
  exact hid a ha b hb (congrArg Prod.snd (newestFirst_antisymm h1 h2))

theorem mem_newestPage {ρ : Type} {occurredAt : ρ → Int} {id : ρ → String} {limit : Nat}
    {rows : List ρ} {r : ρ} (h : r ∈ newestPage occurredAt id limit rows) : r ∈ rows :=
  List.mem_mergeSort.mp (List.mem_of_mem_take h)

theorem select_of_isEmpty {filters : UsageFilters} (h : filters.isEmpty = true)
    (row : ScalarRow) : filters.select row = true := by
  unfold UsageFilters.isEmpty at h
  simp only [Bool.and_eq_true, Option.isNone_iff_eq_none] at h
  obtain ⟨⟨⟨⟨⟨h1, h2⟩, h3⟩, h4⟩, h5⟩, h6⟩ := h
  unfold UsageFilters.select
  rw [h1, h2, h3, h4, h5, h6]
  rfl

theorem mapM_eq_some {ρ σ : Type} {f : ρ → Option σ} {g : ρ → σ} {rows : List ρ}
    (h : ∀ r ∈ rows, f r = some (g r)) : rows.mapM f = some (rows.map g) := by
  induction rows with
  | nil => rfl
  | cons r rows ih =>
    rw [List.mapM_cons, h r List.mem_cons_self, ih fun r hr => h r (List.mem_cons_of_mem _ hr)]
    rfl

end Order

/-! ## 3. The two paths -/

/-- The projection table is the image of the events. -/
def ProjectionImage (toLowerCase : String → String) (ledger : Table UsageEvent.id)
    (report : Table UsageReportRow.id) : Prop :=
  (report.rows.map some).Perm (ledger.rows.map (usageReportRow toLowerCase))

variable {g : UsageEvent → UsageReportRow}

section Paths

variable {toLowerCase : String → String} {ledger : Table UsageEvent.id}
  {report : Table UsageReportRow.id}

theorem image_rows (himage : ProjectionImage toLowerCase ledger report) : ∃ g : UsageEvent → UsageReportRow,
      (∀ event ∈ ledger.rows, usageReportRow toLowerCase event = some (g event)) ∧
        report.rows.Perm (ledger.rows.map g) := by
  have hsome : ∀ event ∈ ledger.rows, usageReportRow toLowerCase event =
      some ((usageReportRow toLowerCase event).getD default) := by
    intro event hevent
    have hmem : usageReportRow toLowerCase event ∈ report.rows.map some :=
      himage.mem_iff.mpr (List.mem_map_of_mem hevent)
    obtain ⟨row, -, e⟩ := List.mem_map.mp hmem
    rw [← e]
    rfl
  refine ⟨fun event => (usageReportRow toLowerCase event).getD default, hsome, ?_⟩
  have hperm := himage.filterMap id
  rw [List.map_congr_left hsome, List.filterMap_map, List.filterMap_map] at hperm
  simpa using hperm

/-- What a row of the image has of its event. -/
structure ImageRow (toLowerCase : String → String) (event : UsageEvent) (row : UsageReportRow) :
    Prop where
  project : projectUsageEvent event = some row.detail
  place : row.detail.occurredAt = event.occurredAtMs ∧ row.id = event.id
  owns : ∀ query : UsageReportQuery,
    query.owns row.tenantId row.policyId row.principalKey row.detail.occurredAt =
      query.owns event.tenantId event.policyId (ledgerPrincipalKey toLowerCase event)
        event.occurredAtMs
  scalar : source (owned event) = row.detail.scalar

theorem imageRow {event : UsageEvent} {row : UsageReportRow}
    (h : usageReportRow toLowerCase event = some row) (hbasis : ¬ ArrayBasis event.json) :
    ImageRow toLowerCase event row := by
  obtain ⟨hproject, htenant, hpolicy, hprincipal⟩ := usageReportRow_eq h
  obtain ⟨hid, hat⟩ := projectUsageEvent_place hproject
  refine ⟨hproject, ⟨hat, hid⟩, fun query => ?_, source_eq event hproject hbasis⟩
  rw [htenant, hpolicy, hprincipal, hat]

section

variable (hrow : ∀ event ∈ ledger.rows, ImageRow toLowerCase event (g event))
include hrow

theorem filtered_perm (hperm : report.rows.Perm (ledger.rows.map g)) (query : UsageReportQuery) :
    (((ledger.rows.filter fun event => query.owns event.tenantId event.policyId
      (ledgerPrincipalKey toLowerCase event) event.occurredAtMs).map fun event =>
        source (owned event)).filter query.filters.select).Perm
    ((report.rows.filter fun row => query.owns row.tenantId row.policyId row.principalKey
      row.detail.occurredAt && query.filters.select row.detail.scalar).map fun row => row.detail.scalar) := by
  refine List.Perm.trans ?_ ((hperm.filter _).map _).symm
  rw [List.filter_map, List.filter_map, List.map_map, List.filter_filter]
  refine List.Perm.of_eq ?_
  have hfilter : ∀ event ∈ ledger.rows, ((query.filters.select ∘ fun event => source (owned event)) event &&
        query.owns event.tenantId event.policyId (ledgerPrincipalKey toLowerCase event) event.occurredAtMs) =
      ((fun row : UsageReportRow => query.owns row.tenantId row.policyId row.principalKey
        row.detail.occurredAt && query.filters.select row.detail.scalar) ∘ g) event := by
    intro event hevent
    dsimp only [Function.comp_apply]
    rw [(hrow event hevent).owns, (hrow event hevent).scalar, Bool.and_comm]
  rw [List.filter_congr hfilter]
  exact List.map_congr_left fun event hevent =>
    (hrow event (List.mem_filter.mp hevent).1).scalar

theorem page_of_image (hperm : report.rows.Perm (ledger.rows.map g)) (limit : Nat) {Q : UsageReportRow → Bool}
    {S : UsageEvent → Bool} (hQ : ∀ event ∈ ledger.rows, Q (g event) = S event) :
    newestPage (·.detail.occurredAt) (·.id) limit (report.rows.filter Q) =
      (newestPage (·.occurredAtMs) (·.id) limit (ledger.rows.filter S)).map g := by
  have hids : ∀ r ∈ report.rows.filter Q, ∀ r' ∈ report.rows.filter Q, r.id = r'.id → r = r' :=
    fun r hr r' hr' e => Table.eq_of_key (List.mem_filter.mp hr).1 (List.mem_filter.mp hr').1 e
  have hplace : ∀ event ∈ ledger.rows.filter S,
      (g event).detail.occurredAt = event.occurredAtMs ∧ (g event).id = event.id :=
    fun event hevent => (hrow event (List.mem_filter.mp hevent).1).place
  have hfilter : (ledger.rows.map g).filter Q = (ledger.rows.filter S).map g := by
    rw [List.filter_map]
    exact congrArg (List.map g) (List.filter_congr hQ)
  rw [newestPage_perm limit hids (hperm.filter Q), hfilter]
  exact newestPage_map limit hplace

end

theorem page_join (limit : Nat) (S : UsageEvent → Bool) :
    ((newestPage (·.occurredAtMs) (·.id) limit ((ledger.rows.filter S).map fun event =>
      source (owned event))).filterMap fun row => ledger.find? row.id) =
    newestPage (·.occurredAtMs) (·.id) limit (ledger.rows.filter S) := by
  have hplace : ∀ event ∈ ledger.rows.filter S, (source (owned event)).occurredAtMs = event.occurredAtMs ∧
        (source (owned event)).id = event.id := fun _ _ => ⟨rfl, rfl⟩
  rw [newestPage_map limit hplace, List.filterMap_map]
  have hfind : ∀ event ∈ newestPage (·.occurredAtMs) (·.id) limit (ledger.rows.filter S),
      ((fun row => ledger.find? row.id) ∘ fun event => source (owned event)) event = some event := by
    intro event hevent
    exact Table.find?_eq_some.mpr ⟨(List.mem_filter.mp (mem_newestPage hevent)).1, rfl⟩
  rw [List.filterMap_congr hfind, List.filterMap_some]

theorem events_agree (hrow : ∀ event ∈ ledger.rows, ImageRow toLowerCase event (g event))
    (hperm : report.rows.Perm (ledger.rows.map g)) (query : UsageReportQuery) (limit : Nat)
    (before : Option UsageEventPosition) (includeEqualId : Bool) :
    queryUsageEvents toLowerCase ⟨ledger, report, false⟩ query limit before includeEqualId =
      queryUsageEvents toLowerCase ⟨ledger, report, true⟩ query limit before includeEqualId := by
  unfold queryUsageEvents
  cases query.bounded with
  | false => rfl
  | true =>
    rw [if_pos rfl, if_pos rfl, if_neg Bool.false_ne_true, if_pos rfl]
    generalize hP : (fun event : UsageEvent => query.owns event.tenantId event.policyId
      (ledgerPrincipalKey toLowerCase event) event.occurredAtMs &&
        beforePosition before includeEqualId event.occurredAtMs event.id) = P
    have hselected : ∀ event ∈ ledger.rows,
        (fun row : UsageReportRow => query.owns row.tenantId row.policyId row.principalKey
          row.detail.occurredAt && query.filters.select row.detail.scalar &&
            beforePosition before includeEqualId row.detail.occurredAt row.id) (g event) =
          (query.filters.select (source (owned event)) && P event) := by
      intro event hevent
      have h := hrow event hevent
      rw [← hP]
      dsimp only
      rw [h.owns, h.place.1, h.place.2, h.scalar, Bool.and_assoc, Bool.and_left_comm]
    rw [page_of_image hrow hperm limit hselected]
    generalize hpage : newestPage (·.occurredAtMs) (·.id) limit (ledger.rows.filter fun event =>
      query.filters.select (source (owned event)) && P event) = page
    have hproject : page.mapM projectUsageEvent = some ((page.map g).map (·.detail)) := by
      rw [List.map_map]
      refine mapM_eq_some fun event hevent => (hrow event ?_).project
      rw [← hpage] at hevent
      exact (List.mem_filter.mp (mem_newestPage hevent)).1
    rw [← hproject, ← hpage]
    cases hempty : query.filters.isEmpty with
    | true =>
      rw [if_pos rfl]
      refine congrArg (fun rows => (newestPage (·.occurredAtMs) (·.id) limit rows).mapM
        projectUsageEvent) (List.filter_congr fun event _ => ?_)
      rw [select_of_isEmpty hempty, Bool.true_and]
    | false =>
      rw [if_neg Bool.false_ne_true, List.filter_map, List.filter_filter]
      exact congrArg (List.mapM projectUsageEvent) (page_join limit _)

end Paths

/-- Reports agree if both throw, or both give the same rows. -/
def SameReport : Option UsageReportShard → Option UsageReportShard → Prop := Option.Rel SameShard

/-- **The two read paths agree** on every report and every page, if the projection is the image of
    the events and no event has an array for a cost basis. -/
theorem read_paths_agree (toLowerCase : String → String) {ledger : Table UsageEvent.id}
    {report : Table UsageReportRow.id} (himage : ProjectionImage toLowerCase ledger report)
    (hbasis : ∀ event ∈ ledger.rows, ¬ ArrayBasis event.json) (query : UsageReportQuery) :
    SameReport (queryUsageReport toLowerCase ⟨ledger, report, false⟩ query)
        (queryUsageReport toLowerCase ⟨ledger, report, true⟩ query) ∧ ∀ limit before includeEqualId,
        queryUsageEvents toLowerCase ⟨ledger, report, false⟩ query limit before includeEqualId =
          queryUsageEvents toLowerCase ⟨ledger, report, true⟩ query limit before includeEqualId := by
  obtain ⟨g, hg, hperm⟩ := image_rows himage
  have hrow : ∀ event ∈ ledger.rows, ImageRow toLowerCase event (g event) :=
    fun event hevent => imageRow (hg event hevent) (hbasis event hevent)
  refine ⟨?_, fun limit before includeEqualId =>
    events_agree hrow hperm query limit before includeEqualId⟩
  unfold queryUsageReport
  cases query.bounded with
  | false => exact .none
  | true => exact .some (aggregateReport_perm query (filtered_perm hrow hperm query))

section Example

/-- ASCII letters only: enough for the names below. -/
def lowerCase (s : String) : String := String.ofList (s.toList.map Char.toLower)

/-- An event of no charge whose cost basis is given. -/
def freeEvent (basis : Json) (id : String) : UsageEvent where
  id :=
  id
  occurredAtMs := 1700000000000
  tenantId := "tenant"
  policyId := "policy"
  provider := "openai"
  status := "success"
  json := .obj [("principal_id", .str "Ada@example.com"), ("model", .str "gpt"),
    ("cost_basis", basis), ("actual_cost_micros", .int 0)]

def freeLedger (basis : Json) : Table UsageEvent.id := ⟨[freeEvent basis "usage_1"], by simp⟩

def freeReport (basis : Json) : Table UsageReportRow.id :=
  ⟨[(usageReportRow lowerCase (freeEvent basis "usage_1")).getD default], by simp⟩

def dayQuery : UsageReportQuery where
  principal :=
  "ada@example.com"
  tenantId := "tenant"
  policyId := "policy"
  rangeFrom := 1700000000000
  rangeTo := 1700000001000
  buckets := [(1700000000000, 1700000001000)]
  groupBy := .model
  filters := ⟨none, none, none, none, none, none⟩

/-- **An array is looked up by its text**: an event of basis `["none"]` is reported without charge
    from the projection and of unknown cost from the ledger. -/
theorem array_basis_differs : ∃ (ledger : Table UsageEvent.id) (report : Table UsageReportRow.id)
    (query : UsageReportQuery), ProjectionImage lowerCase ledger report ∧
      ¬ SameReport (queryUsageReport lowerCase ⟨ledger, report, false⟩ query)
        (queryUsageReport lowerCase ⟨ledger, report, true⟩ query) := by
  refine ⟨freeLedger (.arr [.str "none"]), freeReport (.arr [.str "none"]), dayQuery, ?_, ?_⟩
  · exact List.Perm.of_eq rfl
  · intro h
    have hledger : ((queryUsageReport lowerCase ⟨freeLedger (.arr [.str "none"]),
        freeReport (.arr [.str "none"]), false⟩ dayQuery).any fun shard =>
          (shard.rows.map Total.key).contains (.total, .unattributed, .unknown)) = true := by
      decide +kernel
    have hreport : ((queryUsageReport lowerCase ⟨freeLedger (.arr [.str "none"]),
        freeReport (.arr [.str "none"]), true⟩ dayQuery).any fun shard =>
          (shard.rows.map Total.key).contains (.total, .unattributed, .unknown)) = false := by
      decide +kernel
    unfold SameReport at h
    revert hledger hreport
    cases h with
    | some h =>
      intro hledger hreport
      have hkey := List.contains_iff_mem.mp hledger
      have hkey := (h.rows.map Total.key).mem_iff.mp hkey
      have hcontains := List.contains_iff_mem.mpr hkey
      exact Bool.false_ne_true (hreport.symm.trans hcontains)

def textEvent (id : String) : UsageEvent := freeEvent (.str "none") id

def textRow (id : String) : UsageReportRow := (usageReportRow lowerCase (textEvent id)).getD default

def textLedger (ids : List String) (h : ids.Nodup) : Table UsageEvent.id where
  rows :=
  ids.map textEvent
  nodup := by
    rw [List.map_map]
    exact (List.map_id ids).symm ▸ h

def textReport (ids : List String) (h : ids.Nodup) : Table UsageReportRow.id where
  rows :=
  ids.map textRow
  nodup := by
    rw [List.map_map]
    exact (List.map_id ids).symm ▸ h

/-- Two events, in one order in the ledger and in the other in the projection. -/
theorem read_paths_agree_text :
    let ledger := textLedger ["usage_1", "usage_2"] (by decide)
    let report := textReport ["usage_2", "usage_1"] (by decide)
    SameReport (queryUsageReport lowerCase ⟨ledger, report, false⟩ dayQuery)
      (queryUsageReport lowerCase ⟨ledger, report, true⟩ dayQuery) := by
  intro ledger report
  have hbasis : ∀ event ∈ ledger.rows, ¬ ArrayBasis event.json := by
    intro event hevent
    obtain ⟨id, -, rfl⟩ := List.mem_map.mp hevent
    rintro ⟨items, key, h, -, -⟩
    have e : (textEvent id).json.get? "cost_basis" = some (.str "none") := rfl
    rw [e] at h
    injection h with h
    nomatch h
  have himage : ProjectionImage lowerCase ledger report := List.Perm.swap _ _ _
  exact (read_paths_agree lowerCase himage hbasis dayQuery).1

end Example

end ClawRouter.Report
