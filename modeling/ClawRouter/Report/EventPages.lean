/-
  Subject:   Event pages over many shards (`mergeUsageEvents`, `personalUsage` of
             src/worker/usage-report.ts).

  A page is the newest events after a place, which is a time, an id and a shard. The shards compare
  the time and the id, and are told which of them may answer with the id of the place again; the
  merge orders what they answer and cuts it.

  * **`event_pages_exact`**: following the cursors lists every event once and in order, where the
    cursors fit.
-/
import ClawRouter.Lib.Keyset
import ClawRouter.Report.Request
import Mathlib.Data.List.Flatten
import Mathlib.Data.Prod.Lex

namespace ClawRouter.Report

open Js Json Fallible Keyed OrderBy Keyset

/-! ## 1. Pages -/

/-- What requests are served from: the tables of each shard, and the functions of the platform. -/
structure ReportEnv where
  toLowerCase : String → String
  dateTools : String → UsageDateTools
  digest : String → String
  shards : Policy → ReportTables

/-- A shard and its events. -/
structure EventShard where
  shard : String
  events : List PersonalUsageEvent

/-- An event and its shard. -/
structure Occurrence where
  event : PersonalUsageEvent
  shard : String
  deriving DecidableEq

def compareOccurrences (a b : Occurrence) : Int :=
  if b.event.occurredAt - a.event.occurredAt ≠ 0 then b.event.occurredAt - a.event.occurredAt
  else if compareUsageIds b.event.id a.event.id ≠ 0 then compareUsageIds b.event.id a.event.id
  else compareUsageIds b.shard a.shard

/-- A page of all shards. -/
structure MergedEvents where
  events : List PersonalUsageEvent
  lastShard : Option String
  hasMore : Bool

def mergeUsageEvents (shards : List EventShard) (limit : Nat) : MergedEvents :=
  let ordered := (shards.flatMap fun s => s.events.map fun event => Occurrence.mk event s.shard)
    |>.mergeSort fun a b => compareOccurrences a b ≤ 0
  let selected := ordered.take limit
  ⟨selected.map (·.event), selected.getLast?.map (·.shard), limit < ordered.length⟩

def MergedEvents.nextCursor (merged : MergedEvents) (binding : String) (now : Int) : Option CursorText :=
  if merged.hasMore then
    merged.events.getLast?.map fun last =>
      encodeCursor ⟨binding, ⟨last.occurredAt, last.id⟩, merged.lastShard.getD "", now⟩
  else none

/-- The query of one shard, from a given start. -/
def ParsedUsageQuery.forShard (query : ParsedUsageQuery) (principal : String) (rangeFrom : Int)
    (policy : Policy) : UsageReportQuery where
  principal := principal
  tenantId := policy.tenantId
  policyId := policy.policyId
  rangeFrom := rangeFrom
  rangeTo := query.range.rangeTo
  buckets := query.range.buckets.map fun b => (b.start, b.stop)
  groupBy := query.groupBy
  filters := query.filters

/-- Where the range of the SQL starts: retention goes on while pages are read. -/
def UsageReportRange.sqlFrom (range : UsageReportRange) (now : Int) : Int :=
  min range.rangeTo (max range.rangeFrom (now - reportRetentionMs))

def usageReportUnavailable : HttpError :=
  ⟨503, "usage_report_unavailable", "personal usage is unavailable; retry later"⟩

def fetchEvents (env : ReportEnv) (principal : String) (query : ParsedUsageQuery)
    (cursor : Option Cursor) (now : Int) (policy : Policy) : Answer EventShard := do
  let shard := shardName policy
  let events ← demand (queryUsageEvents env.toLowerCase (env.shards policy)
    (query.forShard principal (query.range.sqlFrom now) policy) query.limit
    (cursor.map (·.position)) (cursor.any fun c => compareUsageIds shard c.shard < 0))
    usageReportUnavailable
  return ⟨shard, events⟩

/-- A page, and where the next begins. -/
structure PersonalUsageEvents where
  events : List PersonalUsageEvent
  nextCursor : Option CursorText

def Cursor.current (now : Int) (cursor : Cursor) : Bool :=
  cursor.now ≤ now && now - cursor.now ≤ reportRetentionMs

def personalUsageEvents (env : ReportEnv) (policies : List Policy) (principalId : String)
    (params : UsageReportParams) (text : Option CursorText) (now : Int) :
    Answer PersonalUsageEvents := do
  let principal ← demand (Usage.normalizeEmail env.toLowerCase principalId)
    ⟨401, "access_session_required", "a verified session principal is required"⟩
  let cursor ← text.mapM decodeCursor
  require (cursor.all (·.current now)) (invalidQuery "usage cursor has expired")
  let anchor := (cursor.map (·.now)).getD now
  let query ← parseUsageReportQuery (env.dateTools params.range.timezone) params anchor
  let binding := cursorBinding env.digest principal policies query
  require (cursor.all (·.binding = binding)) (invalidQuery "cursor does not match this owner and query")
  let shards ← mapUsageShards policies (fetchEvents env principal query cursor now)
  let merged := mergeUsageEvents shards query.limit
  return ⟨merged.events, merged.nextCursor binding anchor⟩

/-! ## 2. The order of occurrences -/

section Order

variable {a b : Occurrence}

/-- `a` is listed before `b`: descending by time, then by the bytes of the id, then by shard. -/
def Newer (a b : Occurrence) : Prop :=
  b.event.occurredAt < a.event.occurredAt ∨ (b.event.occurredAt = a.event.occurredAt ∧
    (compareUsageIds b.event.id a.event.id < 0 ∨
      (b.event.id = a.event.id ∧ compareUsageIds b.shard a.shard < 0)))

/-- The place of an occurrence in ascending order. -/
def Occurrence.place (o : Occurrence) : Int ×ₗ String ×ₗ String :=
  toLex (o.event.occurredAt, toLex (o.event.id, o.shard))

def occurrenceBefore (a b : Occurrence) : Bool := compareOccurrences a b < 0

theorem place_lt : b.place < a.place ↔ Newer a b := by
  unfold Occurrence.place Newer compareUsageIds
  rw [Prod.Lex.toLex_lt_toLex, Prod.Lex.toLex_lt_toLex, Utf8.compareBytes_neg, Utf8.compareBytes_neg]

theorem compareOccurrences_neg : compareOccurrences a b < 0 ↔ b.place < a.place := by
  unfold compareOccurrences Occurrence.place compareUsageIds
  rw [Prod.Lex.toLex_lt_toLex, Prod.Lex.toLex_lt_toLex]
  by_cases hat : b.event.occurredAt - a.event.occurredAt ≠ 0
  · rw [if_pos hat]
    omega
  · have hat' : b.event.occurredAt = a.event.occurredAt := by omega
    rw [if_neg hat]
    by_cases hid : Utf8.compareBytes (Utf8.bytes b.event.id) (Utf8.bytes a.event.id) ≠ 0
    · rw [if_pos hid, Utf8.compareBytes_neg]
      have hne : b.event.id ≠ a.event.id := fun e => hid (Utf8.compareBytes_eq_zero.mpr e)
      simp [hat', hne]
    · have hid' : b.event.id = a.event.id := Utf8.compareBytes_eq_zero.mp (not_not.mp hid)
      rw [if_neg hid, Utf8.compareBytes_neg]
      simp [hat', hid']

theorem compareOccurrences_swap (a b : Occurrence) : compareOccurrences b a = -compareOccurrences a b := by
  have hids : ∀ s t, compareUsageIds s t = -compareUsageIds t s := fun s t =>
    Utf8.compareBytes_swap _ _
  unfold compareOccurrences
  rw [hids a.event.id, hids a.shard]
  split_ifs <;> omega

theorem compareOccurrences_nonpos : compareOccurrences a b ≤ 0 ↔ b.place ≤ a.place := by
  rw [← not_lt, ← not_lt, ← compareOccurrences_neg, compareOccurrences_swap a b]
  omega

theorem occurrenceBefore_iff : occurrenceBefore a b = true ↔ Newer a b := by
  unfold occurrenceBefore
  rw [decide_eq_true_eq, compareOccurrences_neg, place_lt]

theorem occurrenceBefore_place : occurrenceBefore a b = true ↔ b.place < a.place := by
  unfold occurrenceBefore
  rw [decide_eq_true_eq, compareOccurrences_neg]

theorem occurrenceBefore_strict : Strict occurrenceBefore where
  irrefl := fun a => by
    rw [← Bool.not_eq_true, occurrenceBefore_place]
    exact lt_irrefl _
  trans := fun a b c hab hbc => by
    rw [occurrenceBefore_place] at hab hbc ⊢
    exact hbc.trans hab

theorem ordered_mergeSort {rows : List Occurrence} (hnodup : rows.Nodup)
    (hplace : ∀ a ∈ rows, ∀ b ∈ rows, a.place = b.place → a = b) :
    Ordered occurrenceBefore (rows.mergeSort fun a b => compareOccurrences a b ≤ 0) := by
  have hperm := List.mergeSort_perm rows fun a b => decide (compareOccurrences a b ≤ 0)
  have hle : (rows.mergeSort fun a b => compareOccurrences a b ≤ 0).Pairwise fun a b =>
      decide (compareOccurrences a b ≤ 0) = true := by
    refine List.pairwise_mergeSort (fun a b c hab hbc => ?_) (fun a b => ?_) rows
    · rw [decide_eq_true_eq, compareOccurrences_nonpos] at hab hbc ⊢
      exact hbc.trans hab
    · rw [Bool.or_eq_true, decide_eq_true_eq, decide_eq_true_eq, compareOccurrences_nonpos,
        compareOccurrences_nonpos]
      exact le_total _ _
  have hne := hperm.nodup_iff.mpr hnodup
  refine (hle.and hne).imp_of_mem fun {a b} ha hb hab => ?_
  rw [decide_eq_true_eq, compareOccurrences_nonpos] at hab
  rw [occurrenceBefore_place]
  refine lt_of_le_of_ne hab.1 fun e => hab.2 ?_
  exact hplace a (hperm.mem_iff.mp ha) b (hperm.mem_iff.mp hb) e.symm

end Order

/-! ## 3. One shard -/

section Shard

variable {toLowerCase : String → String} {tables : ReportTables} {query : UsageReportQuery}

/-- The shard holds an event that the query selects, in the table it is read from. -/
def ReportTables.Holds (toLowerCase : String → String) (tables : ReportTables)
    (query : UsageReportQuery) (event : PersonalUsageEvent) : Prop :=
  if tables.projectionComplete then
    ∃ row ∈ tables.report.rows, row.detail = event ∧
      query.owns row.tenantId row.policyId row.principalKey row.detail.occurredAt = true ∧
      query.filters.select row.detail.scalar = true
  else
    ∃ stored ∈ tables.ledger.rows, projectUsageEvent stored = some event ∧
      query.owns stored.tenantId stored.policyId (ledgerPrincipalKey toLowerCase stored)
        stored.occurredAtMs = true ∧
      query.filters.select (source (owned stored)) = true

def InOrder (a b : PersonalUsageEvent) : Prop :=
  b.occurredAt < a.occurredAt ∨ (b.occurredAt = a.occurredAt ∧ b.id < a.id)

theorem inOrder_mergeSort {ρ : Type} {detail : ρ → PersonalUsageEvent} {rows : List ρ}
    (hids : (rows.map fun r => (detail r).id).Nodup) :
    ((rows.mergeSort fun a b => newestFirst ((detail a).occurredAt, (detail a).id)
      ((detail b).occurredAt, (detail b).id)).map detail).Pairwise InOrder := by
  rw [List.pairwise_map]
  generalize hle : (fun a b => newestFirst ((detail a).occurredAt, (detail a).id)
    ((detail b).occurredAt, (detail b).id)) = le
  have hsorted : (rows.mergeSort le).Pairwise fun a b => le a b = true := by
    refine List.pairwise_mergeSort (fun a b c => ?_) (fun a b => ?_) rows
    · rw [← hle]
      exact newestFirst_trans _ _ _
    · rw [← hle]
      exact newestFirst_total _ _
  have hne : (rows.mergeSort le).Pairwise fun a b => (detail a).id ≠ (detail b).id :=
    List.pairwise_map.mp (((List.mergeSort_perm rows le).map _).nodup_iff.mpr hids)
  refine (hsorted.and hne).imp fun {a b} h => ?_
  obtain ⟨h, hid⟩ := h
  rw [← hle, newestFirst_iff] at h
  rcases h with h | ⟨hat, h⟩
  · exact .inl h
  · exact .inr ⟨hat.symm, lt_of_le_of_ne h (Ne.symm hid)⟩

/-- What one shard answers: the start of its selected events after the place. -/
structure ShardPart (toLowerCase : String → String) (tables : ReportTables)
    (query : UsageReportQuery) (before : Option UsageEventPosition) (includeEqualId : Bool)
    (part : List PersonalUsageEvent) : Prop where
  answer : ∀ limit, queryUsageEvents toLowerCase tables query limit before includeEqualId =
    some (part.take (limit + 1))
  inOrder : part.Pairwise InOrder
  mem : ∀ event, event ∈ part ↔ tables.Holds toLowerCase query event ∧
    beforePosition before includeEqualId event.occurredAt event.id = true

section

variable (hbounded : query.bounded = true)
include hbounded

theorem projection_part
    (hcomplete : tables.projectionComplete = true) (before : Option UsageEventPosition)
      (includeEqualId : Bool) :
    ∃ part, ShardPart toLowerCase tables query before includeEqualId part := by
  generalize hselected : (tables.report.rows.filter fun row =>
    query.owns row.tenantId row.policyId row.principalKey row.detail.occurredAt &&
      query.filters.select row.detail.scalar &&
      beforePosition before includeEqualId row.detail.occurredAt row.id) = selected
  refine ⟨(selected.mergeSort fun a b => newestFirst (a.detail.occurredAt, a.id)
    (b.detail.occurredAt, b.id)).map (·.detail), fun limit => ?_, ?_, fun event => ?_⟩
  · unfold queryUsageEvents newestPage
    rw [if_pos hbounded, if_pos hcomplete, hselected, List.map_take]
  · refine inOrder_mergeSort ?_
    rw [← hselected]
    exact tables.report.nodup.sublist (List.filter_sublist.map _)
  · unfold ReportTables.Holds
    rw [if_pos hcomplete, List.mem_map]
    constructor
    · rintro ⟨row, hrow, rfl⟩
      rw [List.mem_mergeSort, ← hselected, List.mem_filter, Bool.and_eq_true, Bool.and_eq_true] at hrow
      exact ⟨⟨row, hrow.1, rfl, hrow.2.1.1, hrow.2.1.2⟩, hrow.2.2⟩
    · rintro ⟨⟨row, hrow, rfl, howns, hselect⟩, hbefore⟩
      refine ⟨row, ?_, rfl⟩
      rw [List.mem_mergeSort, ← hselected, List.mem_filter, Bool.and_eq_true, Bool.and_eq_true]
      exact ⟨hrow, ⟨howns, hselect⟩, hbefore⟩

theorem ledger_page (hcomplete : tables.projectionComplete = false) (limit : Nat)
    (before : Option UsageEventPosition) (includeEqualId : Bool) :
    queryUsageEvents toLowerCase tables query limit before includeEqualId =
      (newestPage (·.occurredAtMs) (·.id) limit (tables.ledger.rows.filter fun event =>
        query.filters.select (source (owned event)) &&
          (query.owns event.tenantId event.policyId (ledgerPrincipalKey toLowerCase event)
            event.occurredAtMs &&
          beforePosition before includeEqualId event.occurredAtMs event.id))).mapM projectUsageEvent := by
  unfold queryUsageEvents
  rw [if_pos hbounded, hcomplete, if_neg Bool.false_ne_true]
  cases hempty : query.filters.isEmpty with
  | true =>
    rw [if_pos rfl]
    refine congrArg (fun rows => (newestPage (·.occurredAtMs) (·.id) limit rows).mapM
      projectUsageEvent) (List.filter_congr fun event _ => ?_)
    rw [select_of_isEmpty hempty, Bool.true_and]
  | false =>
    rw [if_neg Bool.false_ne_true, List.filter_map, List.filter_filter]
    exact congrArg (List.mapM projectUsageEvent) (page_join limit _)

theorem ledger_part (hcomplete : tables.projectionComplete = false)
    (hprojects : ∀ stored ∈ tables.ledger.rows, (projectUsageEvent stored).isSome = true)
    (before : Option UsageEventPosition) (includeEqualId : Bool) :
    ∃ part, ShardPart toLowerCase tables query before includeEqualId part := by
  generalize hselected : (tables.ledger.rows.filter fun event =>
    query.filters.select (source (owned event)) &&
      (query.owns event.tenantId event.policyId (ledgerPrincipalKey toLowerCase event) event.occurredAtMs &&
      beforePosition before includeEqualId event.occurredAtMs event.id)) = selected
  have hstored : ∀ stored ∈ selected, stored ∈ tables.ledger.rows := by
    intro stored h
    rw [← hselected] at h
    exact (List.mem_filter.mp h).1
  have hsome : ∀ stored ∈ selected, projectUsageEvent stored = some
    ((projectUsageEvent stored).getD default) := by
    intro stored h
    obtain ⟨detail, hdetail⟩ := Option.isSome_iff_exists.mp (hprojects stored (hstored stored h))
    rw [hdetail]
    rfl
  have hplace : ∀ stored ∈ selected, ((projectUsageEvent stored).getD default).occurredAt =
    stored.occurredAtMs ∧
        ((projectUsageEvent stored).getD default).id = stored.id := by
    intro stored h
    exact (projectUsageEvent_place (hsome stored h)).symm
  refine ⟨(selected.map fun stored => (projectUsageEvent stored).getD default).mergeSort
    fun a b => newestFirst (a.occurredAt, a.id) (b.occurredAt, b.id), fun limit => ?_, ?_,
    fun event => ?_⟩
  · rw [ledger_page hbounded hcomplete, hselected, mapM_eq_some fun stored h =>
      hsome stored (mem_newestPage h), ← newestPage_map limit hplace]
    rfl
  · have hids : ((selected.map fun stored => (projectUsageEvent stored).getD default).map
        fun event => event.id).Nodup := by
      have e : (selected.map fun stored => ((projectUsageEvent stored).getD default).id) =
          selected.map UsageEvent.id := List.map_congr_left fun stored h => (hplace stored h).2
      rw [List.map_map]
      show (selected.map fun stored => ((projectUsageEvent stored).getD default).id).Nodup
      rw [e, ← hselected]
      exact tables.ledger.nodup.sublist (List.filter_sublist.map _)
    have hordered := @inOrder_mergeSort _ id _ hids
    rwa [List.map_id] at hordered
  · unfold ReportTables.Holds
    rw [hcomplete, if_neg Bool.false_ne_true, List.mem_mergeSort, List.mem_map]
    constructor
    · rintro ⟨stored, h, rfl⟩
      have hmem := h
      rw [← hselected, List.mem_filter, Bool.and_eq_true, Bool.and_eq_true] at hmem
      refine ⟨⟨stored, hmem.1, hsome stored h, hmem.2.2.1, hmem.2.1⟩, ?_⟩
      rw [(hplace stored h).1, (hplace stored h).2]
      exact hmem.2.2.2
    · rintro ⟨⟨stored, h, hproject, howns, hselect⟩, hbefore⟩
      obtain ⟨hid, hat⟩ := projectUsageEvent_place hproject
      refine ⟨stored, ?_, by rw [hproject]; rfl⟩
      rw [hid, hat] at hbefore
      rw [← hselected, List.mem_filter, Bool.and_eq_true, Bool.and_eq_true]
      exact ⟨h, hselect, howns, hbefore⟩

theorem shard_part (hprojects : ∀ stored ∈ tables.ledger.rows, (projectUsageEvent stored).isSome = true)
    (before : Option UsageEventPosition) (includeEqualId : Bool) :
    ∃ part, ShardPart toLowerCase tables query before includeEqualId part := by
  cases hcomplete : tables.projectionComplete with
  | true => exact projection_part hbounded hcomplete before includeEqualId
  | false => exact ledger_part hbounded hcomplete hprojects before includeEqualId

end

end Shard

/-! ## 4. All shards -/

section Merge

variable {policies : List Policy} {part : Policy → List PersonalUsageEvent}

/-- The occurrences of one shard, and of all of them. -/
def shardOccurrences (part : Policy → List PersonalUsageEvent) (p : Policy) : List Occurrence :=
  (part p).map fun event => ⟨event, shardName p⟩

def family (policies : List Policy) (part : Policy → List PersonalUsageEvent) : List Occurrence :=
  ((uniquePolicies policies).map (shardOccurrences part)).flatten

theorem mem_family {o : Occurrence} : o ∈ family policies part ↔
    ∃ p ∈ policies, o.shard = shardName p ∧ o.event ∈ part p := by
  unfold family shardOccurrences
  rw [List.mem_flatten]
  constructor
  · rintro ⟨_, hpart, ho⟩
    obtain ⟨p, hp, rfl⟩ := List.mem_map.mp hpart
    obtain ⟨event, hevent, rfl⟩ := List.mem_map.mp ho
    exact ⟨p, mem_uniquePolicies.mp hp, rfl, hevent⟩
  · rintro ⟨p, hp, hshard, hevent⟩
    refine ⟨_, List.mem_map_of_mem (mem_uniquePolicies.mpr hp), ?_⟩
    exact List.mem_map.mpr ⟨o.event, hevent, by rw [← hshard]⟩

theorem inOrder_place {events : List PersonalUsageEvent} (h : events.Pairwise InOrder)
    {a b : PersonalUsageEvent} (ha : a ∈ events) (hb : b ∈ events)
    (hat : a.occurredAt = b.occurredAt) (hid : a.id = b.id) : a = b := by
  induction events with
  | nil => cases ha
  | cons e events ih =>
    obtain ⟨hfirst, hrest⟩ := List.pairwise_cons.mp h
    have hno : ∀ c ∈ events, ¬ (e.occurredAt = c.occurredAt ∧ e.id = c.id) := by
      rintro c hc ⟨hat, hid⟩
      rcases hfirst c hc with hlt | ⟨-, hlt⟩
      · omega
      · rw [hid] at hlt
        exact lt_irrefl _ hlt
    rcases List.mem_cons.mp ha with rfl | ha'
    · rcases List.mem_cons.mp hb with rfl | hb'
      · rfl
      · exact absurd ⟨hat, hid⟩ (hno b hb')
    · rcases List.mem_cons.mp hb with rfl | hb'
      · exact absurd ⟨hat.symm, hid.symm⟩ (hno a ha')
      · exact ih hrest ha' hb'

theorem family_place (hpart : ∀ p ∈ policies, (part p).Pairwise InOrder) :
    ∀ a ∈ family policies part, ∀ b ∈ family policies part, a.place = b.place → a = b := by
  intro a ha b hb h
  obtain ⟨p, hp, hpa, ha⟩ := mem_family.mp ha
  obtain ⟨p', hp', hpb, hb⟩ := mem_family.mp hb
  have hplace := toLex_inj.mp h
  rw [Prod.mk.injEq] at hplace
  have hrest := toLex_inj.mp hplace.2
  rw [Prod.mk.injEq] at hrest
  have hshard : shardName p = shardName p' := by rw [← hpa, ← hpb, hrest.2]
  cases shardName_injective hshard
  cases a
  cases b
  rw [Occurrence.mk.injEq]
  exact ⟨inOrder_place (hpart p hp) ha hb hplace.1 hrest.1, hrest.2⟩

theorem shardOccurrences_ordered {p : Policy} (hpart : (part p).Pairwise InOrder) :
    Ordered occurrenceBefore (shardOccurrences part p) := by
  unfold Ordered shardOccurrences
  rw [List.pairwise_map]
  refine hpart.imp fun {a b} h => ?_
  rw [occurrenceBefore_iff]
  rcases h with h | ⟨hat, hid⟩
  · exact .inl h
  · exact .inr ⟨hat, .inl (Utf8.compareBytes_neg.mpr hid)⟩

section

variable (hpart : ∀ p ∈ policies, (part p).Pairwise InOrder)
include hpart

theorem family_nodup : (family policies part).Nodup := by
  refine List.nodup_flatten.mpr ⟨fun l hl => ?_, ?_⟩
  · obtain ⟨p, hp, rfl⟩ := List.mem_map.mp hl
    exact (shardOccurrences_ordered (hpart p (mem_uniquePolicies.mp hp))).nodup occurrenceBefore_strict
  · rw [List.pairwise_map]
    refine (uniquePolicies_nodup policies).imp fun {p p'} hne => ?_
    intro o ho ho'
    obtain ⟨_, -, rfl⟩ := List.mem_map.mp ho
    obtain ⟨_, -, e⟩ := List.mem_map.mp ho'
    exact hne (shardName_injective (congrArg Occurrence.shard e).symm)

theorem exists_ordered : ∃ rows, Ordered occurrenceBefore rows ∧ rows.Perm (family policies part) :=
  ⟨_, ordered_mergeSort (family_nodup hpart) (family_place hpart), List.mergeSort_perm _ _⟩

theorem merged_page {rest : List Occurrence} (hrest : Ordered occurrenceBefore rest)
    (hmem : ∀ o, o ∈ rest ↔ ∃ p ∈ policies, o.shard = shardName p ∧ o.event ∈ part p) (limit : Nat) :
    mergeUsageEvents ((uniquePolicies policies).map fun p => ⟨shardName p, (part p).take (limit + 1)⟩) limit =
      ⟨(rest.take limit).map (·.event), (rest.take limit).getLast?.map (·.shard), limit < rest.length⟩ := by
  have hperm : rest.Perm (family policies part) :=
    (List.perm_ext_iff_of_nodup (hrest.nodup occurrenceBefore_strict)
      (family_nodup hpart)).mpr fun o => (hmem o).trans mem_family.symm
  have hcut : (((uniquePolicies policies).map fun p =>
      EventShard.mk (shardName p) ((part p).take (limit + 1))).flatMap fun s =>
        s.events.map fun event => Occurrence.mk event s.shard) =
      ((uniquePolicies policies).map (shardOccurrences part)).flatMap (List.take (limit + 1)) := by
    rw [List.flatMap_map, List.flatMap_map]
    refine List.flatMap_congr fun p _ => ?_
    unfold shardOccurrences
    rw [List.map_take]
  have hsub : (((uniquePolicies policies).map (shardOccurrences part)).flatMap
      (List.take (limit + 1))).Sublist (family policies part) := by
    unfold family
    rw [← List.flatMap_id]
    exact List.Sublist.flatMap_right _ fun l _ => List.take_sublist _ l
  have hmerged := ordered_mergeSort ((family_nodup hpart).sublist hsub) fun a ha b hb =>
    family_place hpart a (hsub.subset ha) b (hsub.subset hb)
  have hparts : ∀ l ∈ (uniquePolicies policies).map (shardOccurrences part), Ordered occurrenceBefore l := by
    intro l hl
    obtain ⟨p, hp, rfl⟩ := List.mem_map.mp hl
    exact shardOccurrences_ordered (hpart p (mem_uniquePolicies.mp hp))
  obtain ⟨htake, hlength⟩ := take_merge occurrenceBefore_strict hparts hrest
    (fun o => hperm.mem_iff.trans List.mem_flatten) hmerged
    fun o => List.mem_mergeSort.trans List.mem_flatMap
  unfold mergeUsageEvents
  dsimp only
  rw [hcut]
  generalize ((((uniquePolicies policies).map (shardOccurrences part)).flatMap
    (List.take (limit + 1))).mergeSort fun a b => compareOccurrences a b ≤ 0) = merged
    at htake hlength
  have hselected : merged.take limit = rest.take limit := by
    have h := congrArg (List.take limit) htake
    rw [List.take_take, List.take_take, min_eq_left (Nat.le_succ limit)] at h
    exact h
  rw [hselected, MergedEvents.mk.injEq]
  refine ⟨rfl, rfl, ?_⟩
  rw [decide_eq_decide]
  exact hlength

end

end Merge

/-! ## 5. Requests -/

section Requests

variable {env : ReportEnv} {policies : List Policy} {principalId principal : String}
  {params : UsageReportParams} {query : ParsedUsageQuery}

theorem parseUsageReportRange_ok {tools : UsageDateTools} {range : UsageRangeParams} {now : Int}
    {r : UsageReportRange} (h : parseUsageReportRange tools range now = .ok r) : r.rangeTo ≤ now := by
  unfold parseUsageReportRange at h
  simp only [bind_ok, require_ok, pure_ok] at h
  obtain ⟨-, -, -, -, -, -, -, hto, -, -, rfl⟩ := h
  exact of_decide_eq_true hto

theorem parseUsageReportQuery_ok {tools : UsageDateTools} {now : Int}
    (h : parseUsageReportQuery tools params now = .ok query) :
    query.range.rangeTo ≤ now ∧ 0 < query.limit := by
  unfold parseUsageReportQuery at h
  simp only [bind_ok, require_ok, pure_ok, Bool.and_eq_true, decide_eq_true_eq] at h
  obtain ⟨-, -, -, -, -, hlimit, range, hrange, rfl⟩ := h
  refine ⟨parseUsageReportRange_ok hrange, ?_⟩
  show 0 < params.limit.toNat
  omega

/-- An event of one of the shards that belongs to the query. -/
def Matches (env : ReportEnv) (principal : String) (query : ParsedUsageQuery)
    (policies : List Policy) (o : Occurrence) : Prop :=
  ∃ p ∈ policies, o.shard = shardName p ∧ (env.shards p).Holds env.toLowerCase
    (query.forShard principal query.range.rangeFrom p) o.event

/-- What the requests can see does not change: none comes after the cursors have expired, and
    retention passes no event of the query meanwhile. -/
structure Steady (env : ReportEnv) (principal : String) (query : ParsedUsageQuery)
    (policies : List Policy) (times : Nat → Int) : Prop where
  served : ∀ i, times 0 ≤ times i ∧ times i - times 0 ≤ reportRetentionMs
  kept : ∀ i o, Matches env principal query policies o →
    times i - reportRetentionMs ≤ o.event.occurredAt

theorem forShard_bounded {now : Int} (hto : query.range.rangeTo ≤ now) (p : Policy) :
    (query.forShard principal (query.range.sqlFrom now) p).bounded = true := by
  unfold UsageReportQuery.bounded UsageReportRange.sqlFrom
  rw [Bool.and_eq_true, decide_eq_true_eq, decide_eq_true_eq]
  show min query.range.rangeTo _ ≤ query.range.rangeTo ∧
    query.range.rangeTo - min query.range.rangeTo _ ≤ reportRetentionMs
  unfold reportRetentionMs reportDayMs
  omega

section Holds

variable {tables : ReportTables} {toLowerCase : String → String} {rangeFrom start : Int}
  {p : Policy} {event : PersonalUsageEvent}

theorem owns_forShard {tenantId policyId : String} {principalKey : Option String} {at' : Int} :
    (query.forShard principal rangeFrom p).owns tenantId policyId principalKey at' = true ↔
      (tenantId = p.tenantId ∧ policyId = p.policyId ∧ principalKey = some principal) ∧
        rangeFrom ≤ at' ∧ at' < query.range.rangeTo := by
  unfold UsageReportQuery.owns ParsedUsageQuery.forShard
  simp [and_assoc]

theorem holds_forShard : tables.Holds toLowerCase (query.forShard principal rangeFrom p) event →
      (rangeFrom ≤ event.occurredAt ∧ event.occurredAt < query.range.rangeTo) ∧ (start ≤ event.occurredAt →
          tables.Holds toLowerCase (query.forShard principal start p) event) := by
  unfold ReportTables.Holds
  by_cases hcomplete : tables.projectionComplete
  · rw [if_pos hcomplete]
    rintro ⟨row, hrow, rfl, howns, hselect⟩
    obtain ⟨howner, hrange⟩ := owns_forShard.mp howns
    refine ⟨hrange, fun hstart => ?_⟩
    rw [if_pos hcomplete]
    exact ⟨row, hrow, rfl, owns_forShard.mpr ⟨howner, hstart, hrange.2⟩, hselect⟩
  · rw [if_neg hcomplete]
    rintro ⟨stored, hstored, hproject, howns, hselect⟩
    obtain ⟨howner, hrange⟩ := owns_forShard.mp howns
    rw [(projectUsageEvent_place hproject).2]
    refine ⟨hrange, fun hstart => ?_⟩
    rw [if_neg hcomplete]
    exact ⟨stored, hstored, hproject, owns_forShard.mpr ⟨howner, hstart, hrange.2⟩, hselect⟩

theorem holds_sqlFrom {now : Int} (hkept : tables.Holds toLowerCase
      (query.forShard principal query.range.rangeFrom p) event → now - reportRetentionMs ≤ event.occurredAt) :
    tables.Holds toLowerCase (query.forShard principal (query.range.sqlFrom now) p) event ↔
      tables.Holds toLowerCase (query.forShard principal query.range.rangeFrom p) event := by
  unfold UsageReportRange.sqlFrom
  constructor
  · intro h
    obtain ⟨hrange, hstart⟩ : _ ∧ (query.range.rangeFrom ≤ event.occurredAt → _) := holds_forShard h
    exact hstart (by omega)
  · intro h
    have := hkept h
    obtain ⟨hrange, hstart⟩ : _ ∧ (min query.range.rangeTo
      (max query.range.rangeFrom (now - reportRetentionMs)) ≤ event.occurredAt → _) := holds_forShard h
    exact hstart (by omega)

end Holds

def cursorAt (binding : String) (anchor : Int) (o : Occurrence) : Cursor :=
  ⟨binding, ⟨o.event.occurredAt, o.event.id⟩, o.shard, anchor⟩

/-- The condition of the shards on what is after a cursor. -/
def afterCursor (cursor : Option Cursor) (o : Occurrence) : Bool :=
  beforePosition (cursor.map (·.position))
    (cursor.any fun c => compareUsageIds o.shard c.shard < 0) o.event.occurredAt o.event.id

theorem afterCursor_cursorAt {binding : String} {anchor : Int} {p o : Occurrence} :
    afterCursor (some (cursorAt binding anchor p)) o = occurrenceBefore p o := by
  rw [Bool.eq_iff_iff, occurrenceBefore_iff]
  unfold afterCursor cursorAt beforePosition Newer compareUsageIds
  simp only [Option.map_some, Option.any_some, Utf8.compareBytes_neg, Bool.or_eq_true,
    Bool.and_eq_true, decide_eq_true_eq, beq_iff_eq]
  by_cases hshard : o.shard < p.shard
  · rw [if_pos hshard, decide_eq_true_eq, le_iff_lt_or_eq]
    simp [hshard]
  · rw [if_neg hshard, decide_eq_true_eq]
    simp [hshard]

theorem nextCursor_of_selected (selected : List Occurrence) (hasMore : Bool) (binding : String)
    (anchor : Int) :
    (MergedEvents.mk (selected.map (·.event)) (selected.getLast?.map (·.shard)) hasMore).nextCursor
      binding anchor =
      if hasMore then selected.getLast?.map fun o => encodeCursor (cursorAt binding anchor o) else none := by
  unfold MergedEvents.nextCursor
  rw [List.getLast?_map]
  cases selected.getLast? with
  | none => rfl
  | some last => rfl

variable {anchor now : Int} {text : Option CursorText} {cursor : Option Cursor}

theorem request_page (hprincipal : Usage.normalizeEmail env.toLowerCase principalId = some principal)
    (hquery : parseUsageReportQuery (env.dateTools params.range.timezone) params anchor = .ok query)
    (hprojects : ∀ p ∈ policies, ∀ stored ∈ (env.shards p).ledger.rows,
      (projectUsageEvent stored).isSome = true)
    (hdecode : text.mapM decodeCursor = .ok cursor) (hcurrent : cursor.all (·.current now) = true)
    (hanchor : (cursor.map (·.now)).getD now = anchor) (hnow : anchor ≤ now)
    (hbinding : cursor.all (·.binding = cursorBinding env.digest principal policies query) = true)
    (hkept : ∀ o, Matches env principal query policies o → now - reportRetentionMs ≤ o.event.occurredAt)
    {rest : List Occurrence} (hrest : Ordered occurrenceBefore rest)
    (hmem : ∀ o, o ∈ rest ↔ Matches env principal query policies o ∧ afterCursor cursor o = true) :
    ∃ page, personalUsageEvents env policies principalId params text now = .ok page ∧
      Serves PersonalUsageEvents.events PersonalUsageEvents.nextCursor Occurrence.event (fun o => encodeCursor
          (cursorAt (cursorBinding env.digest principal policies query) anchor o)) query.limit rest page := by
  obtain ⟨hto, -⟩ := parseUsageReportQuery_ok hquery
  have hparts : ∀ p, ∃ part, p ∈ policies → ShardPart env.toLowerCase (env.shards p)
      (query.forShard principal (query.range.sqlFrom now) p) (cursor.map (·.position))
      (cursor.any fun c => compareUsageIds (shardName p) c.shard < 0) part := by
    intro p
    by_cases hp : p ∈ policies
    · obtain ⟨part, hpart⟩ := shard_part (forShard_bounded (hto.trans hnow) p) (hprojects p hp)
        (cursor.map (·.position)) (cursor.any fun c => compareUsageIds (shardName p) c.shard < 0)
      exact ⟨part, fun _ => hpart⟩
    · exact ⟨[], fun h => absurd h hp⟩
  choose part hpart using hparts
  have hfetch : mapUsageShards policies (fetchEvents env principal query cursor now) =
      .ok ((uniquePolicies policies).map fun p =>
        ⟨shardName p, (part p).take (query.limit + 1)⟩) := by
    refine mapM_ok fun p hp => ?_
    unfold fetchEvents
    dsimp only
    rw [(hpart p (mem_uniquePolicies.mp hp)).answer]
    rfl
  have hmembers : ∀ o, o ∈ rest ↔ ∃ p ∈ policies, o.shard = shardName p ∧ o.event ∈ part p := by
    intro o
    rw [hmem]
    constructor
    · rintro ⟨⟨p, hp, hshard, hholds⟩, hafter⟩
      refine ⟨p, hp, hshard, ((hpart p hp).mem o.event).mpr ⟨?_, ?_⟩⟩
      · exact (holds_sqlFrom fun h => hkept o ⟨p, hp, hshard, h⟩).mpr hholds
      · rw [← hshard]
        exact hafter
    · rintro ⟨p, hp, hshard, hevent⟩
      obtain ⟨hholds, hafter⟩ := ((hpart p hp).mem o.event).mp hevent
      refine ⟨⟨p, hp, hshard, ?_⟩, ?_⟩
      · exact (holds_sqlFrom fun h => hkept o ⟨p, hp, hshard, h⟩).mp hholds
      · unfold afterCursor
        rw [hshard]
        exact hafter
  have hmerged := merged_page (fun p hp => (hpart p hp).inOrder) hrest hmembers query.limit
  generalize ((uniquePolicies policies).map fun p =>
    EventShard.mk (shardName p) ((part p).take (query.limit + 1))) = shards at hfetch hmerged
  refine ⟨⟨(mergeUsageEvents shards query.limit).events, (mergeUsageEvents shards
    query.limit).nextCursor (cursorBinding env.digest principal policies query) anchor⟩, ?_, ?_, ?_⟩
  · unfold personalUsageEvents
    simp only [bind_ok, demand_ok, require_ok, pure_ok]
    refine ⟨principal, hprincipal, cursor, hdecode, (), hcurrent, query, ?_, (), hbinding, _, hfetch, ?_⟩
    · rw [hanchor]
      exact hquery
    · rw [hanchor]
  · rw [hmerged]
  · rw [hmerged]
    rw [nextCursor_of_selected]
    by_cases hmore : query.limit < rest.length
    · rw [if_pos (decide_eq_true hmore), if_pos hmore]
    · rw [if_neg (by rwa [decide_eq_true_eq]), if_neg hmore]

end Requests

/-! ## 6. Following the cursors -/

section Pages

variable {env : ReportEnv} {policies : List Policy} {principalId principal : String}
  {params : UsageReportParams} {query : ParsedUsageQuery} {times : Nat → Int}

/-- The requests of a reader, each at its own time. -/
def requests (env : ReportEnv) (policies : List Policy) (principalId : String)
    (params : UsageReportParams) (times : Nat → Int) (i : Nat) (text : Option CursorText) :
    Answer PersonalUsageEvents :=
  personalUsageEvents env policies principalId params text (times i)

/-- Following the cursors ends, and has then listed every event of the query once, newest first;
    a page has no cursor exactly if the list ends with it. -/
def PagesExact (env : ReportEnv) (policies : List Policy) (principalId : String)
    (params : UsageReportParams) (times : Nat → Int) (principal : String)
    (query : ParsedUsageQuery) : Prop :=
  ∃ occurrences : List Occurrence, occurrences.Pairwise Newer ∧
    (∀ o, o ∈ occurrences ↔ Matches env principal query policies o) ∧
    (∃ pages, Follow (requests env policies principalId params times) PersonalUsageEvents.nextCursor
      0 none pages) ∧
    ∀ pages, Follow (requests env policies principalId params times) PersonalUsageEvents.nextCursor
      0 none pages →
        Exact PersonalUsageEvents.events PersonalUsageEvents.nextCursor Occurrence.event occurrences pages

theorem exists_occurrences (hquery : parseUsageReportQuery (env.dateTools params.range.timezone)
    params (times 0) =
      .ok query) (hprojects : ∀ p ∈ policies, ∀ stored ∈ (env.shards p).ledger.rows,
      (projectUsageEvent stored).isSome = true) (hsteady : Steady env principal query policies times) :
    ∃ rows, Ordered occurrenceBefore rows ∧ ∀ o, o ∈ rows ↔ Matches env principal query policies o := by
  obtain ⟨hto, -⟩ := parseUsageReportQuery_ok hquery
  have hparts : ∀ p, ∃ part, p ∈ policies → ShardPart env.toLowerCase (env.shards p)
      (query.forShard principal (query.range.sqlFrom (times 0)) p) none false part := by
    intro p
    by_cases hp : p ∈ policies
    · obtain ⟨part, hpart⟩ := shard_part (forShard_bounded hto p) (hprojects p hp) none false
      exact ⟨part, fun _ => hpart⟩
    · exact ⟨[], fun h => absurd h hp⟩
  choose part hpart using hparts
  obtain ⟨rows, hrows, hperm⟩ := exists_ordered fun p hp => (hpart p hp).inOrder
  refine ⟨rows, hrows, fun o => ?_⟩
  rw [hperm.mem_iff, mem_family]
  constructor
  · rintro ⟨p, hp, hshard, hevent⟩
    refine ⟨p, hp, hshard, ?_⟩
    exact (holds_sqlFrom fun h => hsteady.kept 0 o ⟨p, hp, hshard, h⟩).mp
      (((hpart p hp).mem o.event).mp hevent).1
  · rintro ⟨p, hp, hshard, hholds⟩
    refine ⟨p, hp, hshard, ((hpart p hp).mem o.event).mpr ⟨?_, rfl⟩⟩
    exact (holds_sqlFrom fun h => hsteady.kept 0 o ⟨p, hp, hshard, h⟩).mpr hholds

theorem first_page (hprincipal : Usage.normalizeEmail env.toLowerCase principalId = some principal)
    (hquery : parseUsageReportQuery (env.dateTools params.range.timezone) params (times 0) = .ok query)
    (hprojects : ∀ p ∈ policies, ∀ stored ∈ (env.shards p).ledger.rows,
      (projectUsageEvent stored).isSome = true)
    (hsteady : Steady env principal query policies times) {rows : List Occurrence}
    (hrows : Ordered occurrenceBefore rows) (hmem : ∀ o, o ∈ rows ↔ Matches env principal query policies o) :
    ∃ page, requests env policies principalId params times 0 none = .ok page ∧
      Serves PersonalUsageEvents.events PersonalUsageEvents.nextCursor Occurrence.event (fun o => encodeCursor
          (cursorAt (cursorBinding env.digest principal policies query) (times 0) o)) query.limit
            rows page := by
  refine request_page hprincipal hquery hprojects
    (show Option.mapM decodeCursor none = .ok none from rfl) rfl rfl (Int.le_refl _) rfl
    (hsteady.kept 0) hrows fun o => ?_
  rw [hmem]
  exact ⟨fun h => ⟨h, rfl⟩, fun h => h.1⟩

/-- **Cross-shard pagination is exact** for events that cursors can name. -/
theorem event_pages_exact (hprincipal : Usage.normalizeEmail env.toLowerCase principalId = some principal)
    (hquery : parseUsageReportQuery (env.dateTools params.range.timezone) params (times 0) = .ok query)
    (hprojects : ∀ p ∈ policies, ∀ stored ∈ (env.shards p).ledger.rows,
      (projectUsageEvent stored).isSome = true)
    (hsteady : Steady env principal query policies times)
      (hfits : ∀ o, Matches env principal query policies o →
      (cursorAt (cursorBinding env.digest principal policies query) (times 0) o).Fits) :
    PagesExact env policies principalId params times principal query := by
  obtain ⟨rows, hrows, hmem⟩ := exists_occurrences hquery hprojects hsteady
  have hnext : ∀ i pre p post, rows = pre ++ p :: post →
      ∃ page, requests env policies principalId params times (i + 1) (some (encodeCursor
          (cursorAt (cursorBinding env.digest principal policies query) (times 0) p))) = .ok page ∧
        Serves PersonalUsageEvents.events PersonalUsageEvents.nextCursor Occurrence.event
          (fun o => encodeCursor
            (cursorAt (cursorBinding env.digest principal policies query) (times 0) o))
          query.limit post page := by
    intro i pre p post hsplit
    have hp : p ∈ rows := by
      rw [hsplit]
      exact List.mem_append_right pre List.mem_cons_self
    have hafter : rows.filter (occurrenceBefore p) = post := by
      rw [hsplit] at hrows ⊢
      exact filter_after occurrenceBefore_strict hrows
    have hdecode : (some (encodeCursor (cursorAt (cursorBinding env.digest principal policies query)
        (times 0) p))).mapM decodeCursor =
          .ok (some (cursorAt (cursorBinding env.digest principal policies query) (times 0) p)) := by
      have h := decodeCursor_encodeCursor (hfits p ((hmem p).mp hp))
      simp only [Option.mapM_some, h]
      rfl
    obtain ⟨hserved, hexpiry⟩ := hsteady.served (i + 1)
    have hcurrent : (cursorAt (cursorBinding env.digest principal policies query) (times 0)
        p).current (times (i + 1)) = true := by
      unfold Cursor.current
      rw [Bool.and_eq_true, decide_eq_true_eq, decide_eq_true_eq]
      exact ⟨hserved, hexpiry⟩
    refine request_page hprincipal hquery hprojects hdecode hcurrent rfl hserved
      (decide_eq_true rfl) (hsteady.kept (i + 1)) ?_ fun o => ?_
    · rw [← hafter]
      exact hrows.sublist List.filter_sublist
    · rw [← hafter, List.mem_filter, hmem, afterCursor_cursorAt]
  obtain ⟨pages, hfollow, hexact⟩ := follow_exact (parseUsageReportQuery_ok hquery).2
    (first_page hprincipal hquery hprojects hsteady hrows hmem) hnext
  refine ⟨rows, hrows.imp fun h => occurrenceBefore_iff.mp h, hmem, ⟨pages, hfollow⟩, ?_⟩
  intro pages' hfollow'
  rw [← hfollow.unique hfollow']
  exact hexact

theorem fits_of_request {cursor : Cursor} {now : Int} {page : PersonalUsageEvents}
    (h : personalUsageEvents env policies principalId params (some (encodeCursor cursor)) now =
      .ok page) : cursor.Fits := by
  unfold personalUsageEvents at h
  simp only [bind_ok, demand_ok, Option.mapM_some] at h
  obtain ⟨-, -, decoded, hdecoded, -⟩ := h
  cases hdecode : decodeCursor (encodeCursor cursor) with
  | error e =>
    rw [hdecode] at hdecoded
    cases hdecoded
  | ok cursor' => exact (decodeCursor_ok.mp hdecode).1

end Pages

section Example

/-- An event of one id, in the shard of a policy. -/
def sharedEvent (id : String) (policy : Policy) : UsageEvent where
  id :=
  id
  occurredAtMs := 1700000000000
  tenantId := policy.tenantId
  policyId := policy.policyId
  provider := "openai"
  status := "success"
  json := .obj [("principal_id", .str "Ada@example.com")]

def sharedDetail (id : String) : PersonalUsageEvent :=
  (projectUsageEvent (sharedEvent id ⟨"", ""⟩)).getD default

def sharedEnv (id : String) : ReportEnv where
  toLowerCase :=
  lowerCase
  dateTools := fun _ => ⟨fun _ => "2023-11-14", fun _ => 1700000001000, fun date => date⟩
  digest := fun _ => "binding"
  shards := fun policy =>
    ⟨⟨[sharedEvent id policy], List.nodup_singleton _⟩, ⟨[], List.nodup_nil⟩, false⟩

def twoPolicies : List Policy := [⟨"tenant", "a"⟩, ⟨"tenant", "b"⟩]

def weekParams : UsageReportParams :=
  ⟨⟨none, none, none, none, "UTC"⟩, .model, ⟨none, none, none, none, none, none⟩, 1⟩

def weekQuery : ParsedUsageQuery :=
  ⟨⟨1699395201000, 1700000001000, "UTC", 1697408001000, false,
    [⟨1699395201000, 1700000001000, "2023-11-14"⟩]⟩, .model,
    ⟨none, none, none, none, none, none⟩, 1⟩

def oneTime : Nat → Int := fun _ => 1700000001000

theorem week_query (id : String) :
    parseUsageReportQuery ((sharedEnv id).dateTools weekParams.range.timezone) weekParams
      (oneTime 0) = .ok weekQuery := rfl

theorem shared_principal (id : String) :
    Usage.normalizeEmail (sharedEnv id).toLowerCase "ada@example.com" = some "ada@example.com" := by
  have h : Usage.normalizeEmail lowerCase "ada@example.com" = some "ada@example.com" := by
    decide
  exact h

theorem project_shared (id : String) (policy : Policy) :
    projectUsageEvent (sharedEvent id policy) = some (sharedDetail id) := by
  have hcost : ∃ cost, reportingCost (sharedEvent id policy).json = some cost := by
    refine Option.isSome_iff_exists.mp ?_
    show (reportingCost (.obj [("principal_id", .str "Ada@example.com")])).isSome = true
    decide
  obtain ⟨cost, hcost⟩ := hcost
  have hcost' : reportingCost (sharedEvent id ⟨"", ""⟩).json = some cost := hcost
  unfold sharedDetail projectUsageEvent
  rw [hcost, hcost']
  rfl

/-- The two occurrences, the later shard first. -/
def sharedRows (id : String) : List Occurrence :=
  [⟨sharedDetail id, shardName ⟨"tenant", "b"⟩⟩, ⟨sharedDetail id, shardName ⟨"tenant", "a"⟩⟩]

section

variable (id : String)

theorem sharedRows_ordered : Ordered occurrenceBefore (sharedRows id) := by
  refine List.pairwise_pair.mpr ?_
  rw [occurrenceBefore_iff]
  refine .inr ⟨rfl, .inr ⟨rfl, ?_⟩⟩
  show compareUsageIds (shardName ⟨"tenant", "a"⟩) (shardName ⟨"tenant", "b"⟩) < 0
  decide

theorem owns_shared (policy : Policy) :
    (weekQuery.forShard "ada@example.com" weekQuery.range.rangeFrom policy).owns
      (sharedEvent id policy).tenantId (sharedEvent id policy).policyId
      (ledgerPrincipalKey lowerCase (sharedEvent id policy)) (sharedEvent id policy).occurredAtMs = true := by
  have hkey : (Usage.usageAttribution lowerCase
    (.obj [("principal_id", .str "Ada@example.com")])).principalKey =
        some "ada@example.com" := by
    decide
  have hkey : ledgerPrincipalKey lowerCase (sharedEvent id policy) = some "ada@example.com" := hkey
  have hrange : weekQuery.range.rangeFrom ≤ 1700000000000 ∧
    1700000000000 < weekQuery.range.rangeTo := by decide
  rw [hkey, owns_forShard]
  exact ⟨⟨rfl, rfl, rfl⟩, hrange⟩

theorem holds_shared (policy : Policy) (event : PersonalUsageEvent) :
    ((sharedEnv id).shards policy).Holds lowerCase
      (weekQuery.forShard "ada@example.com" weekQuery.range.rangeFrom policy) event ↔
        event = sharedDetail id := by
  have hincomplete : ¬ ((sharedEnv id).shards policy).projectionComplete = true := Bool.false_ne_true
  have hrows : ((sharedEnv id).shards policy).ledger.rows = [sharedEvent id policy] := rfl
  unfold ReportTables.Holds
  rw [if_neg hincomplete, hrows]
  constructor
  · rintro ⟨stored, hstored, hproject, -, -⟩
    rw [List.mem_singleton.mp hstored, project_shared] at hproject
    exact (Option.some_inj.mp hproject).symm
  · rintro rfl
    exact ⟨sharedEvent id policy, List.mem_singleton_self _, project_shared id policy,
      owns_shared id policy, select_of_isEmpty rfl _⟩

theorem mem_sharedRows (o : Occurrence) :
    o ∈ sharedRows id ↔ Matches (sharedEnv id) "ada@example.com" weekQuery twoPolicies o := by
  unfold sharedRows
  rw [List.mem_cons, List.mem_singleton]
  constructor
  · rintro (h | h)
    · rw [h]
      exact ⟨⟨"tenant", "b"⟩, List.mem_cons_of_mem _ (List.mem_singleton_self _), rfl,
        (holds_shared id _ _).mpr rfl⟩
    · rw [h]
      exact ⟨⟨"tenant", "a"⟩, List.mem_cons_self, rfl, (holds_shared id _ _).mpr rfl⟩
  · rintro ⟨p, hp, hshard, hholds⟩
    have hevent := (holds_shared id p o.event).mp hholds
    have ho : o = ⟨sharedDetail id, shardName p⟩ := by
      rw [← hshard, ← hevent]
    rcases List.mem_cons.mp hp with hp | hp
    · exact .inr (by rw [ho, hp])
    · exact .inl (by rw [ho, List.mem_singleton.mp hp])

theorem shared_projects : ∀ p ∈ twoPolicies,
    ∀ stored ∈ ((sharedEnv id).shards p).ledger.rows, (projectUsageEvent stored).isSome = true := by
  intro p _ stored hstored
  cases List.mem_singleton.mp hstored
  rw [project_shared]
  rfl

theorem shared_occurredAt : (sharedDetail id).occurredAt = 1700000000000 :=
  (projectUsageEvent_place (project_shared id ⟨"", ""⟩)).2

theorem shared_id : (sharedDetail id).id = id := (projectUsageEvent_place (project_shared id ⟨"", ""⟩)).1

theorem shared_steady : Steady (sharedEnv id) "ada@example.com" weekQuery twoPolicies oneTime where
  served := fun _ => by
    unfold oneTime
    decide
  kept := fun _ o h => by
    have hat : o.event.occurredAt = 1700000000000 := by
      rcases List.mem_cons.mp ((mem_sharedRows id o).mpr h) with rfl | h
      · exact shared_occurredAt id
      · cases List.mem_singleton.mp h
        exact shared_occurredAt id
    rw [hat]
    unfold oneTime
    decide

end

/-- **An id that no cursor holds ends the list before its end**: the first page names a cursor that
    is refused. -/
theorem long_id_ends_early : ¬ ∀ (env : ReportEnv) (policies : List Policy) (principalId : String)
    (params : UsageReportParams) (times : Nat → Int) (principal : String) (query : ParsedUsageQuery),
    Usage.normalizeEmail env.toLowerCase principalId = some principal →
    parseUsageReportQuery (env.dateTools params.range.timezone) params (times 0) = .ok query →
    (∀ p ∈ policies, ∀ stored ∈ (env.shards p).ledger.rows, (projectUsageEvent stored).isSome = true) →
    Steady env principal query policies times → PagesExact env policies principalId params times
      principal query := by
  intro hall
  generalize hid : String.ofList (List.replicate 8193 'a') = id
  have hlong : utf16Length id = 8193 := by
    rw [← hid]
    unfold utf16Length
    rw [String.toList_ofList, List.map_replicate, List.sum_replicate]
    rfl
  obtain ⟨page, hget, hpage⟩ := first_page (shared_principal id) (week_query id)
    (shared_projects id) (shared_steady id) (sharedRows_ordered id) (mem_sharedRows id)
  have hnext := hpage.next
  rw [if_pos (show weekQuery.limit < (sharedRows id).length from Nat.one_lt_two)] at hnext
  have hnext : page.nextCursor = some (encodeCursor (cursorAt "binding" 1700000001000
      ⟨sharedDetail id, shardName ⟨"tenant", "b"⟩⟩)) := hnext
  obtain ⟨-, -, -, ⟨pages, hfollow⟩, -⟩ := hall (sharedEnv id) twoPolicies "ada@example.com"
    weekParams oneTime "ada@example.com" weekQuery (shared_principal id)
    (week_query id) (shared_projects id) (shared_steady id)
  have hrefused : ∀ page', requests (sharedEnv id) twoPolicies "ada@example.com" weekParams
      oneTime 1 (some (encodeCursor (cursorAt "binding" 1700000001000
        ⟨sharedDetail id, shardName ⟨"tenant", "b"⟩⟩))) ≠ .ok page' := by
    intro page' h
    have hfits := (fits_of_request h).id.2
    rw [show (cursorAt "binding" 1700000001000 ⟨sharedDetail id, shardName ⟨"tenant", "b"⟩⟩
      ).position.id = id from shared_id id, hlong] at hfits
    omega
  cases hfollow with
  | last hget' hnone =>
    cases hget.symm.trans hget'
    rw [hnext] at hnone
    cases hnone
  | next hget' hsome hrest =>
    cases hget.symm.trans hget'
    cases hnext.symm.trans hsome
    cases hrest with
    | last hget'' _ => exact hrefused _ hget''
    | next hget'' _ _ => exact hrefused _ hget''

theorem event_pages_exact_shared : PagesExact (sharedEnv "usage_1") twoPolicies "ada@example.com"
    weekParams oneTime "ada@example.com" weekQuery := by
  refine event_pages_exact (shared_principal _) (week_query _) (shared_projects _)
    (shared_steady _) fun o ho => ?_
  have hb : (cursorAt "binding" 1700000001000 ⟨sharedDetail "usage_1", shardName ⟨"tenant", "b"⟩⟩).Fits :=
    ⟨by decide +kernel, by decide +kernel, by decide +kernel, by decide +kernel, by decide +kernel⟩
  have ha : (cursorAt "binding" 1700000001000 ⟨sharedDetail "usage_1", shardName ⟨"tenant", "a"⟩⟩).Fits :=
    ⟨by decide +kernel, by decide +kernel, by decide +kernel, by decide +kernel, by decide +kernel⟩
  rcases List.mem_cons.mp ((mem_sharedRows _ o).mpr ho) with rfl | h
  · exact hb
  · cases List.mem_singleton.mp h
    exact ha

end Example

end ClawRouter.Report
