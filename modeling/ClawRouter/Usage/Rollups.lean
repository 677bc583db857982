/-
  Subject:   The totals kept beside the usage events (src/worker/usage-rollups.ts): three triggers
             that follow every change of a row, and two migrations that pass over the rows written
             before them.

  A row counts once the rollup migration has passed it, and rows above its fixed upper bound always
  count. The key a row is counted under is computed from the row and from the progress of the
  attribution migration, and that progress moves on only after the columns of the rows it passes
  were filled (`keyValues_attributed`).

  * **`usage_rollups_exact`**: after every step the totals are the sums of the counted rows.
-/
import ClawRouter.Lib.Grouped
import ClawRouter.Lib.Paging
import ClawRouter.Usage.Attribution

namespace ClawRouter.Usage

open Keyed Grouped Paging Js Sqlite

/-! ## 1. Keys and counters -/

/-- What a rollup is of. -/
structure RollupKey where
  policyId : String
  dayStartMs : Int
  provider : String
  principalKey : String
  credentialKey : String
  principalNontext : Int
  deriving DecidableEq

/-- What a rollup counts. -/
inductive Counter
  | requestCount
  | successCount
  | errorCount
  | totalTokens
  | actualCostMicros
  | unpricedRequestCount
  | inputTokens
  | outputTokens
  deriving DecidableEq

/-- `CAST(occurred_at_ms / 86400000 AS INTEGER) * 86400000`: SQLite divides toward zero. -/
def dayStartMs (occurredAtMs : Int) : Int := occurredAtMs.tdiv 86400000 * 86400000

def rowPrincipal (pending : Bool) (row : UsageRow) : Option String :=
  (row.principalKey.or row.principalId).or
    (if pending then eventText row "principal_id" else none)

def rowCredential (pending : Bool) (row : UsageRow) : Option String :=
  row.credentialId.or (if pending then eventText row "credential_id" else none)

def rowNontext (pending : Bool) (row : UsageRow) : Int :=
  if pending then (if eventNontext row "principal_id" then 1 else 0) else row.principalNontext

def rowUnpriced (pending : Bool) (row : UsageRow) : Bool :=
  (if pending then jsonExtract (row.eventJson.get? "cost_basis")
    else (row.costBasis.map SqlValue.text).getD .null) == .text "unpriced_usage"

def keyValues (migration : AttributionMigration) (row : UsageRow) : RollupKey :=
  let pending := attributionPending migration row
  { policyId := row.policyId
    dayStartMs := dayStartMs row.occurredAtMs
    provider := row.provider
    principalKey := jsonQuote (rowPrincipal pending row)
    credentialKey := jsonQuote (rowCredential pending row)
    principalNontext := rowNontext pending row }

def counterValues (migration : AttributionMigration) (row : UsageRow) : Counter → Int
  | .requestCount => 1
  | .successCount => if row.status = "success" then 1 else 0
  | .errorCount => if row.status ≠ "success" then 1 else 0
  | .totalTokens => row.totalTokens.getD 0
  | .actualCostMicros => row.actualCostMicros
  | .unpricedRequestCount => if rowUnpriced (attributionPending migration row) row then 1 else 0
  | .inputTokens => row.inputTokens.getD 0
  | .outputTokens => row.outputTokens.getD 0

/-- How far the migration is. -/
structure RollupMigration where
  lastRowid : Int
  upperRowid : Int
  complete : Bool
  deriving DecidableEq

def counted (migration : RollupMigration) (row : UsageRow) : Bool :=
  migration.complete || row.rowid ≤ migration.lastRowid || migration.upperRowid < row.rowid

def usageRollupBatchSize : Nat := 2000

/-! ## 2. The database -/

/-- The tables; before `ensureUsageRollups` there are neither totals nor triggers. -/
structure UsageDb where
  events : Table UsageRow.rowid
  attribution : AttributionMigration
  rollups : Totals RollupKey Counter
  rollupMigration : Option RollupMigration

namespace UsageDb

def insertTrigger (db : UsageDb) (row : UsageRow) (rollups : Totals RollupKey Counter) :
    Totals RollupKey Counter :=
  match db.rollupMigration with
  | none => rollups
  | some migration =>
    if counted migration row then
      add rollups (keyValues db.attribution row) (counterValues db.attribution row)
    else rollups

def removeTrigger (db : UsageDb) (row : UsageRow) (rollups : Totals RollupKey Counter) :
    Totals RollupKey Counter :=
  match db.rollupMigration with
  | none => rollups
  | some migration =>
    if counted migration row then
      subtract .requestCount rollups (keyValues db.attribution row) (counterValues db.attribution row)
    else dropEmpty .requestCount rollups (keyValues db.attribution row)

/-- `INSERT INTO usage_events`: a taken id or rowid stores nothing. -/
def insertRow (db : UsageDb) (row : UsageRow) : UsageDb :=
  if db.events.rows.any fun r => r.id == row.id || r.rowid == row.rowid then db
  else
    { db with
      events := db.events.insert row
      rollups := db.insertTrigger row db.rollups }

def deleteRow (db : UsageDb) (rowid : Int) : UsageDb :=
  match db.events.find? rowid with
  | none => db
  | some row =>
    { db with
      events := db.events.delete fun r => r.rowid = row.rowid
      rollups := db.removeTrigger row db.rollups }

def replaceRow (db : UsageDb) (row row' : UsageRow) : UsageDb :=
  { db with
    events := (db.events.delete fun r => r.rowid = row.rowid).insert row'
    rollups := db.insertTrigger row' (db.removeTrigger row db.rollups) }

/-- `UPDATE usage_events SET … WHERE rowid = ?`, which may move the row to another rowid or id that
    is free. -/
def updateRow (db : UsageDb) (rowid : Int) (row' : UsageRow) : UsageDb :=
  match db.events.find? rowid with
  | none => db
  | some row =>
    if db.events.rows.any fun r =>
      r.rowid != rowid && (r.id == row'.id || r.rowid == row'.rowid) then db
    else db.replaceRow row row'

/-- Retention: every row before the cutoff is deleted, one trigger a row. -/
def cleanup (db : UsageDb) (cutoff : Int) : UsageDb :=
  ((db.events.rows.filter fun r => r.occurredAtMs < cutoff).map (·.rowid)).foldl deleteRow db

/-- `UPDATE usage_events SET principal_id = ?, … WHERE rowid = ?`. -/
def setAttribution (db : UsageDb) (rowid : Int) (attribution : Attribution) : UsageDb :=
  match db.events.find? rowid with
  | none => db
  | some row => db.replaceRow row { row with toAttribution := attribution }

def attributeBatch (toLowerCase : String → String) (db : UsageDb) (batch : List UsageRow) : UsageDb :=
  batch.foldl (fun db row =>
    db.setAttribution row.rowid (usageAttribution toLowerCase row.eventJson)) db

def backfillAttribution (toLowerCase : String → String) (db : UsageDb) : UsageDb :=
  let migration := db.attribution
  if migration.complete then db
  else
    let batch := page db.events migration.lastRowid migration.upperRowid usageAttributionBatchSize
    let last := pageEnd db.events migration.lastRowid migration.upperRowid usageAttributionBatchSize
    let complete := batch.length < usageAttributionBatchSize || last == migration.upperRowid
    { db.attributeBatch toLowerCase batch with
      attribution := ⟨last, migration.upperRowid, complete⟩ }

def backfillUsageRollups (db : UsageDb) : UsageDb :=
  match db.rollupMigration with
  | none => db
  | some progress =>
    if progress.complete then db
    else
      let rows := page db.events progress.lastRowid progress.upperRowid usageRollupBatchSize
      let last := pageEnd db.events progress.lastRowid progress.upperRowid usageRollupBatchSize
      let covered := rows.length < usageRollupBatchSize || last == progress.upperRowid
      let complete := covered && db.attribution.complete
      { db with
        rollups := addPage db.rollups (pageGroups db.events
          (fun r => progress.lastRowid < r.rowid && r.rowid ≤ last)
          (keyValues db.attribution) (counterValues db.attribution))
        rollupMigration := some ⟨last, progress.upperRowid, complete⟩ }

def maxRowid (db : UsageDb) : Int := (db.events.rows.map (·.rowid)).foldl max 0

def ensureUsageRollups (db : UsageDb) : UsageDb :=
  match db.rollupMigration with
  | some _ => db
  | none =>
    { db with
      rollups := Table.empty
      rollupMigration := some ⟨0, db.maxRowid, db.events.rows.isEmpty⟩ }

end UsageDb

/-- Everything that changes the tables, one change of a row or one migration step at a time. -/
inductive UsageStep (toLowerCase : String → String) (db : UsageDb) : UsageDb → Prop
  | ensure : UsageStep toLowerCase db db.ensureUsageRollups
  | insert (row : UsageRow) : UsageStep toLowerCase db (db.insertRow row)
  | update (rowid : Int) (row' : UsageRow) : UsageStep toLowerCase db (db.updateRow rowid row')
  | delete (rowid : Int) : UsageStep toLowerCase db (db.deleteRow rowid)
  | cleanup (cutoff : Int) : UsageStep toLowerCase db (db.cleanup cutoff)
  | attribution : UsageStep toLowerCase db (db.backfillAttribution toLowerCase)
  | rollups : UsageStep toLowerCase db db.backfillUsageRollups

/-! ## 3. The invariant -/

/-- The totals are the sums of the counted rows. -/
def ExactRollups (db : UsageDb) (migration : RollupMigration) : Prop :=
  Exact .requestCount db.events (counted migration) (keyValues db.attribution)
    (counterValues db.attribution) db.rollups

/-- What every step keeps of the rollups. -/
structure RollupInv (db : UsageDb) : Prop where
  ordered : ∀ m, db.rollupMigration = some m → m.lastRowid ≤ m.upperRowid
  exact : ∀ m, db.rollupMigration = some m → ExactRollups db m

theorem counts_one (migration : AttributionMigration) (row : UsageRow) :
    counterValues migration row .requestCount = 1 := rfl

variable {row : UsageRow}

section RowChanges

variable {db : UsageDb}

theorem find?_of_mem (h : row ∈ db.events.rows) : db.events.find? row.rowid = some row :=
  Table.find?_eq_some.mpr ⟨h, rfl⟩

section

variable (h : RollupInv db)
include h

theorem inv_remove (hrow : db.events.find? row.rowid = some row) : RollupInv { db with
      events := db.events.delete fun r => r.rowid = row.rowid, rollups :=
        db.removeTrigger row db.rollups } where
  ordered := h.ordered
  exact := fun m hm => by
    have hm : db.rollupMigration = some m := hm
    have hx := exact_delete (counts_one db.attribution) (h.exact m hm) hrow
    unfold UsageDb.removeTrigger
    rw [hm]
    exact hx

theorem inv_add (hrow : db.events.find? row.rowid = none) : RollupInv { db with
      events := db.events.insert row, rollups := db.insertTrigger row db.rollups } where
  ordered := h.ordered
  exact := fun m hm => by
    have hm : db.rollupMigration = some m := hm
    have hx := exact_insert (counts_one db.attribution) (h.exact m hm) hrow
    unfold UsageDb.insertTrigger
    rw [hm]
    exact hx

theorem inv_insertRow (row : UsageRow) : RollupInv (db.insertRow row) := by
  unfold UsageDb.insertRow
  split
  · exact h
  · rename_i hfree
    refine inv_add h (Table.find?_eq_none.mpr fun r hr e => hfree ?_)
    exact List.any_eq_true.mpr ⟨r, hr, by simp [e]⟩

theorem inv_deleteRow (rowid : Int) : RollupInv (db.deleteRow rowid) := by
  unfold UsageDb.deleteRow
  split
  · exact h
  · rename_i row hrow
    have e : row.rowid = rowid := (Table.find?_eq_some.mp hrow).2
    subst e
    exact inv_remove h hrow

theorem inv_replaceRow {row' : UsageRow} (hrow : db.events.find? row.rowid = some row)
    (hfree : ∀ r ∈ db.events.rows, r.rowid = row'.rowid → r.rowid = row.rowid) :
    RollupInv (db.replaceRow row row') := by
  refine inv_add (inv_remove h hrow) (Table.find?_eq_none.mpr fun r hr e => ?_)
  obtain ⟨hr, hne⟩ := Table.mem_delete.mp hr
  rw [hfree r hr e] at hne
  simp at hne

theorem inv_updateRow (rowid : Int) (row' : UsageRow) : RollupInv (db.updateRow rowid row') := by
  unfold UsageDb.updateRow
  split
  · exact h
  · rename_i row hrow
    have e : row.rowid = rowid := (Table.find?_eq_some.mp hrow).2
    subst e
    split
    · exact h
    · rename_i hfree
      refine inv_replaceRow h hrow fun r hr hsame => ?_
      by_contra hne
      refine hfree (List.any_eq_true.mpr ⟨r, hr, ?_⟩)
      rw [Bool.and_eq_true, Bool.or_eq_true]
      exact ⟨by simpa using hne, .inr (by simpa using hsame)⟩

theorem inv_cleanup (cutoff : Int) : RollupInv (db.cleanup cutoff) := by
  unfold UsageDb.cleanup
  generalize (db.events.rows.filter fun r => r.occurredAtMs < cutoff).map (·.rowid) = rowids
  induction rowids generalizing db with
  | nil => exact h
  | cons rowid rowids ih => exact ih (inv_deleteRow h rowid)

theorem inv_setAttribution (rowid : Int) (attribution : Attribution) :
    RollupInv (db.setAttribution rowid attribution) := by
  unfold UsageDb.setAttribution
  split
  · exact h
  · rename_i row hrow
    have e : row.rowid = rowid := (Table.find?_eq_some.mp hrow).2
    subst e
    exact inv_replaceRow h hrow fun r _ e => e

end

end RowChanges

/-! ## 4. The attribution migration -/

section AttributionBatch

variable (toLowerCase : String → String)

def UsageRow.attributed (row : UsageRow) : UsageRow :=
  { row with toAttribution := usageAttribution toLowerCase row.eventJson }

variable {db : UsageDb}

theorem attribution_setAttribution (rowid : Int) (attribution : Attribution) :
    (db.setAttribution rowid attribution).attribution = db.attribution := by
  unfold UsageDb.setAttribution
  split <;> rfl

theorem migration_setAttribution (rowid : Int) (attribution : Attribution) :
    (db.setAttribution rowid attribution).rollupMigration = db.rollupMigration := by
  unfold UsageDb.setAttribution
  split <;> rfl

theorem find?_setAttribution (rowid : Int) (attribution : Attribution) (k : Int) :
    (db.setAttribution rowid attribution).events.find? k = (db.events.find? k).map fun r =>
      if r.rowid = rowid then { r with toAttribution := attribution } else r := by
  unfold UsageDb.setAttribution
  split
  · rename_i hnone
    cases hk : db.events.find? k with
    | none => rfl
    | some r =>
      obtain ⟨hr, -⟩ := Table.find?_eq_some.mp hk
      have hne : r.rowid ≠ rowid := Table.find?_eq_none.mp hnone r hr
      rw [Option.map_some, if_neg hne]
  · rename_i row hrow
    have e : row.rowid = rowid := (Table.find?_eq_some.mp hrow).2
    subst e
    have hfree : (db.events.delete fun r => r.rowid = row.rowid).find? row.rowid = none := by
      rw [Table.find?_delete, hrow, Option.filter_some_neg]
      simp
    refine (Table.find?_insert (r := { row with toAttribution := attribution }) hfree k).trans ?_
    rw [Table.find?_delete]
    by_cases hk : row.rowid = k
    · subst hk
      rw [if_pos rfl, hrow, Option.map_some, if_pos rfl]
    · rw [if_neg hk]
      cases hx : db.events.find? k with
      | none => rfl
      | some r =>
        have e : r.rowid = k := (Table.find?_eq_some.mp hx).2
        have hne : r.rowid ≠ row.rowid := by
          rw [e]
          exact Ne.symm hk
        rw [Option.map_some, if_neg hne, Option.filter_some_pos]
        simpa using hne

/-- What the updates of a batch leave: the totals follow, the progress of both migrations stays,
    and the rows of the batch are filled from their own events. -/
theorem attributeBatch_spec (batch : List UsageRow) (h : RollupInv db)
    (hbatch : ∀ row ∈ batch, ∀ r ∈ db.events.rows, r.rowid = row.rowid → r.eventJson = row.eventJson) :
    RollupInv (db.attributeBatch toLowerCase batch) ∧
      (db.attributeBatch toLowerCase batch).attribution = db.attribution ∧
      (db.attributeBatch toLowerCase batch).rollupMigration = db.rollupMigration ∧
      ∀ k, (db.attributeBatch toLowerCase batch).events.find? k = (db.events.find? k).map fun r =>
        if r.rowid ∈ batch.map (·.rowid) then r.attributed toLowerCase else r := by
  induction batch generalizing db with
  | nil =>
    refine ⟨h, rfl, rfl, fun k => ?_⟩
    show db.events.find? k = _
    simp
  | cons row batch ih =>
    have hstep : ∀ k, (db.setAttribution row.rowid
      (usageAttribution toLowerCase row.eventJson)).events.find? k =
          (db.events.find? k).map fun r =>
            if r.rowid = row.rowid then r.attributed toLowerCase else r := by
      intro k
      rw [find?_setAttribution]
      cases hk : db.events.find? k with
      | none => rfl
      | some r =>
        obtain ⟨hr, -⟩ := Table.find?_eq_some.mp hk
        rw [Option.map_some, Option.map_some]
        by_cases e : r.rowid = row.rowid
        · rw [if_pos e, if_pos e, ← hbatch row List.mem_cons_self r hr e]
          rfl
        · rw [if_neg e, if_neg e]
    -- no update of the batch changes an event
    have hrest : ∀ row' ∈ batch, ∀ r ∈ (db.setAttribution row.rowid
        (usageAttribution toLowerCase row.eventJson)).events.rows, r.rowid = row'.rowid →
          r.eventJson = row'.eventJson := by
      intro row' hrow' r hr e
      have hfind := hstep r.rowid
      rw [find?_of_mem hr] at hfind
      obtain ⟨x, hx, e'⟩ := Option.map_eq_some_iff.mp hfind.symm
      obtain ⟨hxm, hxk⟩ := Table.find?_eq_some.mp hx
      have hevent := hbatch row' (List.mem_cons_of_mem _ hrow') x hxm (hxk.trans e)
      rw [← e', ← hevent]
      split <;> rfl
    obtain ⟨h1, h2, h3, h4⟩ := ih (inv_setAttribution h row.rowid
      (usageAttribution toLowerCase row.eventJson)) hrest
    refine ⟨h1, h2.trans (attribution_setAttribution _ _),
      h3.trans (migration_setAttribution _ _), fun k => (h4 k).trans ?_⟩
    rw [hstep k, Option.map_map]
    refine congrArg (fun f => Option.map f (db.events.find? k)) (funext fun r => ?_)
    dsimp only [Function.comp_apply]
    by_cases e : r.rowid = row.rowid
    · have hmem : r.rowid ∈ (row :: batch).map (·.rowid) := by simp [e]
      rw [if_pos e, if_pos hmem]
      split <;> rfl
    · rw [if_neg e]
      simp [e]

end AttributionBatch

section Attributed

variable (toLowerCase : String → String) (pending : Bool) (row : UsageRow)

theorem rowPrincipal_attributed : rowPrincipal pending (row.attributed toLowerCase) =
    rowPrincipal false (row.attributed toLowerCase) := by
  cases pending with
  | false => rfl
  | true =>
    unfold rowPrincipal
    rw [if_pos rfl, eventText_eq, if_neg Bool.false_ne_true, Option.or_none, Option.or_assoc]
    refine congrArg (Option.or _) ?_
    exact Option.or_self

theorem rowCredential_attributed : rowCredential pending (row.attributed toLowerCase) =
    rowCredential false (row.attributed toLowerCase) := by
  cases pending with
  | false => rfl
  | true =>
    unfold rowCredential
    rw [if_pos rfl, eventText_eq, if_neg Bool.false_ne_true, Option.or_none]
    exact Option.or_self

theorem rowNontext_attributed : rowNontext pending (row.attributed toLowerCase) =
    rowNontext false (row.attributed toLowerCase) := by
  cases pending with
  | false => rfl
  | true =>
    unfold rowNontext
    rw [if_pos rfl, if_neg Bool.false_ne_true]
    exact if_congr (eventNontext_eq _ _) rfl rfl

theorem rowUnpriced_attributed : rowUnpriced pending (row.attributed toLowerCase) =
    rowUnpriced false (row.attributed toLowerCase) := by
  cases pending with
  | false => rfl
  | true =>
    unfold rowUnpriced
    rw [if_pos rfl, if_neg Bool.false_ne_true, Bool.eq_iff_iff, beq_iff_eq, beq_iff_eq,
      jsonExtract_eq_text (by decide +kernel) (by decide +kernel)]
    show row.eventJson.get? "cost_basis" = some (.str "unpriced_usage") ↔
      (((row.eventJson.get? "cost_basis").bind Json.str?).map SqlValue.text).getD .null = _
    cases row.eventJson.get? "cost_basis" with
    | none => simp
    | some value => cases value <;> simp [Json.str?]

/-- **A filled row is counted the same whether it is pending or not.** -/
theorem keyValues_attributed (m m' : AttributionMigration) :
    keyValues m (row.attributed toLowerCase) = keyValues m' (row.attributed toLowerCase) ∧
      counterValues m (row.attributed toLowerCase) = counterValues m' (row.attributed toLowerCase) := by
  constructor
  · unfold keyValues
    dsimp only
    rw [rowPrincipal_attributed, rowCredential_attributed, rowNontext_attributed,
      ← rowPrincipal_attributed toLowerCase (attributionPending m' _),
      ← rowCredential_attributed toLowerCase (attributionPending m' _),
      ← rowNontext_attributed toLowerCase (attributionPending m' _)]
  · funext c
    cases c with
    | unpricedRequestCount =>
      unfold counterValues
      rw [rowUnpriced_attributed, ← rowUnpriced_attributed toLowerCase (attributionPending m' _)]
    | _ => rfl

end Attributed

theorem values_of_pending {m m' : AttributionMigration}
    (h : attributionPending m' row = attributionPending m row) :
    keyValues m' row = keyValues m row ∧ counterValues m' row = counterValues m row := by
  constructor
  · unfold keyValues
    rw [h]
  · funext c
    cases c with
    | unpricedRequestCount =>
      unfold counterValues
      rw [h]
    | _ => rfl

theorem pending_of_not_mem {E : Table UsageRow.rowid} {lo hi : Int} (hrow : ∃ r ∈ E.rows, r.rowid = row.rowid)
    (hout : ∀ r ∈ page E lo hi usageAttributionBatchSize, r.rowid ≠ row.rowid) :
    attributionPending ⟨pageEnd E lo hi usageAttributionBatchSize, hi,
      (page E lo hi usageAttributionBatchSize).length < usageAttributionBatchSize ||
        pageEnd E lo hi usageAttributionBatchSize == hi⟩ row = attributionPending ⟨lo, hi, false⟩ row := by
  obtain ⟨r, hr, e⟩ := hrow
  have hn : 0 < usageAttributionBatchSize := by decide
  have hbeyond : lo < row.rowid → pageEnd E lo hi usageAttributionBatchSize < row.rowid := by
    intro hlo
    by_contra hle
    exact hout r ((mem_page_iff hn).mpr ⟨hr, by rw [e]; exact hlo, by rw [e]; omega⟩) e
  have hfrom : pageEnd E lo hi usageAttributionBatchSize < row.rowid → row.rowid ≤ hi → lo < row.rowid := by
    intro hend hhi
    rcases Int.le_total lo hi with h | h
    · have := le_pageEnd (T := E) (n := usageAttributionBatchSize) h
      omega
    · have := pageEnd_of_le (T := E) (n := usageAttributionBatchSize) h
      omega
  rw [Bool.eq_iff_iff]
  unfold attributionPending
  simp only [Bool.and_eq_true, Bool.not_eq_true', Bool.or_eq_false_iff, decide_eq_true_eq,
    decide_eq_false_iff_not, beq_eq_false_iff_ne]
  constructor
  · rintro ⟨⟨-, hend⟩, hhi⟩
    exact ⟨⟨trivial, hfrom hend hhi⟩, hhi⟩
  · rintro ⟨⟨-, hlo⟩, hhi⟩
    have hend := hbeyond hlo
    refine ⟨⟨⟨?_, ?_⟩, hend⟩, hhi⟩
    · intro hshort
      have := page_covers hn (.inl hshort) hr (by rw [e]; exact hend)
      omega
    · omega

variable {db : UsageDb}

theorem inv_backfillAttribution (toLowerCase : String → String) (h : RollupInv db) :
    RollupInv (db.backfillAttribution toLowerCase) := by
  unfold UsageDb.backfillAttribution
  dsimp only
  cases hcomplete : db.attribution.complete with
  | true => exact h
  | false =>
    rw [if_neg Bool.false_ne_true]
    generalize hbatch : page db.events db.attribution.lastRowid db.attribution.upperRowid
      usageAttributionBatchSize = batch
    obtain ⟨hinv, hattribution, hmigration, hfind⟩ :=
      attributeBatch_spec toLowerCase batch h fun row hrow r hr e => by
        rw [← hbatch] at hrow
        rw [Table.eq_of_key hr (mem_page hrow).1 e]
    refine ⟨hinv.ordered, fun m hm => ?_⟩
    refine exact_congr (hinv.exact m hm) (fun _ _ => rfl) fun r hr _ => ?_
    have hr' := hfind r.rowid
    rw [find?_of_mem hr] at hr'
    obtain ⟨x, hx, e⟩ := Option.map_eq_some_iff.mp hr'.symm
    obtain ⟨hxm, hxk⟩ := Table.find?_eq_some.mp hx
    by_cases hmem : x.rowid ∈ batch.map (·.rowid)
    · rw [if_pos hmem] at e
      rw [← e]
      exact keyValues_attributed toLowerCase x _ _
    · rw [if_neg hmem] at e
      subst e
      refine values_of_pending ?_
      rw [hattribution]
      have hold : db.attribution = ⟨db.attribution.lastRowid, db.attribution.upperRowid, false⟩ := by
        rw [← hcomplete]
      rw [hold, ← hbatch]
      refine pending_of_not_mem ⟨x, hxm, rfl⟩ fun r hr e => hmem ?_
      rw [← hbatch]
      exact List.mem_map.mpr ⟨r, hr, e⟩

/-! ## 5. The rollup migration -/

theorem inv_backfillUsageRollups (h : RollupInv db) : RollupInv db.backfillUsageRollups := by
  unfold UsageDb.backfillUsageRollups
  cases hm : db.rollupMigration with
  | none => exact h
  | some progress =>
    dsimp only
    cases hcomplete : progress.complete with
    | true => exact h
    | false =>
      rw [if_neg Bool.false_ne_true]
      have hordered := h.ordered progress hm
      have hn : 0 < usageRollupBatchSize := by decide
      generalize hlast : pageEnd db.events progress.lastRowid progress.upperRowid usageRollupBatchSize = last
      have hle : last ≤ progress.upperRowid := by
        rw [← hlast]
        exact pageEnd_le
      have hge : progress.lastRowid ≤ last := by
        rw [← hlast]
        exact le_pageEnd hordered
      refine ⟨fun m e => ?_, fun m e => ?_⟩
      · cases e
        exact hle
      · cases e
        -- the page is not counted yet, and it lies between the old and the new progress
        have hnew : ∀ r ∈ db.events.rows, (decide (progress.lastRowid < r.rowid) && decide
          (r.rowid ≤ last)) = true →
              counted progress r = false := by
          intro r _ hp
          unfold counted
          simp only [Bool.and_eq_true, decide_eq_true_eq] at hp
          simp only [hcomplete, Bool.false_or, Bool.or_eq_false_iff, decide_eq_false_iff_not]
          omega
        have hx := exact_addPage (counts_one db.attribution) (h.exact progress hm) hnew
        refine exact_congr hx (fun r hr => ?_) fun _ _ _ => ⟨rfl, rfl⟩
        rw [Bool.eq_iff_iff]
        unfold counted
        simp only [hcomplete, Bool.false_or, Bool.or_eq_true, Bool.and_eq_true, decide_eq_true_eq, beq_iff_eq]
        constructor
        · rintro ((⟨hcovered, -⟩ | hlow) | hhigh)
          · by_cases hout : last < r.rowid
            · rw [← hlast] at hout hcovered
              exact .inl (.inr (page_covers hn hcovered hr hout))
            · omega
          · omega
          · exact .inl (.inr hhigh)
        · omega

theorem rowid_le_maxRowid (h : row ∈ db.events.rows) : row.rowid ≤ db.maxRowid :=
  (le_foldl_max _ 0).2 _ (List.mem_map_of_mem h)

theorem inv_ensureUsageRollups (h : RollupInv db) : RollupInv db.ensureUsageRollups := by
  unfold UsageDb.ensureUsageRollups
  cases hm : db.rollupMigration with
  | some m => exact h
  | none =>
    refine ⟨fun m e => ?_, fun m e => ?_⟩
    · cases e
      exact (le_foldl_max _ 0).1
    · cases e
      have hz : ∀ k i, groupSum db.events (counted ⟨0, db.maxRowid, db.events.rows.isEmpty⟩)
          (keyValues db.attribution) (counterValues db.attribution) k i = 0 := by
        intro k i
        refine sumOn_eq_zero fun r hr => ?_
        have hempty : db.events.rows.isEmpty = false := List.isEmpty_eq_false_iff_exists_mem.mpr ⟨r, hr⟩
        have hpos := r.rowid_pos
        have hle := rowid_le_maxRowid hr
        rw [Bool.and_eq_false_iff]
        refine .inl ?_
        unfold counted
        simp only [hempty, Bool.false_or, Bool.or_eq_false_iff, decide_eq_false_iff_not]
        omega
      intro k
      rw [if_pos (hz k _)]
      rfl

/-! ## 6. Every run -/

theorem inv_step {toLowerCase : String → String} {db' : UsageDb} (h : RollupInv db)
    (hstep : UsageStep toLowerCase db db') : RollupInv db' := by
  cases hstep with
  | ensure => exact inv_ensureUsageRollups h
  | insert row => exact inv_insertRow h row
  | update rowid row' => exact inv_updateRow h rowid row'
  | delete rowid => exact inv_deleteRow h rowid
  | cleanup cutoff => exact inv_cleanup h cutoff
  | attribution => exact inv_backfillAttribution toLowerCase h
  | rollups => exact inv_backfillUsageRollups h

/-- The totals have exactly one row for each group of the counted rows, with the sums of the
    group. -/
structure RollupsExact (db : UsageDb) (migration : RollupMigration) : Prop where
  total : ∀ row ∈ db.events.rows, counted migration row = true →
    ∃ t ∈ db.rollups.rows, t.key = keyValues db.attribution row
  one : ∀ t ∈ db.rollups.rows, ∀ t' ∈ db.rollups.rows, t.key = t'.key → t = t'
  sums : ∀ t ∈ db.rollups.rows, ∀ c, t.counts c =
    ((db.events.rows.filter fun row => counted migration row &&
      keyValues db.attribution row = t.key).map fun row => counterValues db.attribution row c).sum
  members : ∀ t ∈ db.rollups.rows, ∃ row ∈ db.events.rows, counted migration row = true ∧
    keyValues db.attribution row = t.key
  nonzero : ∀ t ∈ db.rollups.rows, 0 < t.counts .requestCount

theorem rollupsExact_of_exact {m : RollupMigration} (h : ExactRollups db m) : RollupsExact db m := by
  have hpos : ∀ k, 0 < groupSum db.events (counted m) (keyValues db.attribution)
      (counterValues db.attribution) k .requestCount ↔
        ∃ r ∈ db.events.rows, counted m r = true ∧ keyValues db.attribution r = k :=
    fun _ => groupSum_pos (counts_one db.attribution)
  have hrow : ∀ t ∈ db.rollups.rows, 0 < groupSum db.events (counted m) (keyValues db.attribution)
      (counterValues db.attribution) t.key .requestCount ∧ t = ⟨t.key, groupSum db.events
        (counted m) (keyValues db.attribution) (counterValues db.attribution) t.key⟩ := by
    intro t ht
    have hk := h t.key
    rw [Table.find?_eq_some.mpr ⟨ht, rfl⟩] at hk
    have hcounts : Counts .requestCount (groupSum db.events (counted m)
        (keyValues db.attribution) (counterValues db.attribution)) :=
      counts_groupSum (counts_one db.attribution)
    have hn := hcounts.nonneg t.key
    split at hk
    · cases hk
    · rename_i hz
      exact ⟨by omega, Option.some_inj.mp hk⟩
  refine ⟨fun row hr hc => ?_, fun t ht t' ht' e => Table.eq_of_key ht ht' e, fun t ht c => ?_,
    fun t ht => (hpos t.key).mp (hrow t ht).1, fun t ht => ?_⟩
  · have hk := h (keyValues db.attribution row)
    have hp := (hpos (keyValues db.attribution row)).mpr ⟨row, hr, hc, rfl⟩
    rw [if_neg (by omega)] at hk
    obtain ⟨ht, e⟩ := Table.find?_eq_some.mp hk
    exact ⟨_, ht, e⟩
  · have e := congrArg (fun t => Total.counts t c) (hrow t ht).2
    exact e
  · have e := congrArg (fun t => Total.counts t .requestCount) (hrow t ht).2
    rw [e]
    exact (hrow t ht).1

theorem inv_run {toLowerCase : String → String} {db₀ : UsageDb}
    (hrun : Relation.ReflTransGen (UsageStep toLowerCase) db₀ db)
    (hstart : db₀.rollupMigration = none) : RollupInv db := by
  induction hrun with
  | refl =>
    refine ⟨fun m e => ?_, fun m e => ?_⟩
    · nomatch hstart.symm.trans e
    · nomatch hstart.symm.trans e
  | tail _ hstep ih => exact inv_step ih hstep

/-- **After every step of every run the totals are exact**, from any rows that were there before
    the totals. -/
theorem usage_rollups_exact (toLowerCase : String → String) {db₀ db : UsageDb}
    {m : RollupMigration} (hrun : Relation.ReflTransGen (UsageStep toLowerCase) db₀ db)
    (hstart : db₀.rollupMigration = none) (hm : db.rollupMigration = some m) : RollupsExact db m :=
  rollupsExact_of_exact ((inv_run hrun hstart).exact m hm)

section Example

def oldRow : UsageRow where
  toAttribution :=
  ⟨none, none, none, none, 0⟩
  rowid := 1
  rowid_pos := Int.one_pos
  id := "usage_1"
  occurredAtMs := 1700000000000
  policyId := "policy"
  provider := "openai"
  status := "success"
  inputTokens := some 7
  outputTokens := some 5
  totalTokens := some 12
  actualCostMicros := 40
  eventJson := .obj [("principal_id", .str "ada@example.com"), ("cost_basis", .str "unpriced_usage")]

def newRow : UsageRow :=
  { (UsageRow.attributed String.toLower oldRow) with
    rowid := 2
    rowid_pos := Int.succ_ofNat_pos 1
    id := "usage_2" }

def oldDb : UsageDb where
  events :=
  Table.empty.insert oldRow
  attribution := ⟨0, 1, false⟩
  rollups := Table.empty
  rollupMigration := none

theorem usage_rollups_exact_migrated :
    RollupsExact ((oldDb.ensureUsageRollups.insertRow newRow).backfillAttribution
      String.toLower).backfillUsageRollups ⟨1, 1, true⟩ :=
  usage_rollups_exact String.toLower
    ((((Relation.ReflTransGen.refl.tail .ensure).tail (.insert newRow)).tail .attribution).tail
      .rollups) rfl (by decide +kernel)

end Example

end ClawRouter.Usage
