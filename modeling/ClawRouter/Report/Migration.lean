/-
  Subject:   The projection of the usage events and its migration (`ensureUsageReportSchema`,
             `withUsageReportPair`, `migrateUsageReport` of src/worker/usage-report-store.ts, and
             the writers of src/worker/ledgers.ts).

  Triggers count every change of `usage_events` in a generation. A writer that also keeps the
  projection moves the two acknowledgements along with it, if they were current; any other change
  leaves them behind. A migration round starts at row zero whenever its acknowledgement is behind.

  * `planMigration`, `migrateUsageReport`: one call of the migration.

  `none` is an aborted transaction, which changes nothing.
-/
import ClawRouter.Lib.Paging
import ClawRouter.Report.Projection

namespace ClawRouter.Report

open Keyed Paging
open Js (maxSafeInteger)

/-! ## 1. The tables -/

/-- A row of `usage_events`. SQLite numbers rows from 1. -/
structure EventRow extends UsageEvent where
  rowid : Int
  rowid_pos : 0 < rowid

/-- `usage_events`: neither a row id nor an id is there twice. -/
structure EventTable where
  table : Table EventRow.rowid
  ids : (table.rows.map (·.id)).Nodup

variable {T : EventTable} {row : EventRow}

namespace EventTable

def rows (T : EventTable) : List EventRow := T.table.rows

def maxRowid (T : EventTable) : Int := (T.rows.map (·.rowid)).foldl max 0

def delete (T : EventTable) (p : EventRow → Bool) : EventTable where
  table :=
  T.table.delete p
  ids := T.ids.sublist (List.filter_sublist.map _)

def taken (T : EventTable) (row : EventRow) : Bool :=
  T.rows.any fun r => r.id == row.id || r.rowid == row.rowid

theorem taken_eq_false : T.taken row = false ↔ ∀ r ∈ T.rows, r.id ≠ row.id ∧ r.rowid ≠ row.rowid := by
  unfold taken
  rw [List.any_eq_false]
  simp

theorem find?_of_not_taken (h : T.taken row = false) : T.table.find? row.rowid = none :=
  Table.find?_eq_none.mpr fun r hr => (taken_eq_false.mp h r hr).2

/-- A row whose id or row id is taken is not inserted. -/
def insert (T : EventTable) (row : EventRow) : Option EventTable :=
  if h : T.taken row = false then
    some
      { table := T.table.insert row
        ids := by
          rw [Table.rows_insert (find?_of_not_taken h), List.map_cons]
          refine List.nodup_cons.mpr ⟨fun hm => ?_, T.ids⟩
          obtain ⟨r, hr, e⟩ := List.mem_map.mp hm
          exact (taken_eq_false.mp h r hr).1 e }
  else none

theorem mem_delete {p : EventRow → Bool} : row ∈ (T.delete p).rows ↔ row ∈ T.rows ∧ p row = false :=
  Table.mem_delete

theorem mem_insert {T' : EventTable} {x : EventRow} (h : T.insert row = some T') :
    x ∈ T'.rows ↔ x = row ∨ x ∈ T.rows := by
  unfold insert at h
  split at h
  · rename_i hfree
    cases h
    exact Table.mem_insert (find?_of_not_taken hfree)
  · cases h

theorem eq_of_id {r r' : EventRow} (h : r ∈ T.rows) (h' : r' ∈ T.rows) (e : r.id = r'.id) : r = r' :=
  List.inj_on_of_nodup_map T.ids h h' e

theorem eq_of_rowid {r r' : EventRow} (h : r ∈ T.rows) (h' : r' ∈ T.rows) (e : r.rowid = r'.rowid) : r = r' :=
  Table.eq_of_key h h' e

theorem rowid_le_maxRowid (h : row ∈ T.rows) : row.rowid ≤ T.maxRowid :=
  (le_foldl_max _ 0).2 _ (List.mem_map_of_mem h)

end EventTable

/-- A row of `usage_report_events`. Nothing is said of the rows an old writer left: their columns
    need not be those of their detail. -/
structure ReportEntry where
  id : String
  occurredAtMs : Int
  row : UsageReportRow
  deriving DecidableEq, Inhabited

/-- How far the migration is. -/
structure ReportMigration where
  lastRowid : Int
  upperRowid : Int
  complete : Bool
  deriving DecidableEq

/-- Which rounds have run. -/
structure ReportCoverage where
  generation : Int
  verified : Int
  round : Int
  deriving DecidableEq

/-- The tables of the projection. -/
structure ReportDb where
  events : EventTable
  report : Table ReportEntry.id
  migration : ReportMigration
  coverage : ReportCoverage

/-- Only an empty ledger with an empty projection starts trusted; what is saved stays. -/
def ensureUsageReportSchema (events : EventTable) (report : Table ReportEntry.id)
    (migration : Option ReportMigration) (coverage : Option ReportCoverage) : ReportDb where
  events := events
  report := report
  migration := migration.getD ⟨0, events.maxRowid, events.maxRowid = 0⟩
  coverage := coverage.getD ⟨0, if events.rows.isEmpty ∧ report.rows.isEmpty then 0 else -1, -1⟩

def ReportDb.projectionComplete (db : ReportDb) : Bool :=
  db.migration.complete && db.coverage.verified = db.coverage.generation

/-! ## 2. Writers -/

/-- `generation + 1`, unless the bound of the column is reached. -/
def ReportCoverage.advance (coverage : ReportCoverage) : Option ReportCoverage :=
  if coverage.generation < maxSafeInteger then
    some { coverage with generation := coverage.generation + 1 }
  else none

namespace ReportDb

def canonicalInsert (db : ReportDb) (row : EventRow) : Option ReportDb := do
  let events ← db.events.insert row
  let coverage ← db.coverage.advance
  some { db with events, coverage }

def canonicalDelete (db : ReportDb) (row : EventRow) : Option ReportDb := do
  let coverage ← db.coverage.advance
  some { db with
    events := db.events.delete fun r => r.rowid == row.rowid
    report := db.report.delete fun entry => entry.id == row.id
    coverage }

/-- An update of one row, which may change its id and its row id. The attribution backfill sets
    columns of a row that the projection does not read. -/
def canonicalUpdate (db : ReportDb) (row row' : EventRow) : Option ReportDb := do
  let events ← (db.events.delete fun r => r.rowid == row.rowid).insert row'
  let coverage ← db.coverage.advance
  some { db with
    events
    report := db.report.delete fun entry => entry.id == row.id
    coverage }

/-- Acknowledgements that were current are current again after the write. -/
def withUsageReportPair (db : ReportDb) (write : ReportDb → Option ReportDb) : Option ReportDb :=
  (write db).map fun after =>
    { after with
      coverage := { after.coverage with
          verified := if after.coverage.verified = db.coverage.generation then after.coverage.generation
            else after.coverage.verified
          round := if after.coverage.round = db.coverage.generation then after.coverage.generation
            else after.coverage.round } }

def cleanup (db : ReportDb) (cutoff : Int) : Option ReportDb :=
  db.withUsageReportPair fun db => do
    let expired := db.events.rows.filter fun row => row.occurredAtMs < cutoff
    let db ← expired.foldlM canonicalDelete db
    some { db with report := db.report.delete fun entry => entry.occurredAtMs < cutoff }

end ReportDb

/-- What an event is projected to; `none` is a throw. -/
def reportEntry (toLowerCase : String → String) (event : UsageEvent) : Option ReportEntry :=
  (usageReportRow toLowerCase event).map fun row => ⟨row.id, row.detail.occurredAt, row⟩

/-- `insertUsageReportEvent`; every caller throws where it returns false. -/
def insertUsageReportEvent (toLowerCase : String → String) (report : Table ReportEntry.id)
    (event : UsageEvent) : Option (Table ReportEntry.id) :=
  (reportEntry toLowerCase event).bind fun entry =>
    if report.find? entry.id = none then some (report.insert entry) else none

/-- What became of an event. -/
inductive UsageIngestOutcome
  | duplicate
  | expiredByRetention
  | stored
  deriving DecidableEq

def usageRetentionMs : Int := 30 * 86400000

/-- `ingest` of an event that gets the given row id. The retention and the insertion are two
    transactions; an outcome `none` is a throw out of one of them. -/
def ReportDb.ingest (toLowerCase : String → String) (db : ReportDb) (row : EventRow)
    (now : Int) : ReportDb × Option UsageIngestOutcome :=
  let cutoff := now - usageRetentionMs
  match db.cleanup cutoff with
  | none => (db, none)
  | some db =>
    if db.events.rows.any (·.id == row.id) then (db, some .duplicate)
    else if row.occurredAtMs < cutoff then (db, some .expiredByRetention)
    else
      let pair := db.withUsageReportPair fun db => do
        let db ← db.canonicalInsert row
        let report ← insertUsageReportEvent toLowerCase db.report row.toUsageEvent
        some { db with report }
      match pair with
      | none => (db, none)
      | some db => (db, some .stored)

/-! ## 3. The migration -/

/-- What a call of the migration is asked. -/
structure MigrationOptions where
  apply : Bool
  batchSize : Nat
  now : Int
  afterRowid : Option Int
  deriving DecidableEq

def MigrationOptions.cutoff (options : MigrationOptions) : Int := options.now - reportRetentionMs

def MigrationOptions.valid (options : MigrationOptions) : Bool :=
  0 ≤ options.now && options.now ≤ maxSafeInteger &&
    !(options.apply && options.afterRowid.isSome) &&
    1 ≤ options.batchSize && options.batchSize ≤ 2000

/-- What a call reads, and what it is going to write. -/
structure MigrationPlan where
  last : Int
  upper : Int
  batch : List EventRow
  next : Int
  scanned : Bool
  projected : List EventRow
  obsolete : List ReportEntry
  complete : Bool

/-- The watermark of a plan is one a round can have. -/
def MigrationPlan.valid (plan : MigrationPlan) : Bool :=
  0 ≤ plan.last && plan.last ≤ plan.upper && plan.upper ≤ maxSafeInteger

namespace ReportDb

def freshRound (db : ReportDb) : Bool := !db.projectionComplete && db.coverage.round ≠ db.coverage.generation

/-- The entry has no event, or is older than the retention. -/
def isObsolete (db : ReportDb) (cutoff : Int) (entry : ReportEntry) : Bool :=
  !(db.events.rows.any fun row => row.id == entry.id) || entry.occurredAtMs < cutoff

def planMigration (db : ReportDb) (options : MigrationOptions) : MigrationPlan :=
  let upper := if db.freshRound then db.events.maxRowid else db.migration.upperRowid
  let last := options.afterRowid.getD (if db.freshRound then 0 else db.migration.lastRowid)
  let batch :=
    if db.projectionComplete && options.afterRowid.isNone then []
    else page db.events.table last upper options.batchSize
  let next := (batch.getLast?.map (·.rowid)).getD upper
  let scanned := batch.length < options.batchSize || next == upper
  let obsolete :=
    if !db.projectionComplete && scanned then
      ((db.report.rows.filter (db.isObsolete options.cutoff)).mergeSort
        fun a b => a.id ≤ b.id).take options.batchSize
    else []
  { last := last
    upper := upper
    batch := batch
    next := next
    scanned := scanned
    projected := batch.filter fun row => options.cutoff ≤ row.occurredAtMs
    obsolete := obsolete
    complete := scanned && obsolete.length < options.batchSize }

def applyPlan (toLowerCase : String → String) (db : ReportDb) (plan : MigrationPlan) : Option ReportDb := do
  let report := db.report.delete fun entry => plan.obsolete.any (·.id == entry.id)
  let report := report.delete fun entry => plan.batch.any (·.id == entry.id)
  let report ← plan.projected.foldlM
    (fun report row => insertUsageReportEvent toLowerCase report row.toUsageEvent) report
  some { db with
    report
    migration := ⟨plan.next, plan.upper, plan.complete⟩
    coverage := { db.coverage with
        round := db.coverage.generation
        verified := if plan.complete then db.coverage.generation else db.coverage.verified } }

end ReportDb

section Effects

/-- What a call would change in a lane. -/
structure UsageReportMigrationEffect where
  lane : UsageCostLane
  costClass : UsageCostClass
  calls : Int
  proposedReportingMicros : Option Int
  recordedChargeMicros : Int
  deriving DecidableEq

/-- One projected event is added to the effect of its lane and class; sums beyond the safe integers
    throw. -/
def addEffect (effects : List UsageReportMigrationEffect) (detail : PersonalUsageEvent) :
    Option (List UsageReportMigrationEffect) :=
  let same := fun effect : UsageReportMigrationEffect =>
    effect.lane = detail.lane ∧ effect.costClass = detail.costClass
  let effect := (effects.find? fun effect => same effect).getD
    ⟨detail.lane, detail.costClass, 0, detail.reportingCostMicros.map fun _ => 0, 0⟩
  let effect := { effect with
      calls := effect.calls + 1
      recordedChargeMicros := effect.recordedChargeMicros + detail.recordedChargeMicros
      proposedReportingMicros := effect.proposedReportingMicros.map (· + detail.reportingCostMicros.getD 0) }
  let safe := fun n : Int => n ≤ maxSafeInteger
  if safe effect.recordedChargeMicros ∧ effect.proposedReportingMicros.all (safe ·) then
    some (effects.filter (fun effect => ¬ same effect) ++ [effect])
  else none

def migrationEffects (projected : List EventRow) : Option (List UsageReportMigrationEffect) := do
  let details ← projected.mapM fun row => projectUsageEvent row.toUsageEvent
  let effects ← details.foldlM addEffect []
  some (effects.mergeSort fun a b =>
    a.lane.text < b.lane.text ∨ (a.lane.text = b.lane.text ∧ a.costClass.text ≤ b.costClass.text))

end Effects

/-- What a call answers. -/
structure MigrationResult where
  dryRun : Bool
  examined : Nat
  projected : Nat
  lastRowid : Int
  upperRowid : Int
  complete : Bool
  previouslyComplete : Bool
  effects : List UsageReportMigrationEffect
  deriving DecidableEq

/-- `migrateUsageReport` over tables that `ensureUsageReportSchema` has prepared. -/
def migrateUsageReport (toLowerCase : String → String) (db : ReportDb)
    (options : MigrationOptions) : Option (ReportDb × MigrationResult) :=
  let plan := db.planMigration options
  if options.valid && plan.valid then do
    let effects ← migrationEffects plan.projected
    let after ← if options.apply then db.applyPlan toLowerCase plan else some db
    some (after,
      { dryRun := !options.apply
        examined := plan.batch.length
        projected := plan.projected.length
        lastRowid := plan.next
        upperRowid := plan.upper
        complete := plan.complete
        previouslyComplete := db.projectionComplete
        effects := effects })
  else none

end ClawRouter.Report
