/-
  Subject:   What a complete projection covers, over every interleaving of the writers and of the
             migration of ClawRouter/Report/Migration.lean.

  The history of a run keeps the cutoff of the last round that completed and the events that paired
  writes have stored since. What is retained is said by the history, not by the tables.

  * **`projection_covers`**: a complete projection has exactly the retained events.
-/
import ClawRouter.Report.Migration

namespace ClawRouter.Report

open Keyed Paging

/-! ## 1. Steps and their history -/

/-- What a run has done so far, as far as it says which events are retained. -/
structure History where
  /-- The cutoff of the last round that completed. -/
  cutoff : Option Int
  /-- The events that paired writes stored since. -/
  paired : List String
  /-- The cutoff of the last call of a round. -/
  roundCutoff : Option Int

/-- The tables, and the calls before. -/
structure ReportState where
  db : ReportDb
  history : History

def History.ingested (history : History) (row : EventRow) : Option UsageIngestOutcome → History
  | some .stored => { history with paired := row.id :: history.paired }
  | _ => history

/-- A call that finds the projection complete is no round. -/
def History.migrated (history : History) (options : MigrationOptions) (result : MigrationResult) :
    History :=
  if result.dryRun || result.previouslyComplete then history
  else
    { roundCutoff := some options.cutoff
      cutoff := if result.complete then some options.cutoff else history.cutoff
      paired := if result.complete then [] else history.paired }

def ReportDb.continuesRound (db : ReportDb) : Bool := !db.projectionComplete && !db.freshRound

/-- The calls of a round that write are made at times whose cutoffs do not go back. -/
def SteadyRound (s : ReportState) (options : MigrationOptions) : Prop :=
  options.apply = true → s.db.continuesRound = true → ∀ c ∈ s.history.roundCutoff, c ≤ options.cutoff

/-- The steps, where the calls of the migration are subject to a condition. The unpaired changes
    are those of older writers, and every row of the attribution backfill is one of them. A
    transaction that aborts is no step. -/
inductive ReportStep (toLowerCase : String → String)
    (condition : ReportState → MigrationOptions → Prop) (s : ReportState) : ReportState → Prop
  | restart : ReportStep toLowerCase condition s
      { s with
        db := ensureUsageReportSchema s.db.events s.db.report (some s.db.migration)
          (some s.db.coverage) }
  | ingest (row : EventRow) (now : Int) : ReportStep toLowerCase condition s
      { db := (s.db.ingest toLowerCase row now).1
        history := s.history.ingested row (s.db.ingest toLowerCase row now).2 }
  | cleanup (cutoff : Int) {db : ReportDb} (h : s.db.cleanup cutoff = some db) :
      ReportStep toLowerCase condition s { s with db := db }
  | insert (row : EventRow) {db : ReportDb} (h : s.db.canonicalInsert row = some db) :
      ReportStep toLowerCase condition s { s with db := db }
  | update {row : EventRow} (hrow : row ∈ s.db.events.rows) (row' : EventRow) {db : ReportDb}
      (h : s.db.canonicalUpdate row row' = some db) :
      ReportStep toLowerCase condition s { s with db := db }
  | delete {row : EventRow} (hrow : row ∈ s.db.events.rows) {db : ReportDb}
      (h : s.db.canonicalDelete row = some db) :
      ReportStep toLowerCase condition s { s with db := db }
  | migrate (options : MigrationOptions) (hcondition : condition s options) {db : ReportDb}
      {result : MigrationResult} (h : migrateUsageReport toLowerCase s.db options =
        some (db, result)) :
      ReportStep toLowerCase condition s ⟨db, s.history.migrated options result⟩

/-- A ledger with any rows, any projection and any saved marker, before the triggers. -/
def initialState (events : EventTable) (report : Table ReportEntry.id)
    (migration : Option ReportMigration) : ReportState :=
  ⟨ensureUsageReportSchema events report migration none, ⟨none, [], none⟩⟩

/-- The last completing round or a later paired write retained the event. -/
def Retained (history : History) (row : EventRow) : Prop :=
  row.id ∈ history.paired ∨ ∃ c ∈ history.cutoff, c ≤ row.occurredAtMs

def Projected (toLowerCase : String → String) (report : Table ReportEntry.id) (row : EventRow) : Prop :=
  ∃ entry ∈ report.rows, reportEntry toLowerCase row.toUsageEvent = some entry

/-- The projection has the entries of the retained events and no others. -/
structure Covered (toLowerCase : String → String) (s : ReportState) : Prop where
  every : ∀ row ∈ s.db.events.rows, Retained s.history row →
    Projected toLowerCase s.db.report row
  only : ∀ entry ∈ s.db.report.rows, ∃ row ∈ s.db.events.rows, Retained s.history row ∧
    reportEntry toLowerCase row.toUsageEvent = some entry

/-! ## 2. The invariant -/

/-- The event is not in the projection and was expired at the last call of the round. -/
def Dropped (report : Table ReportEntry.id) (roundCutoff : Option Int) (row : EventRow) : Prop :=
  (∀ entry ∈ report.rows, entry.id ≠ row.id) ∧ ∃ c ∈ roundCutoff, row.occurredAtMs < c

/-- Everything outside of what the round has still to visit is projected, or expired. -/
def Visited (toLowerCase : String → String) (s : ReportState) : Prop :=
  ∀ row ∈ s.db.events.rows,
    ¬ (s.db.migration.lastRowid < row.rowid ∧ row.rowid ≤ s.db.migration.upperRowid) →
      Projected toLowerCase s.db.report row ∨ Dropped s.db.report s.history.roundCutoff row

/-- What every step keeps of the coverage. -/
structure CoverageInv (toLowerCase : String → String) (s : ReportState) : Prop where
  verified_le : s.db.coverage.verified ≤ s.db.coverage.generation
  round_le : s.db.coverage.round ≤ s.db.coverage.generation
  covered : s.db.projectionComplete = true → Covered toLowerCase s
  visited : s.db.continuesRound = true → Visited toLowerCase s

variable {entry : ReportEntry} {row : EventRow}

section Facts

variable {toLowerCase : String → String} {db : ReportDb}

theorem projectionComplete_iff : db.projectionComplete = true ↔
    db.migration.complete = true ∧ db.coverage.verified = db.coverage.generation := by
  unfold ReportDb.projectionComplete
  rw [Bool.and_eq_true, decide_eq_true_iff]

theorem continuesRound_iff : db.continuesRound = true ↔
    db.projectionComplete = false ∧ db.coverage.round = db.coverage.generation := by
  unfold ReportDb.continuesRound ReportDb.freshRound
  cases db.projectionComplete <;> simp

theorem reportEntry_place {event : UsageEvent} (h : reportEntry toLowerCase event = some entry) :
    entry.id = event.id ∧ entry.occurredAtMs = event.occurredAtMs := by
  obtain ⟨row, hrow, e⟩ := Option.map_eq_some_iff.mp h
  subst e
  exact projectUsageEvent_place (usageReportRow_eq hrow).1

theorem advance_eq {coverage after : ReportCoverage} (h : coverage.advance = some after) :
    after = { coverage with generation := coverage.generation + 1 } := by
  unfold ReportCoverage.advance at h
  split at h
  · exact (Option.some.inj h).symm
  · cases h

/-- What an expiry deletes. -/
structure Deletes (db : ReportDb) (rows : List EventRow) (after : ReportDb) : Prop where
  events : ∀ row, row ∈ after.events.rows ↔
    row ∈ db.events.rows ∧ ∀ r ∈ rows, row.rowid ≠ r.rowid
  report : ∀ entry, entry ∈ after.report.rows ↔
    entry ∈ db.report.rows ∧ ∀ r ∈ rows, entry.id ≠ r.id
  migration : after.migration = db.migration
  generation : db.coverage.generation ≤ after.coverage.generation
  verified : after.coverage.verified = db.coverage.verified
  round : after.coverage.round = db.coverage.round

theorem canonicalDelete_spec {after : ReportDb} (h : db.canonicalDelete row = some after) :
    Deletes db [row] after ∧ after.coverage.generation = db.coverage.generation + 1 := by
  obtain ⟨coverage, hcoverage, e⟩ := Option.bind_eq_some_iff.mp h
  have hcoverage := advance_eq hcoverage
  cases e
  subst hcoverage
  refine ⟨⟨fun r => ?_, fun entry => ?_, rfl, ?_, rfl, rfl⟩, rfl⟩
  · rw [EventTable.mem_delete]
    simp
  · rw [Table.mem_delete]
    simp
  · show db.coverage.generation ≤ db.coverage.generation + 1
    omega

theorem deletes_spec : ∀ {rows : List EventRow} {db after : ReportDb},
    rows.foldlM ReportDb.canonicalDelete db = some after → Deletes db rows after
  | [], db, after, h => by
    cases h
    exact ⟨by simp, by simp, rfl, Int.le_refl _, rfl, rfl⟩
  | row :: rows, db, after, h => by
    rw [List.foldlM_cons] at h
    obtain ⟨next, hnext, hrest⟩ := Option.bind_eq_some_iff.mp h
    obtain ⟨hone, hgeneration⟩ := canonicalDelete_spec hnext
    have ih := deletes_spec hrest
    refine ⟨fun r => ?_, fun entry => ?_, ih.migration.trans hone.migration, ?_,
      ih.verified.trans hone.verified, ih.round.trans hone.round⟩
    · rw [ih.events, hone.events]
      simp [and_assoc]
    · rw [ih.report, hone.report]
      simp [and_assoc]
    · exact Int.le_trans hone.generation ih.generation

end Facts

/-! ## 3. Writers -/

variable {s : ReportState}

section Writers

variable {toLowerCase : String → String}

theorem inv_unpaired (h : CoverageInv toLowerCase s) {after : ReportDb} (hcoverage : after.coverage =
      { s.db.coverage with generation := s.db.coverage.generation + 1 }) :
    CoverageInv toLowerCase { s with db := after } := by
  have hv := h.verified_le
  have hr := h.round_le
  refine ⟨?_, ?_, fun hc => ?_, fun hc => ?_⟩
  · rw [hcoverage]
    show s.db.coverage.verified ≤ s.db.coverage.generation + 1
    omega
  · rw [hcoverage]
    show s.db.coverage.round ≤ s.db.coverage.generation + 1
    omega
  · have e := (projectionComplete_iff.mp hc).2
    rw [hcoverage] at e
    have e : s.db.coverage.verified = s.db.coverage.generation + 1 := e
    omega
  · have e := (continuesRound_iff.mp hc).2
    rw [hcoverage] at e
    have e : s.db.coverage.round = s.db.coverage.generation + 1 := e
    omega

/-- A paired write keeps the acknowledgements as current as they were. -/
structure Paired (db after : ReportDb) : Prop where
  migration : after.migration = db.migration
  verified_le : after.coverage.verified ≤ after.coverage.generation
  round_le : after.coverage.round ≤ after.coverage.generation
  complete : after.projectionComplete = db.projectionComplete
  continues : after.continuesRound = db.continuesRound

/-- A write inside of a pair moves nothing but the generation. -/
structure Moves (db mid : ReportDb) : Prop where
  migration : mid.migration = db.migration
  generation : db.coverage.generation ≤ mid.coverage.generation
  verified : mid.coverage.verified = db.coverage.verified
  round : mid.coverage.round = db.coverage.round

theorem acknowledge_current {g g' v : Int} (hv : v ≤ g) (hg : g ≤ g') :
    (if v = g then g' else v) ≤ g' ∧ ((if v = g then g' else v) = g' ↔ v = g) := by
  by_cases h : v = g
  · rw [if_pos h]
    exact ⟨Int.le_refl g', iff_of_true rfl h⟩
  · rw [if_neg h]
    refine ⟨by omega, ?_⟩
    constructor
    · intro e
      omega
    · intro e
      exact absurd e h

theorem pair_spec {db after : ReportDb} {write : ReportDb → Option ReportDb}
    (hv : db.coverage.verified ≤ db.coverage.generation) (hr : db.coverage.round ≤ db.coverage.generation)
    (h : db.withUsageReportPair write = some after) (hmoves : ∀ mid, write db = some mid → Moves db mid) :
    ∃ mid, write db = some mid ∧ after.events = mid.events ∧ after.report = mid.report ∧ Paired db after := by
  obtain ⟨mid, hmid, e⟩ := Option.map_eq_some_iff.mp h
  have hm := hmoves mid hmid
  have hmigration : after.migration = db.migration := by rw [← e]; exact hm.migration
  have hgeneration : after.coverage.generation = mid.coverage.generation := by rw [← e]
  have hverified : after.coverage.verified =
      if db.coverage.verified = db.coverage.generation then mid.coverage.generation
      else db.coverage.verified := by rw [← e, ← hm.verified]
  have hround : after.coverage.round = if db.coverage.round = db.coverage.generation then
    mid.coverage.generation
      else db.coverage.round := by rw [← e, ← hm.round]
  obtain ⟨hv1, hv2⟩ := acknowledge_current hv hm.generation
  obtain ⟨hr1, hr2⟩ := acknowledge_current hr hm.generation
  have hcomplete : after.projectionComplete = db.projectionComplete := by
    rw [Bool.eq_iff_iff, projectionComplete_iff, projectionComplete_iff, hmigration, hverified,
      hgeneration, hv2]
  refine ⟨mid, hmid, by rw [← e], by rw [← e], hmigration, ?_, ?_, hcomplete, ?_⟩
  · rw [hverified, hgeneration]
    exact hv1
  · rw [hround, hgeneration]
    exact hr1
  · rw [Bool.eq_iff_iff, continuesRound_iff, continuesRound_iff, hcomplete, hround, hgeneration, hr2]

theorem inv_paired (h : CoverageInv toLowerCase s) {after : ReportDb} {history : History}
    (hpaired : Paired s.db after)
    (hcovered : Covered toLowerCase s → Covered toLowerCase ⟨after, history⟩)
    (hvisited : Visited toLowerCase s → Visited toLowerCase ⟨after, history⟩) :
    CoverageInv toLowerCase ⟨after, history⟩ := by
  refine ⟨hpaired.verified_le, hpaired.round_le, fun hc => ?_, fun hc => ?_⟩
  · have hc : after.projectionComplete = true := hc
    rw [hpaired.complete] at hc
    exact hcovered (h.covered hc)
  · have hc : after.continuesRound = true := hc
    rw [hpaired.continues] at hc
    exact hvisited (h.visited hc)

theorem cleanup_spec {db after : ReportDb} {cutoff : Int} (hv : db.coverage.verified ≤ db.coverage.generation)
    (hr : db.coverage.round ≤ db.coverage.generation) (h : db.cleanup cutoff = some after) : Paired db after ∧
      (∀ row, row ∈ after.events.rows ↔ row ∈ db.events.rows ∧ cutoff ≤ row.occurredAtMs) ∧
      ∀ entry, entry ∈ after.report.rows ↔ entry ∈ db.report.rows ∧ cutoff ≤ entry.occurredAtMs ∧
          ∀ r ∈ db.events.rows, r.occurredAtMs < cutoff → entry.id ≠ r.id := by
  have hwrite : ∀ mid, (do
      let expired := db.events.rows.filter fun row => row.occurredAtMs < cutoff
      let db ← expired.foldlM ReportDb.canonicalDelete db
      some { db with report := db.report.delete fun entry => entry.occurredAtMs < cutoff }) =
        some mid → ∃ next, Deletes db (db.events.rows.filter fun row => row.occurredAtMs < cutoff) next ∧
            mid = { next with
              report := next.report.delete fun entry => entry.occurredAtMs < cutoff } := by
    intro mid hmid
    obtain ⟨next, hnext, e⟩ := Option.bind_eq_some_iff.mp hmid
    exact ⟨next, deletes_spec hnext, (Option.some.inj e).symm⟩
  obtain ⟨mid, hmid, hevents, hreport, hpaired⟩ := pair_spec hv hr h (by
    intro mid hmid
    obtain ⟨next, hd, rfl⟩ := hwrite mid hmid
    exact ⟨hd.migration, hd.generation, hd.verified, hd.round⟩)
  obtain ⟨next, hd, rfl⟩ := hwrite mid hmid
  refine ⟨hpaired, fun row => ?_, fun entry => ?_⟩
  · rw [hevents]
    rw [hd.events]
    constructor
    · rintro ⟨hrow, hno⟩
      refine ⟨hrow, ?_⟩
      by_contra hlt
      exact hno row (List.mem_filter.mpr ⟨hrow, by simpa using hlt⟩) rfl
    · rintro ⟨hrow, hle⟩
      refine ⟨hrow, fun r hr' e => ?_⟩
      obtain ⟨hr', hlt⟩ := List.mem_filter.mp hr'
      have hlt : r.occurredAtMs < cutoff := by simpa using hlt
      rw [EventTable.eq_of_rowid hrow hr' e] at hle
      omega
  · rw [hreport, Table.mem_delete, hd.report]
    constructor
    · rintro ⟨⟨hentry, hno⟩, hle⟩
      have hle : cutoff ≤ entry.occurredAtMs := by simpa using hle
      exact ⟨hentry, hle, fun r hr' hlt => hno r (List.mem_filter.mpr ⟨hr', by simpa using hlt⟩)⟩
    · rintro ⟨hentry, hle, hno⟩
      refine ⟨⟨hentry, fun r hr' => ?_⟩, by simpa using hle⟩
      obtain ⟨hr', hlt⟩ := List.mem_filter.mp hr'
      exact hno r hr' (by simpa using hlt)

theorem inv_cleanup (h : CoverageInv toLowerCase s) {cutoff : Int}
    {after : ReportDb} (hclean : s.db.cleanup cutoff = some after) :
    CoverageInv toLowerCase { s with db := after } := by
  obtain ⟨hpaired, hevents, hreport⟩ := cleanup_spec h.verified_le h.round_le hclean
  have hprojected : ∀ row ∈ after.events.rows, Projected toLowerCase s.db.report row →
      Projected toLowerCase after.report row := by
    intro row hrow ⟨entry, hentry, e⟩
    obtain ⟨hrow, hle⟩ := (hevents row).mp hrow
    obtain ⟨hid, hat⟩ := reportEntry_place e
    refine ⟨entry, (hreport entry).mpr ⟨hentry, by omega, fun r hr hlt hne => ?_⟩, e⟩
    have hsame := EventTable.eq_of_id hrow hr (hid.symm.trans hne)
    rw [hsame] at hle
    omega
  refine inv_paired h hpaired (fun hc => ⟨fun row hrow hret => ?_, fun entry hentry =>
    ?_⟩) fun hvis row hrow hout => ?_
  · exact hprojected row hrow (hc.every row ((hevents row).mp hrow).1 hret)
  · obtain ⟨hentry, hle, -⟩ := (hreport entry).mp hentry
    obtain ⟨row, hrow, hret, e⟩ := hc.only entry hentry
    have hat := (reportEntry_place e).2
    exact ⟨row, (hevents row).mpr ⟨hrow, by omega⟩, hret, e⟩
  · have hout : ¬ (after.migration.lastRowid < row.rowid ∧ row.rowid ≤ after.migration.upperRowid) := hout
    rw [hpaired.migration] at hout
    rcases hvis row ((hevents row).mp hrow).1 hout with hp | ⟨hno, hlt⟩
    · exact .inl (hprojected row hrow hp)
    · exact .inr ⟨fun entry hentry => hno entry ((hreport entry).mp hentry).1, hlt⟩

theorem insertUsageReportEvent_spec {report report' : Table ReportEntry.id} {event : UsageEvent}
    (h : insertUsageReportEvent toLowerCase report event = some report') :
    ∃ entry, reportEntry toLowerCase event = some entry ∧ report.find? entry.id = none ∧
      ∀ x, x ∈ report'.rows ↔ x = entry ∨ x ∈ report.rows := by
  obtain ⟨entry, hentry, h⟩ := Option.bind_eq_some_iff.mp h
  split at h
  · rename_i hfree
    cases h
    exact ⟨entry, hentry, hfree, fun x => Table.mem_insert hfree⟩
  · cases h

theorem store_spec {db after : ReportDb} (hv : db.coverage.verified ≤ db.coverage.generation)
    (hr : db.coverage.round ≤ db.coverage.generation)
    (h : (db.withUsageReportPair fun db => do
      let db ← db.canonicalInsert row
      let report ← insertUsageReportEvent toLowerCase db.report row.toUsageEvent
      some { db with report }) = some after) :
    Paired db after ∧ (∀ x, x ∈ after.events.rows ↔ x = row ∨ x ∈ db.events.rows) ∧
      (∀ x ∈ db.events.rows, x.id ≠ row.id) ∧ ∃ entry, reportEntry toLowerCase row.toUsageEvent = some entry ∧
          ∀ x, x ∈ after.report.rows ↔ x = entry ∨ x ∈ db.report.rows := by
  have hwrite : ∀ mid, (do
      let db ← db.canonicalInsert row
      let report ← insertUsageReportEvent toLowerCase db.report row.toUsageEvent
      some { db with report }) = some mid → ∃ events report, db.events.insert row = some events ∧
        insertUsageReportEvent toLowerCase db.report row.toUsageEvent = some report ∧ mid = { db with
            events := events
            report := report
            coverage := { db.coverage with generation := db.coverage.generation + 1 } } := by
    intro mid hmid
    obtain ⟨next, hnext, hmid⟩ := Option.bind_eq_some_iff.mp hmid
    obtain ⟨report, hreport, e⟩ := Option.bind_eq_some_iff.mp hmid
    obtain ⟨events, hevents, hnext⟩ := Option.bind_eq_some_iff.mp hnext
    obtain ⟨coverage, hcoverage, hnext⟩ := Option.bind_eq_some_iff.mp hnext
    have hcoverage := advance_eq hcoverage
    cases hnext
    cases e
    subst hcoverage
    exact ⟨events, report, hevents, hreport, rfl⟩
  obtain ⟨mid, hmid, hevents', hreport', hpaired⟩ := pair_spec hv hr h (by
    intro mid hmid
    obtain ⟨events, report, -, -, rfl⟩ := hwrite mid hmid
    refine ⟨rfl, ?_, rfl, rfl⟩
    show db.coverage.generation ≤ db.coverage.generation + 1
    omega)
  obtain ⟨events, report, hevents, hreport, rfl⟩ := hwrite mid hmid
  obtain ⟨entry, hentry, -, hmem⟩ := insertUsageReportEvent_spec hreport
  refine ⟨hpaired, fun x => ?_, fun x hx => ?_, entry, hentry, fun x => ?_⟩
  · rw [hevents']
    exact EventTable.mem_insert hevents
  · have hfree : db.events.taken row = false := by
      unfold EventTable.insert at hevents
      split at hevents
      · assumption
      · cases hevents
    exact (EventTable.taken_eq_false.mp hfree x hx).1
  · rw [hreport']
    exact hmem x

theorem inv_store (h : CoverageInv toLowerCase s) {after : ReportDb}
    (hstore : (s.db.withUsageReportPair fun db => do
      let db ← db.canonicalInsert row
      let report ← insertUsageReportEvent toLowerCase db.report row.toUsageEvent
      some { db with report }) = some after) :
    CoverageInv toLowerCase ⟨after, s.history.ingested row (some .stored)⟩ := by
  obtain ⟨hpaired, hevents, hfree, entry, hentry, hreport⟩ := store_spec h.verified_le h.round_le hstore
  have hprojected : ∀ x, Projected toLowerCase s.db.report x → Projected toLowerCase after.report x := by
    intro x ⟨e, he, hx⟩
    exact ⟨e, (hreport e).mpr (.inr he), hx⟩
  have hnew : Projected toLowerCase after.report row := ⟨entry, (hreport entry).mpr (.inl rfl), hentry⟩
  refine inv_paired h hpaired (fun hc => ⟨fun x hx hret => ?_, fun e he => ?_⟩) fun hvis x hx hout => ?_
  · rcases (hevents x).mp hx with rfl | hx
    · exact hnew
    · refine hprojected x (hc.every x hx ?_)
      rcases hret with hmem | hcut
      · rcases List.mem_cons.mp hmem with e | hmem
        · exact absurd e (hfree x hx)
        · exact .inl hmem
      · exact .inr hcut
  · rcases (hreport e).mp he with rfl | he
    · exact ⟨row, (hevents row).mpr (.inl rfl), .inl List.mem_cons_self, hentry⟩
    · obtain ⟨x, hx, hret, e⟩ := hc.only e he
      refine ⟨x, (hevents x).mpr (.inr hx), ?_, e⟩
      exact hret.imp (fun hmem => List.mem_cons_of_mem _ hmem) id
  · have hout : ¬ (after.migration.lastRowid < x.rowid ∧ x.rowid ≤ after.migration.upperRowid) := hout
    rw [hpaired.migration] at hout
    rcases (hevents x).mp hx with rfl | hx
    · exact .inl hnew
    · rcases hvis x hx hout with hp | ⟨hno, hlt⟩
      · exact .inl (hprojected x hp)
      · refine .inr ⟨fun e he => ?_, hlt⟩
        rcases (hreport e).mp he with rfl | he
        · rw [(reportEntry_place hentry).1]
          exact fun e => hfree x hx e.symm
        · exact hno e he

theorem inv_ingest (h : CoverageInv toLowerCase s) (row : EventRow) (now : Int) : CoverageInv toLowerCase
      { db := (s.db.ingest toLowerCase row now).1
        history := s.history.ingested row (s.db.ingest toLowerCase row now).2 } := by
  unfold ReportDb.ingest
  dsimp only
  cases hclean : s.db.cleanup (now - usageRetentionMs) with
  | none => exact h
  | some db =>
    have hdb : CoverageInv toLowerCase { s with db := db } := inv_cleanup h hclean
    dsimp only
    split
    · exact hdb
    split
    · exact hdb
    cases hpair : db.withUsageReportPair fun db => do
        let db ← db.canonicalInsert row
        let report ← insertUsageReportEvent toLowerCase db.report row.toUsageEvent
        some { db with report } with
    | none => exact hdb
    | some after => exact inv_store hdb hpair

end Writers

/-! ## 4. The migration -/

variable {result : MigrationResult}

section Migration

variable {toLowerCase : String → String} {db : ReportDb} {options : MigrationOptions}

theorem insertAll_spec : ∀ {rows : List EventRow} {report report' : Table ReportEntry.id},
    rows.foldlM (fun report row => insertUsageReportEvent toLowerCase report row.toUsageEvent)
      report = some report' →
    (∀ row ∈ rows, ∃ entry, reportEntry toLowerCase row.toUsageEvent = some entry) ∧
      ∀ x, x ∈ report'.rows ↔ x ∈ report.rows ∨ ∃ row ∈ rows, reportEntry toLowerCase row.toUsageEvent = some x
  | [], report, report', h => by
    cases h
    exact ⟨nofun, by simp⟩
  | row :: rows, report, report', h => by
    rw [List.foldlM_cons] at h
    obtain ⟨next, hnext, hrest⟩ := Option.bind_eq_some_iff.mp h
    obtain ⟨entry, hentry, -, hmem⟩ := insertUsageReportEvent_spec hnext
    obtain ⟨hall, hiff⟩ := insertAll_spec hrest
    refine ⟨fun r hr => ?_, fun x => ?_⟩
    · rcases List.mem_cons.mp hr with rfl | hr
      · exact ⟨entry, hentry⟩
      · exact hall r hr
    · rw [hiff, hmem]
      constructor
      · rintro ((rfl | hx) | ⟨r, hr, e⟩)
        · exact .inr ⟨row, List.mem_cons_self, hentry⟩
        · exact .inl hx
        · exact .inr ⟨r, List.mem_cons_of_mem _ hr, e⟩
      · rintro (hx | ⟨r, hr, e⟩)
        · exact .inl (.inr hx)
        · rcases List.mem_cons.mp hr with rfl | hr
          · rw [hentry] at e
            exact .inl (.inl (Option.some.inj e).symm)
          · exact .inr ⟨r, hr, e⟩

/-- What a round of the migration writes. -/
structure Applied (toLowerCase : String → String) (db : ReportDb) (plan : MigrationPlan)
    (after : ReportDb) : Prop where
  events : after.events = db.events
  entries : ∀ row ∈ plan.projected,
    ∃ entry, reportEntry toLowerCase row.toUsageEvent = some entry
  report : ∀ x, x ∈ after.report.rows ↔
    (x ∈ db.report.rows ∧ (∀ o ∈ plan.obsolete, o.id ≠ x.id) ∧ ∀ b ∈ plan.batch, b.id ≠ x.id) ∨
      ∃ row ∈ plan.projected, reportEntry toLowerCase row.toUsageEvent = some x
  migration : after.migration = ⟨plan.next, plan.upper, plan.complete⟩
  coverage : after.coverage =
    { db.coverage with
      round := db.coverage.generation
      verified := if plan.complete then db.coverage.generation else db.coverage.verified }

theorem applyPlan_spec {plan : MigrationPlan} {after : ReportDb}
    (h : db.applyPlan toLowerCase plan = some after) : Applied toLowerCase db plan after := by
  obtain ⟨report, hreport, e⟩ := Option.bind_eq_some_iff.mp h
  cases e
  obtain ⟨hall, hiff⟩ := insertAll_spec hreport
  refine ⟨rfl, hall, fun x => ?_, rfl, rfl⟩
  rw [hiff, Table.mem_delete, Table.mem_delete]
  simp only [List.any_eq_false, beq_iff_eq, and_assoc]

section

variable (h : db.projectionComplete = false)
include h

theorem plan_batch : (db.planMigration options).batch = page db.events.table (db.planMigration options).last
      (db.planMigration options).upper options.batchSize := by
  show (if (db.projectionComplete && options.afterRowid.isNone) = true then _ else _) = _
  rw [h, Bool.false_and, if_neg Bool.false_ne_true]
  rfl

theorem plan_next : (db.planMigration options).next = pageEnd db.events.table (db.planMigration options).last
      (db.planMigration options).upper options.batchSize := by
  unfold pageEnd
  rw [← plan_batch h]
  rfl

theorem mem_batch (hsize : 0 < options.batchSize)
    : row ∈ (db.planMigration options).batch ↔ row ∈ db.events.rows ∧
      (db.planMigration options).last < row.rowid ∧
        row.rowid ≤ (db.planMigration options).next := by
  rw [plan_batch h, plan_next h]
  exact mem_page_iff hsize

end

theorem mem_projected : row ∈ (db.planMigration options).projected ↔
    row ∈ (db.planMigration options).batch ∧ options.cutoff ≤ row.occurredAtMs := by
  have e : (db.planMigration options).projected = (db.planMigration options).batch.filter
      fun row => options.cutoff ≤ row.occurredAtMs := rfl
  rw [e, List.mem_filter, decide_eq_true_iff]

theorem plan_covers (h : db.projectionComplete = false) (hsize : 0 < options.batchSize)
    (hscanned : (db.planMigration options).scanned = true)
    (hrow : row ∈ db.events.rows) (hnext : (db.planMigration options).next < row.rowid) :
    (db.planMigration options).upper < row.rowid := by
  have hscanned : (decide ((db.planMigration options).batch.length < options.batchSize) ||
      (db.planMigration options).next == (db.planMigration options).upper) = true := hscanned
  rw [Bool.or_eq_true, decide_eq_true_iff, beq_iff_eq, plan_batch h] at hscanned
  rw [plan_next h] at hscanned hnext
  exact page_covers hsize hscanned hrow hnext

theorem mem_obsolete (h : entry ∈ (db.planMigration options).obsolete) :
    entry ∈ db.report.rows ∧ db.isObsolete options.cutoff entry = true := by
  have h : entry ∈ if (!db.projectionComplete && (db.planMigration options).scanned) = true then
      ((db.report.rows.filter (db.isObsolete options.cutoff)).mergeSort
        fun a b => a.id ≤ b.id).take options.batchSize else [] := h
  split at h
  · exact List.mem_filter.mp (List.mem_mergeSort.mp (List.mem_of_mem_take h))
  · cases h

theorem plan_complete :
    (db.planMigration options).complete = true ↔ (db.planMigration options).scanned = true ∧
      (db.planMigration options).obsolete.length < options.batchSize := by
  have e : (db.planMigration options).complete = ((db.planMigration options).scanned &&
      decide ((db.planMigration options).obsolete.length < options.batchSize)) := rfl
  rw [e, Bool.and_eq_true, decide_eq_true_iff]

theorem obsolete_of_complete (h : db.projectionComplete = false)
    (hcomplete : (db.planMigration options).complete = true)
    (hentry : entry ∈ db.report.rows) (hobsolete : db.isObsolete options.cutoff entry = true) :
    entry ∈ (db.planMigration options).obsolete := by
  obtain ⟨hscanned, hlength⟩ := plan_complete.mp hcomplete
  have e : (db.planMigration options).obsolete =
    ((db.report.rows.filter (db.isObsolete options.cutoff)).mergeSort
        fun a b => a.id ≤ b.id).take options.batchSize := by
    show (if (!db.projectionComplete && (db.planMigration options).scanned) = true then _
      else _) = _
    rw [h, hscanned]
    rfl
  rw [e] at hlength ⊢
  rw [List.length_take] at hlength
  rw [List.take_of_length_le (by omega)]
  exact List.mem_mergeSort.mpr (List.mem_filter.mpr ⟨hentry, hobsolete⟩)

theorem not_obsolete {cutoff : Int} (h : db.isObsolete cutoff entry = false) :
    (∃ row ∈ db.events.rows, row.id = entry.id) ∧ cutoff ≤ entry.occurredAtMs := by
  unfold ReportDb.isObsolete at h
  rw [Bool.or_eq_false_iff, Bool.not_eq_false', List.any_eq_true, decide_eq_false_iff_not] at h
  obtain ⟨⟨row, hrow, e⟩, hle⟩ := h
  exact ⟨⟨row, hrow, eq_of_beq e⟩, by omega⟩

theorem visited_before (h : CoverageInv toLowerCase s)
    (hcomplete : s.db.projectionComplete = false) (happly : options.apply = true)
    (hafter : options.afterRowid = none) (hsteady : SteadyRound s options) (hrow : row ∈ s.db.events.rows)
    (hout : ¬ ((s.db.planMigration options).last < row.rowid ∧
      row.rowid ≤ (s.db.planMigration options).upper)) :
    Projected toLowerCase s.db.report row ∨
      (∀ entry ∈ s.db.report.rows, entry.id ≠ row.id) ∧ row.occurredAtMs < options.cutoff := by
  have hlast : (s.db.planMigration options).last = if s.db.freshRound then 0 else
    s.db.migration.lastRowid := by
    show options.afterRowid.getD _ = _
    rw [hafter]
    rfl
  have hupper : (s.db.planMigration options).upper =
      if s.db.freshRound then s.db.events.maxRowid else s.db.migration.upperRowid := rfl
  rw [hlast, hupper] at hout
  cases hfresh : s.db.freshRound with
  | true =>
    rw [hfresh, if_pos rfl, if_pos rfl] at hout
    exact absurd ⟨row.rowid_pos, EventTable.rowid_le_maxRowid hrow⟩ hout
  | false =>
    rw [hfresh, if_neg Bool.false_ne_true, if_neg Bool.false_ne_true] at hout
    have hcontinues : s.db.continuesRound = true := by
      unfold ReportDb.continuesRound
      rw [hcomplete, hfresh]
      rfl
    rcases h.visited hcontinues row hrow hout with hp | ⟨hno, c, hc, hlt⟩
    · exact .inl hp
    · have := hsteady happly hcontinues c hc
      exact .inr ⟨hno, by omega⟩

theorem visited_after {after : ReportDb} (h : CoverageInv toLowerCase s)
    (hcomplete : s.db.projectionComplete = false) (happly : options.apply = true)
    (hafter : options.afterRowid = none) (hsize : 0 < options.batchSize) (hsteady : SteadyRound s options)
    (happlied : Applied toLowerCase s.db (s.db.planMigration options) after) (hrow : row ∈ s.db.events.rows)
    (hout : ¬ ((s.db.planMigration options).next < row.rowid ∧
      row.rowid ≤ (s.db.planMigration options).upper)) :
    Projected toLowerCase after.report row ∨ Dropped after.report (some options.cutoff) row := by
  -- an entry of a projected row is under the id of that row
  have hnew : ∀ {x : ReportEntry}, (∃ b ∈ (s.db.planMigration options).projected,
      reportEntry toLowerCase b.toUsageEvent = some x) → x.id = row.id →
        row ∈ (s.db.planMigration options).projected := by
    rintro x ⟨b, hb, e⟩ hid
    have hmem := ((mem_batch hcomplete hsize).mp (mem_projected.mp hb).1).1
    rw [EventTable.eq_of_id hrow hmem (hid.symm.trans (reportEntry_place e).1)]
    exact hb
  by_cases hbatch : row ∈ (s.db.planMigration options).batch
  · by_cases hle : options.cutoff ≤ row.occurredAtMs
    · have hproj := mem_projected.mpr ⟨hbatch, hle⟩
      obtain ⟨entry, hentry⟩ := happlied.entries row hproj
      exact .inl ⟨entry, (happlied.report entry).mpr (.inr ⟨row, hproj, hentry⟩), hentry⟩
    · refine .inr ⟨fun entry hentry hid => ?_, options.cutoff, rfl, by omega⟩
      rcases (happlied.report entry).mp hentry with ⟨-, -, hno⟩ | hx
      · exact hno row hbatch hid.symm
      · exact hle (mem_projected.mp (hnew hx hid)).2
  · have hbefore : ¬ ((s.db.planMigration options).last < row.rowid ∧
        row.rowid ≤ (s.db.planMigration options).upper) := by
      rintro ⟨h1, h2⟩
      refine hout ⟨?_, h2⟩
      by_contra hle
      exact hbatch ((mem_batch hcomplete hsize).mpr ⟨hrow, h1, by omega⟩)
    have hnone : (∀ entry ∈ s.db.report.rows, entry.id = row.id →
        ∃ o ∈ (s.db.planMigration options).obsolete, o.id = entry.id) →
          ∀ entry ∈ after.report.rows, entry.id ≠ row.id := by
      intro hdeleted entry hentry hid
      rcases (happlied.report entry).mp hentry with ⟨hmem, hno, -⟩ | hx
      · obtain ⟨o, ho, e⟩ := hdeleted entry hmem hid
        exact hno o ho e
      · exact hbatch (mem_projected.mp (hnew hx hid)).1
    rcases visited_before h hcomplete happly hafter hsteady hrow hbefore with
      ⟨entry, hentry, e⟩ | ⟨hno, hlt⟩
    · obtain ⟨hid, hat⟩ := reportEntry_place e
      by_cases hobs : entry ∈ (s.db.planMigration options).obsolete
      · -- the event is there, so its entry can only be obsolete by its time
        have hobsolete := (mem_obsolete hobs).2
        have hlt : row.occurredAtMs < options.cutoff := by
          unfold ReportDb.isObsolete at hobsolete
          rw [Bool.or_eq_true, Bool.not_eq_true', List.any_eq_false, decide_eq_true_iff] at hobsolete
          rcases hobsolete with horphan | hlt
          · exact absurd (beq_iff_eq.mpr hid.symm) (horphan row hrow)
          · omega
        refine .inr ⟨hnone fun x hx hxid => ⟨entry, hobs, hid.trans hxid.symm⟩, options.cutoff, rfl, hlt⟩
      · refine .inl ⟨entry, (happlied.report entry).mpr
          (.inl ⟨hentry, fun o ho he => ?_, fun b hb he => ?_⟩), e⟩
        · have := Table.eq_of_key (mem_obsolete ho).1 hentry he
          exact hobs (this ▸ ho)
        · have hmem := ((mem_batch hcomplete hsize).mp hb).1
          have := EventTable.eq_of_id hmem hrow (he.trans hid)
          exact hbatch (this ▸ hb)
    · exact .inr ⟨hnone fun entry hentry hid => absurd hid (hno entry hentry), options.cutoff, rfl, hlt⟩

theorem covered_after {after : ReportDb} (hcomplete : s.db.projectionComplete = false)
    (hsize : 0 < options.batchSize)
    (happlied : Applied toLowerCase s.db (s.db.planMigration options) after)
    (hplan : (s.db.planMigration options).complete = true)
    (hvisited : ∀ row ∈ s.db.events.rows, Projected toLowerCase after.report row ∨
      Dropped after.report (some options.cutoff) row) (roundCutoff : Option Int) :
    Covered toLowerCase ⟨after, ⟨some options.cutoff, [], roundCutoff⟩⟩ := by
  refine ⟨fun row hrow hret => ?_, fun entry hentry => ?_⟩
  · have hrow : row ∈ after.events.rows := hrow
    rw [happlied.events] at hrow
    rcases hret with hmem | ⟨c, hc, hle⟩
    · cases hmem
    · cases hc
      rcases hvisited row hrow with hp | ⟨-, c, hc, hlt⟩
      · exact hp
      · cases hc
        omega
  · have hentry : entry ∈ after.report.rows := hentry
    rw [happlied.events]
    rcases (happlied.report entry).mp hentry with ⟨hmem, hno, -⟩ | ⟨row, hproj, e⟩
    · have hkept : s.db.isObsolete options.cutoff entry = false := by
        cases hobs : s.db.isObsolete options.cutoff entry with
        | false => rfl
        | true => exact absurd rfl (hno entry (obsolete_of_complete hcomplete hplan hmem hobs))
      obtain ⟨⟨row, hrow, hid⟩, hle⟩ := not_obsolete hkept
      rcases hvisited row hrow with ⟨x, hx, e⟩ | ⟨hnone, -⟩
      · obtain ⟨hxid, hxat⟩ := reportEntry_place e
        have hsame := Table.eq_of_key hx hentry (hxid.trans hid)
        subst hsame
        exact ⟨row, hrow, .inr ⟨options.cutoff, rfl, by omega⟩, e⟩
      · exact absurd hid.symm (hnone entry hentry)
    · obtain ⟨hbatch, hle⟩ := mem_projected.mp hproj
      exact ⟨row, ((mem_batch hcomplete hsize).mp hbatch).1, .inr ⟨options.cutoff, rfl, hle⟩, e⟩

theorem plan_of_complete (h : db.projectionComplete = true) (hafter : options.afterRowid = none)
    (hsize : 0 < options.batchSize) :
    (db.planMigration options).batch = [] ∧ (db.planMigration options).projected = [] ∧
      (db.planMigration options).obsolete = [] ∧ (db.planMigration options).complete = true := by
  have hbatch : (db.planMigration options).batch = [] := by
    show (if (db.projectionComplete && options.afterRowid.isNone) = true then _ else _) = _
    rw [h, hafter]
    rfl
  have hobsolete : (db.planMigration options).obsolete = [] := by
    show (if (!db.projectionComplete && _) = true then _ else _) = _
    rw [h, Bool.not_true, Bool.false_and, if_neg Bool.false_ne_true]
  have hscanned : (db.planMigration options).scanned = true := by
    show (decide ((db.planMigration options).batch.length < options.batchSize) || _) = true
    rw [hbatch, Bool.or_eq_true, decide_eq_true_iff]
    exact .inl hsize
  refine ⟨hbatch, ?_, hobsolete, plan_complete.mpr ⟨hscanned, ?_⟩⟩
  · show List.filter _ (db.planMigration options).batch = []
    rw [hbatch]
    rfl
  · rw [hobsolete]
    exact hsize

theorem migrate_apply {after : ReportDb} (h : migrateUsageReport toLowerCase db options = some (after, result))
    (happly : options.apply = true) : options.afterRowid = none ∧ 0 < options.batchSize ∧
      Applied toLowerCase db (db.planMigration options) after ∧ result.dryRun = false ∧
        result.complete = (db.planMigration options).complete ∧ result.previouslyComplete =
          db.projectionComplete := by
  unfold migrateUsageReport at h
  dsimp only at h
  split at h
  · rename_i hvalid
    obtain ⟨effects, -, h⟩ := Option.bind_eq_some_iff.mp h
    obtain ⟨next, hnext, h⟩ := Option.bind_eq_some_iff.mp h
    cases h
    have hoptions := (Bool.and_eq_true_iff.mp hvalid).1
    unfold MigrationOptions.valid at hoptions
    simp only [Bool.and_eq_true, happly, Bool.true_and, decide_eq_true_eq, Bool.not_eq_true',
      Option.isSome_eq_false_iff, Option.isNone_iff_eq_none] at hoptions
    obtain ⟨⟨⟨-, hafter⟩, hsize⟩, -⟩ := hoptions
    exact ⟨hafter, by omega, applyPlan_spec hnext, by rw [happly]; rfl, rfl, rfl⟩
  · cases h

theorem migrate_dryRun {after : ReportDb} (h : migrateUsageReport toLowerCase db options = some
    (after, result))
    (happly : options.apply = false) : after = db ∧ result.dryRun = true := by
  unfold migrateUsageReport at h
  dsimp only at h
  split at h
  · obtain ⟨effects, -, h⟩ := Option.bind_eq_some_iff.mp h
    rw [happly, if_neg Bool.false_ne_true] at h
    cases h
    exact ⟨rfl, rfl⟩
  · cases h

theorem inv_complete {after : ReportDb} (h : CoverageInv toLowerCase s)
    (hcomplete : s.db.projectionComplete = true) (hafter : options.afterRowid = none)
      (hsize : 0 < options.batchSize)
    (happlied : Applied toLowerCase s.db (s.db.planMigration options) after) :
    CoverageInv toLowerCase { s with db := after } := by
  obtain ⟨hbatch, hprojected, hobsolete, hplan⟩ := plan_of_complete hcomplete hafter hsize
  have hreport : ∀ x, x ∈ after.report.rows ↔ x ∈ s.db.report.rows := by
    intro x
    rw [happlied.report, hbatch, hprojected, hobsolete]
    simp
  have hcoverage : after.coverage.verified = after.coverage.generation ∧
      after.coverage.round = after.coverage.generation := by
    rw [happlied.coverage, hplan]
    exact ⟨rfl, rfl⟩
  have hafterComplete : after.projectionComplete = true := by
    refine projectionComplete_iff.mpr ⟨?_, hcoverage.1⟩
    rw [happlied.migration]
    exact hplan
  have hc := h.covered hcomplete
  refine ⟨hcoverage.1.le, hcoverage.2.le, fun _ => ⟨fun row hrow hret => ?_,
    fun entry hentry => ?_⟩, fun hcontinues => ?_⟩
  · have hrow : row ∈ after.events.rows := hrow
    rw [happlied.events] at hrow
    obtain ⟨entry, hentry, e⟩ := hc.every row hrow hret
    exact ⟨entry, (hreport entry).mpr hentry, e⟩
  · rw [happlied.events]
    exact hc.only entry ((hreport entry).mp hentry)
  · have hcontinues := (continuesRound_iff.mp hcontinues).1
    rw [hafterComplete] at hcontinues
    cases hcontinues

theorem inv_round {after : ReportDb} (h : CoverageInv toLowerCase s)
    (hcomplete : s.db.projectionComplete = false) (happly : options.apply = true)
    (hafter : options.afterRowid = none) (hsize : 0 < options.batchSize) (hsteady : SteadyRound s options)
    (happlied : Applied toLowerCase s.db (s.db.planMigration options) after) : CoverageInv toLowerCase ⟨after,
      { roundCutoff := some options.cutoff
        cutoff := if (s.db.planMigration options).complete then some options.cutoff else s.history.cutoff
        paired := if (s.db.planMigration options).complete then [] else s.history.paired }⟩ := by
  have hvisited : ∀ row ∈ s.db.events.rows, ¬ ((s.db.planMigration options).next < row.rowid ∧
      row.rowid ≤ (s.db.planMigration options).upper) → Projected toLowerCase after.report row ∨
        Dropped after.report (some options.cutoff) row := fun row hrow hout =>
    visited_after h hcomplete happly hafter hsize hsteady happlied hrow hout
  have hround : after.coverage.round = after.coverage.generation := by
    rw [happlied.coverage]
  refine ⟨?_, hround.le, fun hc => ?_, fun _ row hrow hout => ?_⟩
  · rw [happlied.coverage]
    have := h.verified_le
    cases (s.db.planMigration options).complete with
    | true => exact Int.le_refl _
    | false => exact h.verified_le
  · have hplan := (projectionComplete_iff.mp hc).1
    have hplan : after.migration.complete = true := hplan
    rw [happlied.migration] at hplan
    have hplan : (s.db.planMigration options).complete = true := hplan
    rw [hplan, if_pos rfl, if_pos rfl]
    refine covered_after hcomplete hsize happlied hplan (fun row hrow => ?_) _
    refine hvisited row hrow ?_
    rintro ⟨hnext, hupper⟩
    have := plan_covers hcomplete hsize (plan_complete.mp hplan).1 hrow hnext
    omega
  · have hrow : row ∈ after.events.rows := hrow
    have hout : ¬ (after.migration.lastRowid < row.rowid ∧ row.rowid ≤ after.migration.upperRowid) := hout
    rw [happlied.events] at hrow
    rw [happlied.migration] at hout
    exact hvisited row hrow hout

theorem inv_migrate {after : ReportDb} (h : CoverageInv toLowerCase s) (hsteady : SteadyRound s options)
    (hmigrate : migrateUsageReport toLowerCase s.db options = some (after, result)) :
    CoverageInv toLowerCase ⟨after, s.history.migrated options result⟩ := by
  unfold History.migrated
  cases happly : options.apply with
  | false =>
    obtain ⟨rfl, hdry⟩ := migrate_dryRun hmigrate happly
    rw [hdry, Bool.true_or, if_pos rfl]
    exact h
  | true =>
    obtain ⟨hafter, hsize, happlied, hdry, hresult, hprevious⟩ := migrate_apply hmigrate happly
    rw [hdry, hprevious, hresult, Bool.false_or]
    cases hcomplete : s.db.projectionComplete with
    | true =>
      rw [if_pos rfl]
      exact inv_complete h hcomplete hafter hsize happlied
    | false =>
      rw [if_neg Bool.false_ne_true]
      exact inv_round h hcomplete happly hafter hsize hsteady happlied

end Migration

/-! ## 5. Every run -/

section Runs

variable {toLowerCase : String → String}

theorem coverage_step {s' : ReportState} (h : CoverageInv toLowerCase s)
    (hstep : ReportStep toLowerCase SteadyRound s s') : CoverageInv toLowerCase s' := by
  cases hstep with
  | restart => exact h
  | ingest row now => exact inv_ingest h row now
  | cleanup cutoff hclean => exact inv_cleanup h hclean
  | insert row hinsert =>
    obtain ⟨events, -, hinsert⟩ := Option.bind_eq_some_iff.mp hinsert
    obtain ⟨coverage, hcoverage, e⟩ := Option.bind_eq_some_iff.mp hinsert
    cases e
    exact inv_unpaired h (advance_eq hcoverage)
  | update hrow row' hupdate =>
    obtain ⟨events, -, hupdate⟩ := Option.bind_eq_some_iff.mp hupdate
    obtain ⟨coverage, hcoverage, e⟩ := Option.bind_eq_some_iff.mp hupdate
    cases e
    exact inv_unpaired h (advance_eq hcoverage)
  | delete hrow hdelete =>
    obtain ⟨coverage, hcoverage, e⟩ := Option.bind_eq_some_iff.mp hdelete
    cases e
    exact inv_unpaired h (advance_eq hcoverage)
  | migrate options hsteady hmigrate => exact inv_migrate h hsteady hmigrate

theorem coverage_initial (events : EventTable) (report : Table ReportEntry.id)
    (migration : Option ReportMigration) :
    CoverageInv toLowerCase (initialState events report migration) := by
  have hround : (initialState events report migration).db.coverage.round = -1 := rfl
  have hgeneration : (initialState events report migration).db.coverage.generation = 0 := rfl
  have hverified : (initialState events report migration).db.coverage.verified =
      if events.rows.isEmpty ∧ report.rows.isEmpty then 0 else -1 := rfl
  refine ⟨?_, by omega, fun hc => ?_, fun hc => ?_⟩
  · rw [hverified, hgeneration]
    split
    · exact Int.le_refl 0
    · omega
  · have e := (projectionComplete_iff.mp hc).2
    rw [hverified, hgeneration] at e
    split at e
    · rename_i hempty
      rw [List.isEmpty_iff, List.isEmpty_iff] at hempty
      refine ⟨fun row hrow => ?_, fun entry hentry => ?_⟩
      · have hrow : row ∈ events.rows := hrow
        rw [hempty.1] at hrow
        cases hrow
      · have hentry : entry ∈ report.rows := hentry
        rw [hempty.2] at hentry
        cases hentry
    · omega
  · have e := (continuesRound_iff.mp hc).2
    omega

/-- **Every run keeps the invariant**, from any ledger with any projection and any marker from
    before the triggers. -/
theorem coverage_run {events : EventTable} {report : Table ReportEntry.id} {migration : Option ReportMigration}
    (hrun : Relation.ReflTransGen (ReportStep toLowerCase SteadyRound)
      (initialState events report migration) s) : CoverageInv toLowerCase s := by
  induction hrun with
  | refl => exact coverage_initial events report migration
  | tail _ hstep ih => exact coverage_step ih hstep

/-- **A complete projection covers what is retained.** -/
theorem projection_covers (events : EventTable) (report : Table ReportEntry.id)
    (migration : Option ReportMigration) {s : ReportState}
    (hrun : Relation.ReflTransGen (ReportStep toLowerCase SteadyRound)
      (initialState events report migration) s) (hcomplete : s.db.projectionComplete = true) :
    Covered toLowerCase s :=
  (coverage_run hrun).covered hcomplete

end Runs

section Example

instance (s : ReportState) (options : MigrationOptions) : Decidable (SteadyRound s options) :=
  inferInstanceAs (Decidable (options.apply = true → s.db.continuesRound = true →
    ∀ c ∈ s.history.roundCutoff, c ≤ options.cutoff))

def callAt (now : Int) : MigrationOptions := ⟨true, 1, now, none⟩

def ReportState.call (s : ReportState) (options : MigrationOptions) : ReportState :=
  match migrateUsageReport id s.db options with
  | some (db, result) => ⟨db, s.history.migrated options result⟩
  | none => s

theorem call_step {condition : ReportState → MigrationOptions → Prop}
    {options : MigrationOptions} (hcondition : condition s options)
    (h : (migrateUsageReport id s.db options).isSome = true) : ReportStep id condition s (s.call options) := by
  unfold ReportState.call
  cases hmigrate : migrateUsageReport id s.db options with
  | none =>
    rw [hmigrate] at h
    cases h
  | some value => exact .migrate options hcondition hmigrate

/-- A row and a projection from before the triggers: an entry without an event. -/
def historyRows : EventTable where
  table :=
  ⟨[⟨⟨"usage_1", 0, "tenant", "policy", "openai", "success", .obj []⟩, 1, by decide⟩], by decide⟩
  ids := by decide

def orphanReport : Table ReportEntry.id := ⟨[⟨"usage_0", 0, default⟩], by decide⟩

def historyState : ReportState := initialState historyRows orphanReport none

/-- **A round whose second call is made at an earlier time** completes without the event that its
    first call found expired. -/
theorem earlier_call_drops : ∃ (events : EventTable) (report : Table ReportEntry.id)
    (migration : Option ReportMigration) (s : ReportState),
    Relation.ReflTransGen (ReportStep id fun _ _ => True) (initialState events report migration) s ∧
      s.db.projectionComplete = true ∧ ¬ Covered id s := by
  let s := (historyState.call (callAt (reportRetentionMs + 1))).call (callAt reportRetentionMs)
  refine ⟨historyRows, orphanReport, none, s,
    (Relation.ReflTransGen.refl.tail (call_step trivial (by decide +kernel))).tail
      (call_step trivial (by decide +kernel)), by decide +kernel, fun hcovered => ?_⟩
  have hcutoff : s.history.cutoff = some 0 := by decide +kernel
  have hreport : s.db.report.rows = [] := by decide +kernel
  have hthere : s.db.events.rows.any (fun row => row.occurredAtMs == 0) = true := by
    decide +kernel
  obtain ⟨row, hrow, hat⟩ := List.any_eq_true.mp hthere
  have hat : row.occurredAtMs = 0 := eq_of_beq hat
  obtain ⟨entry, hentry, -⟩ := hcovered.every row hrow (.inr ⟨0, hcutoff, hat.ge⟩)
  rw [hreport] at hentry
  cases hentry

theorem projection_covers_round :
    Covered id ((historyState.call (callAt reportRetentionMs)).call (callAt reportRetentionMs)) :=
  projection_covers historyRows orphanReport none
    ((Relation.ReflTransGen.refl.tail (call_step (by decide +kernel) (by decide +kernel))).tail
      (call_step (by decide +kernel) (by decide +kernel))) (by decide +kernel)

end Example

end ClawRouter.Report
