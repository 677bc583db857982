/-
  Subject:   What a usage ledger does with an event, and a budget ledger with a charge, seen from the rows.

  A usage ledger forgets a row only when its retention is over, and takes an event only under an id that no
  row has. A budget ledger keeps the row of a charge as it is until it forgets it, whatever else it is asked.

  * **`ingest_spec`**: the outcomes of an ingest;
  * `Receipt`, **`charge_found`**: a charge that has its row already.
-/
import ClawRouter.Billing.Messages
import ClawRouter.Budget.Ownership

namespace ClawRouter.Billing

open Keyed Budget Report

/-! ## 1. Usage ledgers -/

def Past (now : Int) (event : UsageEvent) : Prop := event.occurredAtMs < now - usageRetentionMs

theorem Past.mono {t t' : Int} {event : UsageEvent} (h : Past t event) (ht : t ≤ t') : Past t' event := by
  unfold Past at h ⊢
  omega

/-- No row is new, and those that are gone are past their retention. -/
structure Kept (now : Int) (db after : ReportDb) : Prop where
  old : ∀ row ∈ after.events.rows, row ∈ db.events.rows
  kept : ∀ row ∈ db.events.rows, row ∈ after.events.rows ∨ Past now row.toUsageEvent

theorem Kept.same {now : Int} {db after : ReportDb} (h : after.events = db.events) : Kept now db after :=
  ⟨fun _ hrow => h ▸ hrow, fun _ hrow => .inl (h ▸ hrow)⟩

/-- What a usage ledger does besides: its retention, which every read and the alarm begin with, the migration
of its reports, a restart, and the attribution of a row, in columns that an event has not. -/
inductive UsageStep (toLowerCase : String → String) (now : Int) (db : ReportDb) : ReportDb → Prop
  | cleanup {after : ReportDb} (h : db.cleanup (now - usageRetentionMs) = some after) :
      UsageStep toLowerCase now db after
  | migrate {options : MigrationOptions} {after : ReportDb} {result : MigrationResult}
      (h : migrateUsageReport toLowerCase db options = some (after, result)) : UsageStep toLowerCase
        now db after
  | restart : UsageStep toLowerCase now db
      (ensureUsageReportSchema db.events db.report (some db.migration) (some db.coverage))
  | attributed {row : EventRow} {after : ReportDb} (hrow : row ∈ db.events.rows)
      (h : db.canonicalUpdate row row = some after) : UsageStep toLowerCase now db after

section Usage

variable {toLowerCase : String → String} {now : Int} {db after : ReportDb}

theorem pair_events {write : ReportDb → Option ReportDb} (h : db.withUsageReportPair write = some after) :
    ∃ mid, write db = some mid ∧ after.events = mid.events := by
  obtain ⟨mid, hmid, rfl⟩ := Option.map_eq_some_iff.mp h
  exact ⟨mid, hmid, rfl⟩

theorem cleanup_rows {cutoff : Int} (h : db.cleanup cutoff = some after) (row : EventRow) :
    row ∈ after.events.rows ↔ row ∈ db.events.rows ∧ cutoff ≤ row.occurredAtMs := by
  obtain ⟨mid, hmid, hevents⟩ := pair_events h
  obtain ⟨next, hnext, hmid⟩ := Option.bind_eq_some_iff.mp hmid
  cases hmid
  rw [hevents]
  rw [(deletes_spec hnext).events]
  constructor
  · rintro ⟨hrow, hno⟩
    refine ⟨hrow, ?_⟩
    by_contra hlt
    exact hno row (List.mem_filter.mpr ⟨hrow, by simpa using hlt⟩) rfl
  · rintro ⟨hrow, hle⟩
    refine ⟨hrow, fun r hr e => ?_⟩
    obtain ⟨hr, hlt⟩ := List.mem_filter.mp hr
    have hlt : r.occurredAtMs < cutoff := by simpa using hlt
    rw [EventTable.eq_of_rowid hrow hr e] at hle
    omega

theorem cleanup_kept (h : db.cleanup (now - usageRetentionMs) = some after) : Kept now db after where
  old := fun row hrow => ((cleanup_rows h row).mp hrow).1
  kept := fun row hrow => by
    by_cases hlt : row.occurredAtMs < now - usageRetentionMs
    · exact .inr hlt
    · exact .inl ((cleanup_rows h row).mpr ⟨hrow, by omega⟩)

theorem UsageStep.kept (h : UsageStep toLowerCase now db after) : Kept now db after := by
  cases h with
  | cleanup h => exact cleanup_kept h
  | @migrate options _ _ h =>
    cases happly : options.apply with
    | true => exact .same (migrate_apply h happly).2.2.1.events
    | false => exact .same (congrArg ReportDb.events (migrate_dryRun h happly).1)
  | restart => exact .same rfl
  | @attributed row after hrow h =>
    obtain ⟨events, hevents, h⟩ := Option.bind_eq_some_iff.mp h
    obtain ⟨coverage, -, h⟩ := Option.bind_eq_some_iff.mp h
    cases h
    have hmem : ∀ x, x ∈ events.rows ↔ x ∈ db.events.rows := by
      intro x
      rw [EventTable.mem_insert hevents, EventTable.mem_delete]
      constructor
      · rintro (rfl | ⟨hx, -⟩)
        · exact hrow
        · exact hx
      · intro hx
        by_cases e : x.rowid = row.rowid
        · exact .inl (EventTable.eq_of_rowid hx hrow e)
        · exact .inr ⟨hx, beq_eq_false_iff_ne.mpr e⟩
    exact ⟨fun x hx => (hmem x).mp hx, fun x hx => .inl ((hmem x).mpr hx)⟩

/-- **What an ingest does**, and what it tells. -/
inductive Ingested (now : Int) (db : ReportDb) (row : EventRow) (after : ReportDb) :
    Option UsageIngestOutcome → Prop
  | threw (kept : Kept now db after) : Ingested now db row after none
  | duplicate {r : EventRow} (kept : Kept now db after) (held : r ∈ after.events.rows) (id : r.id = row.id) :
      Ingested now db row after (some .duplicate)
  | expired (kept : Kept now db after) (past : Past now row.toUsageEvent) :
      Ingested now db row after (some .expiredByRetention)
  | stored {mid : ReportDb} (kept : Kept now db mid) (free : ∀ r ∈ mid.events.rows, r.id ≠ row.id)
      (current : ¬Past now row.toUsageEvent)
      (rows : ∀ r, r ∈ after.events.rows ↔ r = row ∨ r ∈ mid.events.rows) :
      Ingested now db row after (some .stored)

theorem ingest_spec (db : ReportDb) (row : EventRow) :
    Ingested now db row (db.ingest toLowerCase row now).1 (db.ingest toLowerCase row now).2 := by
  unfold ReportDb.ingest
  dsimp only
  cases hclean : db.cleanup (now - usageRetentionMs) with
  | none => exact .threw (.same rfl)
  | some mid =>
    have hkept := cleanup_kept hclean
    dsimp only
    split
    · rename_i hany
      obtain ⟨r, hr, hid⟩ := List.any_eq_true.mp hany
      exact .duplicate hkept hr (beq_iff_eq.mp hid)
    rename_i hnone
    split
    · rename_i hlt
      exact .expired hkept hlt
    rename_i hge
    cases hpair : mid.withUsageReportPair fun db => do
        let db ← db.canonicalInsert row
        let report ← insertUsageReportEvent toLowerCase db.report row.toUsageEvent
        some { db with report } with
    | none => exact .threw hkept
    | some stored =>
      obtain ⟨written, hwritten, hevents⟩ := pair_events hpair
      obtain ⟨inserted, hinserted, hwritten⟩ := Option.bind_eq_some_iff.mp hwritten
      obtain ⟨report, -, hwritten⟩ := Option.bind_eq_some_iff.mp hwritten
      cases hwritten
      obtain ⟨events, hinsert, hinserted⟩ := Option.bind_eq_some_iff.mp hinserted
      obtain ⟨coverage, -, hinserted⟩ := Option.bind_eq_some_iff.mp hinserted
      cases hinserted
      refine .stored hkept (fun r hr e => hnone ?_) hge fun r => ?_
      · exact List.any_eq_true.mpr ⟨r, hr, beq_iff_eq.mpr e⟩
      · rw [hevents]
        exact EventTable.mem_insert hinsert

end Usage

/-! ## 2. Charges -/

/-- The row is the receipt of the charge. -/
structure Receipt (request : BudgetChargeRequest) (r : Reservation) : Prop where
  window : r.windowKey = request.windowKey
  policy : r.policyId = request.policyId
  scope : r.budgetScopeKey = some request.scopeKey
  amount : request.amountMicros = some r.reservedMicros
  final : r.settled = .final
  started : r.dispatchStarted = true

section Charges

variable {now : Int} {l : Ledger} {request : BudgetChargeRequest} {r : Reservation}

/-- **A charge that has its row already** changes nothing, and is confirmed only by its own receipt. -/
theorem charge_found (hr : l.reservations.find? request.chargeId = some r) : (charge now request l).1 = l ∧
      ((charge now request l).2 = .charged request.chargeId → Receipt request r) ∧
      (¬Receipt request r → (charge now request l).2.rejected = true) := by
  unfold charge
  cases hamount : request.amountMicros with
  | none => exact ⟨rfl, (fun h => by cases h), fun _ => rfl⟩
  | some amount =>
    dsimp only
    split
    · exact ⟨rfl, (fun h => by cases h), fun _ => rfl⟩
    rw [hr]
    dsimp only
    split
    · exact ⟨rfl, (fun h => by cases h), fun _ => rfl⟩
    · rename_i hsame
      push Not at hsame
      obtain ⟨hwindow, hpolicy, hscope, hreserved, hfinal, hstarted⟩ := hsame
      have hreceipt : Receipt request r :=
        ⟨hwindow, hpolicy, hscope, by rw [hamount, hreserved], hfinal, by simpa using hstarted⟩
      exact ⟨rfl, fun _ => hreceipt, fun hno => absurd hreceipt hno⟩

theorem charge_absent (hnone : l.reservations.find? request.chargeId = none) :
    (charge now request l).1 = l ∧ (charge now request l).2.rejected = true ∨
      ∃ amount, request.amountMicros = some amount ∧
        charge now request l = (l.add (request.row amount now), .charged request.chargeId) := by
  unfold charge
  cases hamount : request.amountMicros with
  | none => exact .inl ⟨rfl, rfl⟩
  | some amount =>
    dsimp only
    split
    · exact .inl ⟨rfl, rfl⟩
    · rw [hnone]
      exact .inr ⟨amount, rfl, rfl⟩

theorem receipt_row (amount : Int) (hamount : request.amountMicros = some amount) :
    Receipt request (request.row amount now) :=
  ⟨rfl, rfl, rfl, hamount, rfl, rfl⟩

theorem receipt_step {l' : Ledger} {a : Op × LedgerReply} {id : String} (hs : Step now l a l')
    (hr : l.reservations.find? id = some r) (hfinal : r.settled = .final) :
    l'.reservations.find? id = some r ∨
      l'.reservations.find? id = none ∧ r.createdAtMs + chargeRetentionMs < now := by
  have hrow := row_step hs hr
  have hpending : r.settled ≠ .pending := by
    rw [hfinal]
    exact nofun
  generalize l'.reservations.find? id = row' at hrow ⊢
  cases hrow with
  | kept => exact .inl rfl
  | dispatched pending => exact absurd pending hpending
  | settled _ agrees _ =>
    have hsame := agrees hfinal
    subst hsame
    rw [← hfinal]
    exact .inl rfl
  | maintained left =>
    cases hkept : r.maintain now with
    | none =>
      rw [hkept] at left
      exact .inr ⟨left, maintain_eq_none hkept⟩
    | some kept =>
      rw [hkept] at left
      rw [(maintain_eq_some hkept).1, expire_of_settled hpending] at left
      exact .inl left

end Charges

end ClawRouter.Billing
