/-
  Subject:   `BudgetLedgerObject.ensureSchema` (src/worker/ledgers.ts): the upgrade of a budget database, run
             by the constructor of its object.

  The first schema added an admission to the total of its window and kept a row of it; the balance read since
  then adds the rows to the total. The upgrade therefore takes the amount of each row out of the total, one row
  after the other and never below zero. The two indexes at its end hold no data and are left out.

  * `spentOf_release`: what the loop leaves of a total.
  * **`upgrade_keeps_balances`**: the balance of a window is the larger of its old total and the sum of its rows.
-/
import ClawRouter.Budget.Ledger

namespace ClawRouter.Budget

open Keyed

/-! ## 1. The database -/

/-- The columns of `budget_reservations` that came after the first schema. -/
structure Columns where
  createdAtMs : Bool
  settled : Bool
  dispatchStarted : Bool
  budgetScopeKey : Bool

def Columns.first : Columns := ⟨false, false, false, false⟩

def Columns.all : Columns := ⟨true, true, true, true⟩

/-- What a row holds under a column that the table lacks means nothing. -/
structure ReservationTable where
  columns : Columns
  rows : Table Reservation.reservationId

/-- `none` is a table that was never created. -/
structure BudgetDatabase where
  windows : Option (Table BudgetWindow.windowKey)
  reservations : Option ReservationTable

def BudgetDatabase.ledger (db : BudgetDatabase) : Ledger :=
  ⟨db.windows.getD Table.empty, (db.reservations.map (·.rows)).getD Table.empty⟩

/-! ## 2. The upgrade -/

def spentOf (windows : Table BudgetWindow.windowKey) (windowKey : String) : Int :=
  ((windows.find? windowKey).map (·.spentMicros)).getD 0

/-- One turn of the loop; a window that has a row keeps its policy. -/
def release (windows : Table BudgetWindow.windowKey) (r : Reservation) : Table BudgetWindow.windowKey :=
  windows.upsert ⟨r.windowKey, ((windows.find? r.windowKey).map (·.policyId)).getD r.policyId,
    max 0 (spentOf windows r.windowKey - r.reservedMicros)⟩

namespace ReservationTable

/-- `ADD COLUMN created_at_ms … DEFAULT 0`, then `UPDATE … SET created_at_ms = ? WHERE created_at_ms = 0`. -/
def addCreatedAtMs (now : Int) (t : ReservationTable) : ReservationTable where
  columns :=
  { t.columns with createdAtMs := true }
  rows := (t.rows.update (fun _ => true) (fun r => { r with createdAtMs := 0 }) fun _ => rfl).update
    (fun r => r.createdAtMs == 0) (fun r => { r with createdAtMs := now }) fun _ => rfl

def addSettled (t : ReservationTable) : ReservationTable :=
  if t.columns.settled then t
  else ⟨{ t.columns with settled := true },
    t.rows.update (fun _ => true) (fun r => { r with settled := .pending }) fun _ => rfl⟩

theorem started_id (r : Reservation) :
    { r with dispatchStarted := true }.reservationId = r.reservationId := rfl

def addDispatchStarted (t : ReservationTable) : ReservationTable :=
  if t.columns.dispatchStarted then t
  else ⟨{ t.columns with dispatchStarted := true },
    t.rows.update (fun _ => true) (fun r => { r with dispatchStarted := true }) started_id⟩

def addBudgetScopeKey (t : ReservationTable) : ReservationTable :=
  if t.columns.budgetScopeKey then t
  else ⟨{ t.columns with budgetScopeKey := true },
    t.rows.update (fun _ => true) (fun r => { r with budgetScopeKey := none }) fun _ => rfl⟩

end ReservationTable

def ensureSchema (now : Int) (db : BudgetDatabase) : BudgetDatabase :=
  let windows := db.windows.getD Table.empty
  let reservations := db.reservations.getD ⟨Columns.all, Table.empty⟩
  let (windows, reservations) := if reservations.columns.createdAtMs then (windows, reservations)
    else (reservations.rows.rows.foldl release windows, reservations.addCreatedAtMs now)
  ⟨some windows, some reservations.addSettled.addDispatchStarted.addBudgetScopeKey⟩

/-! ## 3. The totals -/

def reservedIn (windowKey : String) (rows : List Reservation) : Int :=
  ((rows.filter fun r => r.windowKey == windowKey).map (·.reservedMicros)).sum

theorem reservedIn_cons (windowKey : String) (r : Reservation) (rows : List Reservation) :
    reservedIn windowKey (r :: rows) =
      (if r.windowKey = windowKey then r.reservedMicros else 0) + reservedIn windowKey rows := by
  unfold reservedIn
  rw [List.filter_cons]
  split <;> simp_all

theorem reservedIn_nonneg (windowKey : String) {rows : List Reservation}
    (h : ∀ r ∈ rows, 0 ≤ r.reservedMicros) :
    0 ≤ reservedIn windowKey rows := by
  refine List.sum_nonneg fun n hn => ?_
  obtain ⟨r, hr, rfl⟩ := List.mem_map.mp hn
  exact h r (List.mem_of_mem_filter hr)

theorem spentOf_release (windows : Table BudgetWindow.windowKey) (r : Reservation) (windowKey : String) :
    spentOf (release windows r) windowKey =
      if r.windowKey = windowKey then max 0 (spentOf windows windowKey - r.reservedMicros)
      else spentOf windows windowKey := by
  unfold release
  rw [spentOf, Table.find?_upsert]
  split
  · rename_i e
    subst e
    rfl
  · rfl

/-- The rows of a window take their sum out of its total, in whatever order they come. -/
theorem spentOf_released (windowKey : String) {rows : List Reservation}
    (hrows : ∀ r ∈ rows, 0 ≤ r.reservedMicros)
    {windows : Table BudgetWindow.windowKey} (hspent : 0 ≤ spentOf windows windowKey) :
    spentOf (rows.foldl release windows) windowKey = max 0
      (spentOf windows windowKey - reservedIn windowKey rows) := by
  induction rows generalizing windows with
  | nil =>
    have hnone : reservedIn windowKey [] = 0 := rfl
    rw [List.foldl_nil]
    omega
  | cons r rows ih =>
    have hrest := fun x hx => hrows x (List.mem_cons_of_mem r hx)
    have hsum := reservedIn_nonneg windowKey hrest
    have hone := spentOf_release windows r windowKey
    rw [List.foldl_cons, reservedIn_cons]
    by_cases e : r.windowKey = windowKey
    · rw [if_pos e] at hone ⊢
      rw [ih hrest (by omega)]
      omega
    · rw [if_neg e] at hone ⊢
      rw [ih hrest (by omega)]
      omega

theorem spentOf_nonneg {windows : Table BudgetWindow.windowKey} (h : ∀ w ∈ windows.rows, 0 ≤ w.spentMicros)
    (windowKey : String) : 0 ≤ spentOf windows windowKey := by
  unfold spentOf
  cases hw : windows.find? windowKey with
  | none => exact le_refl 0
  | some w => exact h w (Table.find?_eq_some.mp hw).1

/-! ## 4. The upgraded database -/

/-- A row of the first schema, read under the last one. -/
def Reservation.upgraded (now : Int) (r : Reservation) : Reservation :=
  { r with createdAtMs := now, settled := .pending, dispatchStarted := true, budgetScopeKey := none }

theorem ensureSchema_columns (now : Int) (db : BudgetDatabase) : ∃ windows rows,
    ensureSchema now db = ⟨some windows, some ⟨Columns.all, rows⟩⟩ := by
  unfold ensureSchema
  generalize db.reservations.getD ⟨Columns.all, Table.empty⟩ = t
  obtain ⟨⟨created, settled, dispatched, scope⟩, rows⟩ := t
  cases created <;> cases settled <;> cases dispatched <;> cases scope <;> exact ⟨_, _, rfl⟩

/-- The upgrade of an upgraded database is itself, at any later time. -/
theorem ensureSchema_again (now later : Int) (db : BudgetDatabase) :
    ensureSchema later (ensureSchema now db) = ensureSchema now db := by
  obtain ⟨windows, rows, e⟩ := ensureSchema_columns now db
  rw [e]
  rfl

section First

variable {db : BudgetDatabase} {rows : Table Reservation.reservationId}

theorem ledger_windows (now : Int) (h : db.reservations = some ⟨Columns.first, rows⟩) :
    (ensureSchema now db).ledger.windows = rows.rows.foldl release (db.windows.getD Table.empty) := by
  unfold ensureSchema
  rw [h]
  rfl

theorem ledger_rows (now : Int) (h : db.reservations = some ⟨Columns.first, rows⟩) :
    (ensureSchema now db).ledger.reservations.rows = rows.rows.map (·.upgraded now) := by
  have hrows : (ensureSchema now db).ledger.reservations =
      (ReservationTable.mk Columns.first rows |>.addCreatedAtMs
        now).addSettled.addDispatchStarted.addBudgetScopeKey.rows := by
    unfold ensureSchema
    rw [h]
    rfl
  rw [hrows]
  simp [ReservationTable.addCreatedAtMs, ReservationTable.addSettled, ReservationTable.addDispatchStarted,
    ReservationTable.addBudgetScopeKey, Columns.first, Table.update, Reservation.upgraded]

/-- A row without a scope counts for every caller of its window. -/
theorem sumOn_upgraded (now : Int) (h : db.reservations = some ⟨Columns.first, rows⟩) (windowKey : String)
    (scopeKey : Option String) :
    (ensureSchema now db).ledger.reservations.sumOn (counted windowKey scopeKey) (·.reservedMicros) =
      reservedIn windowKey rows.rows := by
  have hcounted : ∀ r : Reservation, counted windowKey scopeKey (r.upgraded now) =
    (r.windowKey == windowKey) := by
    intro r
    simp [counted, Reservation.upgraded]
  rw [Table.sumOn, ledger_rows now h, List.filter_map, List.map_map]
  congr 2
  exact List.filter_congr fun r _ => hcounted r

/-- **The upgrade never lowers a balance**: for every caller it is the larger of the old total and of what the
    window's rows reserve; every row is kept, as dispatched and unsettled, and a second construction changes
    nothing. -/
theorem upgrade_keeps_balances (now : Int) (hold : db.reservations = some ⟨Columns.first, rows⟩)
    (hspent : ∀ w ∈ (db.windows.getD Table.empty).rows, 0 ≤ w.spentMicros)
    (hreserved : ∀ r ∈ rows.rows, 0 ≤ r.reservedMicros) :
    (∀ windowKey scopeKey, effectiveSpent (ensureSchema now db).ledger windowKey scopeKey =
      max (spentOf (db.windows.getD Table.empty) windowKey) (reservedIn windowKey rows.rows)) ∧
    (ensureSchema now db).ledger.reservations.rows = rows.rows.map (·.upgraded now) ∧
    ∀ later, ensureSchema later (ensureSchema now db) = ensureSchema now db := by
  refine ⟨fun windowKey scopeKey => ?_, ledger_rows now hold, fun later => ensureSchema_again now later db⟩
  have htotal := spentOf_released windowKey hreserved (spentOf_nonneg hspent windowKey)
  have hsum := reservedIn_nonneg windowKey hreserved
  have hold' := spentOf_nonneg hspent windowKey
  rw [← ledger_windows now hold, spentOf] at htotal
  unfold effectiveSpent
  dsimp only
  rw [sumOn_upgraded now hold, htotal]
  omega

end First

/-- Two rows of 4 and 3 in a window whose total is 5: the first turn of the loop leaves 1, the second 0. -/
def fiveOfSeven : BudgetDatabase where
  windows :=
  some (Table.empty.insert ⟨"w", "p", 5⟩)
  reservations := some ⟨Columns.first, (Table.empty.insert ⟨"a", "w", "p", 3, 0, .final, false, none⟩).insert
    ⟨"b", "w", "p", 4, 0, .final, false, none⟩⟩

theorem fiveOfSeven_balance : effectiveSpent (ensureSchema 9 fiveOfSeven).ledger "w" (some "scope") = 7 :=
  (@upgrade_keeps_balances fiveOfSeven _ 9 rfl (by decide) (by decide)).1 "w" (some "scope")

end ClawRouter.Budget
