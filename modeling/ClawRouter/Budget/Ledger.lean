/-
  Subject:   `BudgetLedgerObject` (src/worker/ledgers.ts): the two tables of one budget ledger and
             its operations `reserve`, `dispatch`, `settle`, `charge`, `status` and `maintain`.

  A ledger is `budget_windows` (written only by the schema migration, so never here) and
  `budget_reservations`. Every operation runs to its end without an await between its first read
  and its last write, so it is one function of the clock reading, the request and the tables.
  `maintain` runs first in every `fetch` and in every alarm; between it and the operation the
  request body is awaited, so a run lists the two as steps of their own.

  * `Effect`, `exec_effect`: everything one operation can do; the proofs about runs read these
    rules and never the operations.
-/
import ClawRouter.Lib.Json
import ClawRouter.Lib.Keyed
import ClawRouter.Lib.Timed

namespace ClawRouter.Budget

open Keyed
open Js (maxSafeInteger)

/-! ## 1. The tables -/

def reservationLeaseMs : Int := 15 * 60 * 1000
def usageDayMs : Int := 86400000
def chargeRetentionMs : Int := 45 * usageDayMs

/-- `Number.isSafeInteger(value)`; `none` is a JSON value that is no integer. -/
def isSafeInteger : Option Int → Bool
  | some n => -maxSafeInteger ≤ n && n ≤ maxSafeInteger
  | none => false

inductive Settled
  | pending  -- 0: reserved, the lease may still run
  | final    -- 1: settled, or known to be free
  | bound    -- 2: dispatched and past its lease, not settled
  deriving DecidableEq

/-- A row of the reservations. -/
structure Reservation where
  reservationId : String
  windowKey : String
  policyId : String
  reservedMicros : Int
  createdAtMs : Int
  settled : Settled
  dispatchStarted : Bool
  budgetScopeKey : Option String
  deriving DecidableEq

/-- What is spent in a window for good. -/
structure BudgetWindow where
  windowKey : String
  policyId : String
  spentMicros : Int
  deriving DecidableEq

/-- The tables of a ledger. -/
structure Ledger where
  windows : Table BudgetWindow.windowKey
  reservations : Table Reservation.reservationId

def Ledger.empty : Ledger := ⟨Table.empty, Table.empty⟩

/-! ## 2. Requests and answers -/

/-- The body of `POST /reserve`. -/
structure BudgetReserveRequest where
  policyId : String
  windowKey : String
  scopeKey : Option String
  limitMicros : Int
  costMicros : Int
  reservationId : String
  capability : String
  dispatched : Bool
  deriving DecidableEq

/-- The body of `POST /settle`. -/
structure BudgetSettleRequest where
  reservationId : String
  actualCostMicros : Option Int
  deriving DecidableEq

/-- The body of `POST /charge`. -/
structure BudgetChargeRequest where
  chargeId : String
  policyId : String
  windowKey : String
  scopeKey : String
  capability : String
  amountMicros : Option Int
  deriving DecidableEq

/-- The query of `/status`; `limitMicros` is `Number(limit_micros)`, so `some 0` where the
    parameter is missing. -/
structure BudgetStatusRequest where
  policyId : Option String
  windowKey : Option String
  limitMicros : Option Int
  scopeKey : Option String
  deriving DecidableEq

/-- What a ledger answers. -/
inductive LedgerReply
  | error (code message : String) (status : Nat)
  | reserved (allowed : Bool) (policyId windowKey : String)
      (chargedMicros spentMicros remainingMicros : Int) (dispatched : Bool)
  | dispatched
  | settled (chargedMicros spentMicros : Int)
  | charged (chargeId : String)
  | status (policyId windowKey : String) (limitMicros spentMicros remainingMicros : Int)
  | maintained
  deriving DecidableEq

def LedgerReply.rejected : LedgerReply → Bool
  | .error _ _ httpStatus => 400 ≤ httpStatus && httpStatus < 500
  | _ => false

/-! ## 3. The operations -/

/-- The condition of the sum in `effectiveSpent`: a caller without a scope sees every row of the
    window, and a row without one is seen by every caller. -/
def counted (windowKey : String) (scopeKey : Option String) (r : Reservation) : Bool :=
  r.windowKey == windowKey &&
    (scopeKey.isNone || r.budgetScopeKey.isNone || r.budgetScopeKey == scopeKey)

def effectiveSpent (l : Ledger) (windowKey : String) (scopeKey : Option String) : Int :=
  let window := ((l.windows.find? windowKey).map (·.spentMicros)).getD 0
  let reservations := l.reservations.sumOn (counted windowKey scopeKey) (·.reservedMicros)
  max 0 window + max 0 reservations

/-- `UPDATE budget_reservations SET reserved_micros = 0, settled = 1` over the rows past their lease
    that were not dispatched. -/
def Ledger.freeExpired (l : Ledger) (now : Int) : Ledger :=
  { l with
    reservations := l.reservations.update
      (fun r => r.settled == .pending && !r.dispatchStarted && r.createdAtMs ≤ now - reservationLeaseMs)
      (fun r => { r with reservedMicros := 0, settled := .final }) fun _ => rfl }

/-- `UPDATE budget_reservations SET settled = 2` over the rows past their lease that were
    dispatched. -/
def Ledger.bindExpired (l : Ledger) (now : Int) : Ledger :=
  { l with
    reservations := l.reservations.update
      (fun r => r.settled == .pending && r.dispatchStarted && r.createdAtMs ≤ now - reservationLeaseMs)
      (fun r => { r with settled := .bound }) fun _ => rfl }

/-- `DELETE FROM budget_reservations` over the rows past retention that are not pending. -/
def Ledger.retain (l : Ledger) (now : Int) : Ledger :=
  { l with
    reservations := l.reservations.delete fun r =>
      r.settled != .pending && r.createdAtMs < now - chargeRetentionMs }

def maintain (now : Int) (l : Ledger) : Ledger := ((l.freeExpired now).bindExpired now).retain now

def Ledger.add (l : Ledger) (r : Reservation) : Ledger := { l with reservations := l.reservations.insert r }

/-- `UPDATE budget_reservations SET dispatch_started = 1 WHERE reservation_id = ?`. -/
def Ledger.markDispatched (l : Ledger) (reservationId : String) : Ledger :=
  { l with
    reservations := l.reservations.update (fun r => r.reservationId == reservationId)
      (fun r => { r with dispatchStarted := true }) fun _ => rfl }

/-- `UPDATE budget_reservations SET reserved_micros = ?, settled = 1 WHERE reservation_id = ?`. -/
def Ledger.recordSettlement (l : Ledger) (reservationId : String) (actual : Int) : Ledger :=
  { l with
    reservations := l.reservations.update (fun r => r.reservationId == reservationId)
      (fun r => { r with reservedMicros := actual, settled := .final }) fun _ => rfl }

/-- `reply` of `reserve`: a caller with a control checks the size of the answer after the row is
    written, and turns one that does not fit into its own error. -/
def reply (fits : LedgerReply → Bool) (value : LedgerReply) : LedgerReply :=
  if fits value then value
  else .error "minimax_music_cover_unavailable" "Cover ledger request is unavailable" 503

def BudgetReserveRequest.row (request : BudgetReserveRequest) (now : Int) : Reservation where
  reservationId :=
  request.reservationId
  windowKey := request.windowKey
  policyId := request.policyId
  reservedMicros := request.costMicros
  createdAtMs := now
  settled := .pending
  dispatchStarted := request.dispatched
  budgetScopeKey := request.scopeKey

def Reservation.leased (r : Reservation) (now : Int) : Bool := now < r.createdAtMs + reservationLeaseMs

def reserve (now : Int) (fits : LedgerReply → Bool) (request : BudgetReserveRequest) (l : Ledger) :
    Ledger × LedgerReply :=
  match l.reservations.find? request.reservationId with
  | some existing =>
    let spent := effectiveSpent l existing.windowKey existing.budgetScopeKey
    let dispatched := request.dispatched && existing.dispatchStarted &&
      existing.settled == .pending && existing.leased now
    (l, reply fits (.reserved true existing.policyId existing.windowKey existing.reservedMicros
      spent (max 0 (request.limitMicros - spent)) dispatched))
  | none =>
    let spent := effectiveSpent l request.windowKey request.scopeKey
    let remaining := max 0 (request.limitMicros - spent)
    if request.costMicros > remaining then
      (l, reply fits (.reserved false request.policyId request.windowKey 0 spent remaining false))
    else
      let next := spent + request.costMicros
      (l.add (request.row now), reply fits (.reserved true request.policyId request.windowKey
        request.costMicros next
          (max 0 (request.limitMicros - next)) request.dispatched))

def dispatch (now : Int) (reservationId : String) (l : Ledger) : Ledger × LedgerReply :=
  let expired := LedgerReply.error "budget_reservation_expired"
    "budget reservation is no longer available for dispatch" 409
  match l.reservations.find? reservationId with
  | none => (l, expired)
  | some reservation =>
    if reservation.settled ≠ .pending ∨ reservation.leased now = false then (l, expired)
    else (l.markDispatched reservationId, .dispatched)

def settle (request : BudgetSettleRequest) (l : Ledger) : Ledger × LedgerReply :=
  let invalid := LedgerReply.error "invalid_budget_settlement"
    "actual cost must be a non-negative safe integer" 400
  match l.reservations.find? request.reservationId with
  | none => (l, .error "budget_reservation_missing" "budget settlement has no retained reservation receipt" 404)
  | some reservation =>
    match request.actualCostMicros with
    | none => (l, invalid)
    | some actual =>
      if isSafeInteger actual = false ∨ actual < 0 then (l, invalid)
      else if (reservation.settled = .final ∧ reservation.reservedMicros ≠ actual) ∨
          (reservation.dispatchStarted = false ∧ actual ≠ 0) then
        (l, .error "budget_settlement_conflict" "budget settlement conflicts with its retained receipt" 409)
      else
        let current := effectiveSpent l reservation.windowKey reservation.budgetScopeKey
        let next := max 0 (current - reservation.reservedMicros) + actual
        (l.recordSettlement request.reservationId actual, .settled actual next)

def BudgetChargeRequest.row (request : BudgetChargeRequest) (amount now : Int) : Reservation where
  reservationId :=
  request.chargeId
  windowKey := request.windowKey
  policyId := request.policyId
  reservedMicros := amount
  createdAtMs := now
  settled := .final
  dispatchStarted := true
  budgetScopeKey := some request.scopeKey

def charge (now : Int) (request : BudgetChargeRequest) (l : Ledger) : Ledger × LedgerReply :=
  let invalid := LedgerReply.error "invalid_budget_charge"
    "charge fields and non-negative safe integer amount are required" 400
  match request.amountMicros with
  | none => (l, invalid)
  | some amount =>
    if ([request.chargeId, request.policyId, request.windowKey, request.scopeKey,
          request.capability].any fun value => value.isEmpty) ∨
        isSafeInteger amount = false ∨ amount < 0 then (l, invalid)
    else
      match l.reservations.find? request.chargeId with
      | some existing =>
        if existing.windowKey ≠ request.windowKey ∨ existing.policyId ≠ request.policyId ∨
            existing.budgetScopeKey ≠ some request.scopeKey ∨
            existing.reservedMicros ≠ amount ∨ existing.settled ≠ .final ∨
            existing.dispatchStarted = false then
          (l, .error "budget_charge_conflict" "charge conflicts with its retained receipt" 409)
        else (l, .charged request.chargeId)
      | none => (l.add (request.row amount now), .charged request.chargeId)

/-- `GET /status`; an empty string is as missing as none. -/
def status (request : BudgetStatusRequest) (l : Ledger) : LedgerReply :=
  let invalid := LedgerReply.error "invalid_budget_request"
    "policy_id, window_key, and limit_micros are required" 400
  match request.policyId, request.windowKey, request.limitMicros with
  | some policyId, some windowKey, some limit =>
    if policyId.isEmpty ∨ windowKey.isEmpty ∨ isSafeInteger limit = false ∨ limit < 0 then invalid
    else
      let spent := effectiveSpent l windowKey request.scopeKey
      .status policyId windowKey limit spent (max 0 (limit - spent))
  | _, _, _ => invalid

/-- A request to a ledger. -/
inductive Op
  | reserve (fits : LedgerReply → Bool) (request : BudgetReserveRequest)
  | dispatch (reservationId : String)
  | settle (request : BudgetSettleRequest)
  | charge (request : BudgetChargeRequest)
  | status (request : BudgetStatusRequest)
  | maintain  -- the start of every request, and the alarm

def exec (now : Int) (l : Ledger) : Op → Ledger × LedgerReply
  | .reserve fits request => reserve now fits request l
  | .dispatch reservationId => dispatch now reservationId l
  | .settle request => settle request l
  | .charge request => charge now request l
  | .status request => (l, status request l)
  | .maintain => (maintain now l, .maintained)

/-! ## 4. What one operation can do -/

/-- **Everything an operation can do**: the rows it read, the checks it passed, the tables it
    leaves and its answer. -/
inductive Effect (now : Int) (l : Ledger) : Op → Ledger → LedgerReply → Prop
  | replayed {fits request r answer}
      (found : l.reservations.find? request.reservationId = some r)
      (answered : answer = reply fits (.reserved true r.policyId r.windowKey r.reservedMicros
        (effectiveSpent l r.windowKey r.budgetScopeKey)
        (max 0 (request.limitMicros - effectiveSpent l r.windowKey r.budgetScopeKey))
        (request.dispatched && r.dispatchStarted && r.settled == .pending && r.leased now))) :
      Effect now l (.reserve fits request) l answer
  | denied {fits request answer} (absent : l.reservations.find? request.reservationId = none)
      (exceeds : max 0 (request.limitMicros - effectiveSpent l request.windowKey request.scopeKey) <
        request.costMicros)
      (answered : answer = reply fits (.reserved false request.policyId request.windowKey 0
        (effectiveSpent l request.windowKey request.scopeKey)
        (max 0 (request.limitMicros - effectiveSpent l request.windowKey request.scopeKey))
        false)) :
      Effect now l (.reserve fits request) l answer
  | admitted {fits request answer} (absent : l.reservations.find? request.reservationId = none)
      (room : request.costMicros ≤
        max 0 (request.limitMicros - effectiveSpent l request.windowKey request.scopeKey))
      (answered : answer = reply fits (.reserved true request.policyId request.windowKey
        request.costMicros (effectiveSpent l request.windowKey request.scopeKey + request.costMicros)
        (max 0 (request.limitMicros -
          (effectiveSpent l request.windowKey request.scopeKey + request.costMicros)))
        request.dispatched)) :
      Effect now l (.reserve fits request) (l.add (request.row now)) answer
  | dispatched {reservationId r} (found : l.reservations.find? reservationId = some r)
      (pending : r.settled = .pending) (leased : r.leased now = true) :
      Effect now l (.dispatch reservationId) (l.markDispatched reservationId) .dispatched
  | settled {reservationId actual r} (found : l.reservations.find? reservationId = some r)
      (valid : isSafeInteger (some actual) = true) (nonneg : 0 ≤ actual)
      (agrees : r.settled = .final → r.reservedMicros = actual)
      (free : r.dispatchStarted = false → actual = 0) :
      Effect now l (.settle ⟨reservationId, some actual⟩) (l.recordSettlement reservationId actual)
        (.settled actual
          (max 0 (effectiveSpent l r.windowKey r.budgetScopeKey - r.reservedMicros) + actual))
  | charged {request amount} (amountMicros : request.amountMicros = some amount)
      (nonneg : 0 ≤ amount) (absent : l.reservations.find? request.chargeId = none) :
      Effect now l (.charge request) (l.add (request.row amount now)) (.charged request.chargeId)
  | recharged {request r} (found : l.reservations.find? request.chargeId = some r)
      (same : request.amountMicros = some r.reservedMicros) (final : r.settled = .final)
      (started : r.dispatchStarted = true) :
      Effect now l (.charge request) l (.charged request.chargeId)
  | read {request} : Effect now l (.status request) l (status request l)
  | maintained : Effect now l .maintain (maintain now l) .maintained
  | refused {op reply} (active : op ≠ .maintain) (rejected : reply.rejected = true) :
      Effect now l op l reply

theorem reserve_effect {now : Int} {fits : LedgerReply → Bool} {request : BudgetReserveRequest}
    {l : Ledger} : Effect now l (.reserve fits request) (reserve now fits request l).1
      (reserve now fits request l).2 := by
  unfold reserve
  split
  · rename_i found
    exact .replayed found rfl
  · rename_i absent
    dsimp only
    split
    · rename_i exceeds
      exact .denied absent exceeds rfl
    · rename_i room
      exact .admitted absent (not_lt.mp room) rfl

theorem dispatch_effect {now : Int} {reservationId : String} {l : Ledger} :
    Effect now l (.dispatch reservationId) (dispatch now reservationId l).1
      (dispatch now reservationId l).2 := by
  unfold dispatch
  split
  · exact .refused nofun rfl
  · rename_i found
    split
    · exact .refused nofun rfl
    · rename_i h
      push Not at h
      exact .dispatched found h.1 (by simpa using h.2)

theorem settle_effect {now : Int} {request : BudgetSettleRequest} {l : Ledger} :
    Effect now l (.settle request) (settle request l).1 (settle request l).2 := by
  obtain ⟨reservationId, actualCostMicros⟩ := request
  unfold settle
  split
  · exact .refused nofun rfl
  · rename_i found
    cases actualCostMicros with
    | none => exact .refused nofun rfl
    | some actual =>
      dsimp only
      split
      · exact .refused nofun rfl
      · rename_i hvalid
        split
        · exact .refused nofun rfl
        · rename_i hok
          push Not at hvalid hok
          exact .settled found (by simpa using hvalid.1) hvalid.2 hok.1 hok.2

theorem charge_effect {now : Int} {request : BudgetChargeRequest} {l : Ledger} :
    Effect now l (.charge request) (charge now request l).1 (charge now request l).2 := by
  unfold charge
  split
  · exact .refused nofun rfl
  · rename_i amount hamount
    split
    · exact .refused nofun rfl
    · rename_i hvalid
      push Not at hvalid
      split
      · rename_i found
        split
        · exact .refused nofun rfl
        · rename_i same
          push Not at same
          obtain ⟨-, -, -, heq, hfinal, hstarted⟩ := same
          exact .recharged found (by rw [hamount, heq]) hfinal (by simpa using hstarted)
      · rename_i absent
        exact .charged hamount hvalid.2.2 absent

/-- A step of a ledger: an operation and its answer. -/
def Step (now : Int) (l : Ledger) (a : Op × LedgerReply) (l' : Ledger) : Prop := exec now l a.1 = (l', a.2)

theorem step_exec {t : Int} {l : Ledger} (op : Op) : Step t l (op, (exec t l op).2) (exec t l op).1 := rfl

/-- **Every operation is one of the effects.** -/
theorem exec_effect {now : Int} {l l' : Ledger} {op : Op} {reply : LedgerReply}
    (h : exec now l op = (l', reply)) : Effect now l op l' reply := by
  have e : (exec now l op).1 = l' ∧ (exec now l op).2 = reply := by simp [h]
  obtain ⟨rfl, rfl⟩ := e
  cases op with
  | reserve fits request => exact reserve_effect
  | dispatch reservationId => exact dispatch_effect
  | settle request => exact settle_effect
  | charge request => exact charge_effect
  | status request => exact .read
  | maintain => exact .maintained

end ClawRouter.Budget
