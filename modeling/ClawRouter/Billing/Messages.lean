/-
  Subject:   What is sent to the ledgers after a request, and when its sender believes that it arrived
             (`queue`, `chargeLedger`, `settleLedger`, `ingestUsage` of src/worker/ledgers.ts,
             `finalizeAccounting` of src/worker/accounting.ts).

  A message has two ways to its ledger: a direct call, and the queue, whose consumer makes the same call.
  A charge or a settlement is called first and sent if that fails, a usage event the other way round. The
  messages of a request go their ways independently; for a search they go one after another.

  * `finalizeAccounting`, `Attempt`: the messages of a request, and how far each of them is.
-/
import ClawRouter.Budget.Row
import ClawRouter.Report.Coverage

namespace ClawRouter.Billing

open Js Budget Report

/-! ## 1. Answers -/

/-- An answer of an object. -/
structure Response where
  status : Nat
  body : Option Json

def Response.ok (response : Response) : Bool := 200 ≤ response.status && response.status < 300

def json (members : List (String × Json)) : Response := ⟨200, some (.obj members)⟩

def errorResponse (code message : String) (status : Nat) : Response :=
  ⟨status, some (.obj [("error", .obj [("code", .str code), ("message", .str message)])])⟩

/-- What a request to the budget ledger is answered with. A request that is for no operation is one for the
maintenance alone. -/
def replyResponse : LedgerReply → Response
  | .error code message status => errorResponse code message status
  | .reserved allowed policyId windowKey chargedMicros spentMicros remainingMicros dispatched =>
    json ([("allowed", .bool allowed), ("policyId", .str policyId), ("windowKey", .str windowKey),
      ("chargedMicros", .int chargedMicros), ("spentMicros", .int spentMicros),
      ("remainingMicros", .int remainingMicros)] ++ if dispatched then [("dispatched", .bool true)] else [])
  | .dispatched => json [("dispatched", .bool true)]
  | .settled chargedMicros spentMicros =>
    json [("settled", .bool true), ("chargedMicros", .int chargedMicros), ("spentMicros", .int spentMicros)]
  | .charged chargeId => json [("charged", .bool true), ("chargeId", .str chargeId)]
  | .status policyId windowKey limitMicros spentMicros remainingMicros =>
    json [("policyId", .str policyId), ("windowKey", .str windowKey), ("limitMicros", .int limitMicros),
      ("spentMicros", .int spentMicros), ("remainingMicros", .int remainingMicros)]
  | .maintained => errorResponse "route_not_found" "route not found" 404

def outcomeName : UsageIngestOutcome → String
  | .stored => "stored"
  | .duplicate => "duplicate"
  | .expiredByRetention => "expired_by_retention"

/-- What `/ingest` is answered with; a throw is no answer. -/
def ingestResponse (eventId : String) (outcome : Option UsageIngestOutcome) : Option Response :=
  outcome.map fun outcome => json [("eventId", .str eventId), ("outcome", .str (outcomeName outcome))]

def validUsageEvent (event : UsageEvent) : Bool :=
  !event.id.isEmpty && isSafeInteger (some event.occurredAtMs) && 0 ≤ event.occurredAtMs

def invalidUsageEvent : Response :=
  errorResponse "invalid_usage_event"
    "id must be a nonempty string and occurred_at_ms must be a nonnegative safe integer" 400

/-! ## 2. Which answers confirm a call -/

def isTrue : Option Json → Bool
  | some (.bool true) => true
  | _ => false

def isText (text : String) : Option Json → Bool
  | some (.str s) => s == text
  | _ => false

/-- `chargeLedger` returns; `answer` is what `fetch` resolves to, if it does. -/
def chargeLedger (request : BudgetChargeRequest) (answer : Option Response) : Bool :=
  answer.any fun response =>
    let receipt := if response.ok then response.body else none
    receipt.any fun receipt => isTrue (receipt.get? "charged") && isText request.chargeId
      (receipt.get? "chargeId")

/-- What became of a message that can not be applied. -/
inductive Disposition
  | missing
  | conflict
  | unavailable
  deriving DecidableEq

/-- `settleLedger` returns, or throws: what `fetch` throws, or a `BudgetSettlementError`. -/
def settleLedger (answer : Option Response) : Except (Option Disposition) Unit :=
  match answer with
  | none => .error none
  | some response =>
    if !response.ok then
      .error (some (if response.status = 404 then .missing
        else if response.status = 409 then .conflict else .unavailable))
    else if isTrue (response.body.bind (·.get? "settled")) then .ok ()
    else .error (some .unavailable)

/-- What an ingest answers. -/
structure UsageIngestReceipt where
  eventId : String
  outcome : UsageIngestOutcome
  deriving DecidableEq

def readOutcome (value : Option Json) : Option UsageIngestOutcome :=
  if isText "stored" value then some .stored
  else if isText "duplicate" value then some .duplicate
  else if isText "expired_by_retention" value then some .expiredByRetention
  else none

def ingestUsage (event : UsageEvent) (answer : Option Response) : Option UsageIngestReceipt := do
  let response ← answer
  let receipt ← if response.ok then response.body else none
  if isText event.id (receipt.get? "eventId") then
    let outcome ← readOutcome (receipt.get? "outcome")
    some ⟨event.id, outcome⟩
  else none

/-! ## 3. Messages -/

/-- A usage event as it is sent: `policyId` is its `policy_id`, which ingest fills where it is empty. -/
structure UsageMessage where
  event : UsageEvent
  policyId : String

def usageShardName (tenantId policyId : String) : String := "policy:" ++ tenantId ++ ":" ++ policyId

def UsageMessage.shard (message : UsageMessage) : String :=
  usageShardName message.event.tenantId message.policyId

/-- Queued settlements of earlier deployments carry their scope in place of a ledger. -/
inductive LedgerAddress
  | ledger (objectName : String)
  | scope (tenantId policyId : String) (principalId : Option String)

def LedgerAddress.objectName : LedgerAddress → String
  | .ledger objectName => objectName
  | .scope tenantId policyId principalId =>
    tenantId ++ ":" ++ policyId ++ if principalId.getD "" = "" then "" else ":" ++ principalId.getD ""

/-- A message of the queue. -/
inductive QueueMessage
  | usage (message : UsageMessage)
  | budgetCharge (objectName : String) (request : BudgetChargeRequest)
  | budgetSettlement (ledger : LedgerAddress) (request : BudgetSettleRequest)

def QueueMessage.confirmed (message : QueueMessage) (answer : Option Response) : Bool :=
  match message with
  | .usage message => (ingestUsage message.event answer).isSome
  | .budgetCharge _ request => chargeLedger request answer
  | .budgetSettlement _ _ => (settleLedger answer).isOk

/-- What the consumer does with a message. -/
inductive Consumed
  | ack
  | retry
  deriving DecidableEq

/-- `queue`, for one message of the batch and what its ledger answers. -/
def queue (message : QueueMessage) (answer : Option Response) : Consumed :=
  if message.confirmed answer then .ack else .retry

/-! ## 4. What a request leaves -/

/-- A reservation that is to be settled. -/
structure LedgerBudgetReservation where
  reservationId : String
  objectName : String

/-- An element of `charges`: a charge without its amount. -/
structure SoftCharge where
  objectName : String
  chargeId : String
  policyId : String
  windowKey : String
  scopeKey : String
  capability : String

def SoftCharge.request (charge : SoftCharge) (amountMicros : Option Int) : BudgetChargeRequest where
  chargeId :=
  charge.chargeId
  policyId := charge.policyId
  windowKey := charge.windowKey
  scopeKey := charge.scopeKey
  capability := charge.capability
  amountMicros := amountMicros

/-- What a request has reserved and is charged. -/
structure BudgetReservation where
  reservations : List LedgerBudgetReservation
  charges : Option (List SoftCharge)

def settleBudget (reservation : BudgetReservation) (actualCostMicros : Option Int) : List QueueMessage :=
  reservation.reservations.map fun item =>
    .budgetSettlement (.ledger item.objectName) ⟨item.reservationId, actualCostMicros⟩

def chargeBudget (reservation : BudgetReservation) (amountMicros : Option Int) : List QueueMessage :=
  (reservation.charges.getD []).map fun item => .budgetCharge item.objectName (item.request amountMicros)

def finalizeAccounting (reservation : BudgetReservation) (actualCostMicros : Option Int)
    (event : UsageMessage) :
    List QueueMessage :=
  (if reservation.charges.isSome then chargeBudget reservation actualCostMicros
    else settleBudget reservation actualCostMicros) ++ [.usage event]

/-- Of a message: its first way to the ledger, its second, or how it ended. -/
inductive Stage
  | first
  | second
  | fulfilled
  | rejected
  deriving DecidableEq

/-- A message, and how far it is. -/
structure Attempt where
  message : QueueMessage
  stage : Stage

/-- Directly, or through the queue. -/
inductive Way
  | call
  | send
  deriving DecidableEq

/-- What an attempt is at: `publishUsage` sends, then calls; `settleReservation` and `chargeBudget` call, then
send. -/
def Attempt.way (attempt : Attempt) : Option Way :=
  match attempt.message, attempt.stage with
  | .usage _, .first => some .send
  | .usage _, .second => some .call
  | _, .first => some .call
  | _, .second => some .send
  | _, _ => none

/-- The attempt after its way succeeded or failed. -/
def Attempt.next (attempt : Attempt) (succeeded : Bool) : Attempt :=
  { attempt with
    stage := if succeeded then .fulfilled
      else match attempt.stage with
        | .first => .second
        | _ => .rejected }

/-- A call of `finalizeAccounting`: what its `Promise.allSettled` waits for. -/
abbrev Finalization := List Attempt

def Attempt.settled (attempt : Attempt) : Bool := attempt.stage = .fulfilled || attempt.stage = .rejected

/-- What the call returns, once everything is settled. -/
def Finalization.returned (finalization : Finalization) : Option Bool :=
  if finalization.all Attempt.settled then some (finalization.all fun attempt => attempt.stage = .fulfilled)
  else none

/-! ## 5. The ledgers' own answers -/

section Answers

theorem chargeLedger_reply {request : BudgetChargeRequest} {reply : LedgerReply}
    (h : chargeLedger request (some (replyResponse reply)) = true) : reply = .charged request.chargeId := by
  unfold chargeLedger at h
  rw [Option.any_some] at h
  cases reply with
  | charged id =>
    have hid : (id == request.chargeId) = true := h
    rw [beq_iff_eq.mp hid]
  | error code message status =>
    rw [replyResponse] at h
    cases hok : (errorResponse code message status).ok with
    | false | true =>
      rw [hok] at h
      cases h
  | reserved _ _ _ _ _ _ dispatched => cases dispatched <;> cases h
  | dispatched | settled | status | maintained => cases h

theorem settleLedger_reply {reply : LedgerReply}
    (h : (settleLedger (some (replyResponse reply))).isOk = true) :
    ∃ charged spent, reply = .settled charged spent := by
  cases reply with
  | settled charged spent => exact ⟨charged, spent, rfl⟩
  | error code message status =>
    rw [replyResponse] at h
    unfold settleLedger at h
    dsimp only at h
    cases hok : (errorResponse code message status).ok with
    | false | true =>
      rw [hok] at h
      cases h
  | reserved _ _ _ _ _ _ dispatched => cases dispatched <;> cases h
  | dispatched | charged | status | maintained => cases h

end Answers

end ClawRouter.Billing
