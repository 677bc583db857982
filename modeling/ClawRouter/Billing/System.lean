/-
  Subject:   The ledgers, the queue and the requests that finalize their accounting, as one system.

  A call may not arrive, or be served without its answer arriving. A send may be accepted and rejected all
  the same. The queue may deliver what it holds at any time and in any order, and again after it was
  acknowledged. In between the ledgers serve other callers, who charge, settle and report as well, and whose
  answers are their own affair.

  * `Stores`, `Charges`, `Confirmed`: what a label tells.
-/
import ClawRouter.Billing.Ledgers

namespace ClawRouter.Billing

open Keyed Budget Report

/-! ## 1. States -/

/-- The ledgers, the queue and what is to be finalized. -/
structure World where
  budgets : String → Ledger
  usage : String → ReportDb
  /-- What the queue has accepted and not forgotten. -/
  queue : List QueueMessage
  finalizations : List Finalization

def World.empty : World where
  budgets :=
  fun _ => .empty
  usage := fun _ => ensureUsageReportSchema ⟨Table.empty, List.nodup_nil⟩ Table.empty none none
  queue := []
  finalizations := []

/-- A request to a ledger does not arrive; or it is served, with a response unless the ledger throws, which
arrives or does not. -/
inductive Fate
  | lost
  | served (response : Option Response) (arrives : Bool)

def Fate.answer : Fate → Option Response
  | .lost => none
  | .served response arrives => if arrives then response else none

/-- A step of the system. -/
inductive Label
  | start (messages : List QueueMessage)
  | call (message : QueueMessage) (fate : Fate)
  | send (message : QueueMessage) (accepted resolved : Bool)
  | consume (message : QueueMessage) (fate : Fate)
  | other (message : QueueMessage) (response : Option Response)
  | budget (objectName : String) (op : Op) (reply : LedgerReply)
  | usage (shard : String)

def Label.called : Label → Option (QueueMessage × Fate)
  | .call message fate => some (message, fate)
  | .consume message fate => some (message, fate)
  | .other message response => some (message, .served response false)
  | _ => none

/-! ## 2. Steps -/

section Steps

/-- What else is asked of a budget ledger. `randomId` makes no id twice, so nothing is reserved
    under the id of a
charge. -/
def Foreign (chargeId : String → Prop) : Op → Prop
  | .charge _ => False
  | .reserve _ request => ¬chargeId request.reservationId
  | _ => True

variable (toLowerCase : String → String) (chargeId : String → Prop)

/-- A ledger serves a message. SQLite numbers the row of an event. -/
inductive Serve (now : Int) (w : World) : QueueMessage → Option Response → World → Prop
  | ingested {message : UsageMessage} {row : EventRow} (event : row.toUsageEvent = message.event)
      (valid : validUsageEvent message.event = true) :
      Serve now w (.usage message)
        (ingestResponse message.event.id ((w.usage message.shard).ingest toLowerCase row now).2)
        { w with
          usage := Function.update w.usage message.shard
            ((w.usage message.shard).ingest toLowerCase row now).1 }
  | invalid {message : UsageMessage} (invalid : validUsageEvent message.event = false) :
      Serve now w (.usage message) (some invalidUsageEvent) w
  | charged {objectName : String} {request : BudgetChargeRequest} :
      Serve now w (.budgetCharge objectName request)
        (some (replyResponse (exec now (w.budgets objectName) (.charge request)).2))
        { w with
          budgets := Function.update w.budgets objectName
            (exec now (w.budgets objectName) (.charge request)).1 }
  | settled {ledger : LedgerAddress} {request : BudgetSettleRequest} :
      Serve now w (.budgetSettlement ledger request)
        (some (replyResponse (exec now (w.budgets ledger.objectName) (.settle request)).2))
        { w with
          budgets := Function.update w.budgets ledger.objectName
            (exec now (w.budgets ledger.objectName) (.settle request)).1 }

/-- A message arrives, or its call is lost. -/
inductive Arrives (now : Int) (w : World) (message : QueueMessage) : Fate → World → Prop
  | lost : Arrives now w message .lost w
  | served {response : Option Response} {arrives : Bool} {w' : World}
      (serve : Serve toLowerCase now w message response w') : Arrives now w message
        (.served response arrives) w'

/-- The steps of the system. -/
inductive Step (now : Int) (w : World) : Label → World → Prop
  | start {reservation : BudgetReservation} {actualCostMicros : Option Int} {event : UsageMessage} :
      Step now w (.start (finalizeAccounting reservation actualCostMicros event))
        { w with
          finalizations := w.finalizations ++
            [(finalizeAccounting reservation actualCostMicros event).map (⟨·, .first⟩)] }
  | call {fs gs : List Finalization} {xs ys : List Attempt} {attempt : Attempt} {fate : Fate} {w' : World}
      (place : w.finalizations = fs ++ (xs ++ attempt :: ys) :: gs) (way : attempt.way = some .call)
      (arrives : Arrives toLowerCase now w attempt.message fate w') :
      Step now w (.call attempt.message fate)
        { w' with
          finalizations := fs ++ (xs ++ attempt.next (attempt.message.confirmed fate.answer) :: ys) :: gs }
  | send {fs gs : List Finalization} {xs ys : List Attempt} {attempt : Attempt} {accepted resolved : Bool}
      (place : w.finalizations = fs ++ (xs ++ attempt :: ys) :: gs) (way : attempt.way = some .send)
      (sound : resolved = true → accepted = true) :
      Step now w (.send attempt.message accepted resolved)
        { w with
          queue := if accepted then attempt.message :: w.queue else w.queue
          finalizations := fs ++ (xs ++ attempt.next resolved :: ys) :: gs }
  | consume {message : QueueMessage} {fate : Fate} {w' : World} (held : message ∈ w.queue)
      (arrives : Arrives toLowerCase now w message fate w') : Step now w (.consume message fate) w'
  | acknowledged {before after : List QueueMessage} {message : QueueMessage} {fate : Fate} {w' : World}
      (held : w.queue = before ++ message :: after) (arrives : Arrives toLowerCase now w message fate w')
      (ack : queue message fate.answer = .ack) :
      Step now w (.consume message fate) { w' with queue := before ++ after }
  | other {message : QueueMessage} {response : Option Response} {w' : World}
      (serve : Serve toLowerCase now w message response w') : Step now w (.other message response) w'
  | budget {objectName : String} {op : Op} (foreign : Foreign chargeId op) :
      Step now w (.budget objectName op (exec now (w.budgets objectName) op).2)
        { w with budgets := Function.update w.budgets objectName (exec now (w.budgets objectName) op).1 }
  | usage {shard : String} {after : ReportDb} (step : UsageStep toLowerCase now (w.usage shard) after) :
      Step now w (.usage shard) { w with usage := Function.update w.usage shard after }

end Steps

/-! ## 3. What a label tells -/

/-- A ledger served the message with the response. -/
def Label.Serves (label : Label) (message : QueueMessage) (response : Option Response) : Prop :=
  ∃ arrives, label.called = some (message, .served response arrives)

/-- The usage ledger of a shard stored the event. -/
def Label.Stores (label : Label) (shard : String) (event : UsageEvent) : Prop :=
  ∃ message, label.Serves (.usage message) (ingestResponse event.id (some .stored)) ∧ message.shard = shard ∧
    message.event = event

def Label.Asks (label : Label) (objectName : String) (request : BudgetChargeRequest) : Prop :=
  ∃ response, label.Serves (.budgetCharge objectName request) response

def Label.Charges (label : Label) (objectName : String) (request : BudgetChargeRequest) : Prop :=
  label.Serves (.budgetCharge objectName request) (some (replyResponse (.charged request.chargeId)))

/-- The call with the message, by its request or by the consumer of the queue, returned. -/
def Label.Confirms (label : Label) (message : QueueMessage) : Prop :=
  ∃ fate, label.called = some (message, fate) ∧ message.confirmed fate.answer = true

/-- The consumer of the queue acknowledged the message. -/
def Label.Acknowledges (label : Label) (message : QueueMessage) : Prop :=
  ∃ fate, label = .consume message fate ∧ queue message fate.answer = .ack

/-- The response is that of the ledger of the message, and names what it is about. -/
inductive Names : QueueMessage → Response → Prop
  | usage {message : UsageMessage} {outcome : UsageIngestOutcome} {response : Response}
      (named : ingestResponse message.event.id (some outcome) = some response) : Names
        (.usage message) response
  | charge {objectName : String} {request : BudgetChargeRequest} :
      Names (.budgetCharge objectName request) (replyResponse (.charged request.chargeId))
  | settlement {ledger : LedgerAddress} {request : BudgetSettleRequest} {chargedMicros spentMicros : Int} :
      Names (.budgetSettlement ledger request) (replyResponse (.settled chargedMicros spentMicros))

end ClawRouter.Billing
