/-
  Subject:   How one proxied request is charged (`reserveBudget`, `markBudgetDispatched`,
             `settleBudget` of src/worker/accounting.ts, `proxySelected` of src/worker/proxy.ts).

  The proxy reserves every leg of its plan, marks every leg dispatched, sends the request upstream
  and settles every leg it holds. A call of it ends with an answer or with a failure; a failure
  tells nothing about whether the ledger has served the call, or will. What can not be settled
  directly is settled from a queue that delivers at least once.

  * **`foreground_charging`**: when the request is sent, what it is charged, and what is left of one
    that was never sent.
-/
import ClawRouter.Charging.Network

namespace ClawRouter.Charging

open Keyed Timed Budget

/-! ## 1. The request -/

/-- What came of a reservation. -/
inductive ReserveOutcome
  | waiting
  | accepted (dispatched : Bool)
  | denied
  | failed
  deriving DecidableEq

/-- What came of a mark. -/
inductive DispatchOutcome
  | idle
  | waiting
  | acknowledged
  | failed
  deriving DecidableEq

/-- What came of a settlement. -/
inductive SettlementOutcome
  | idle
  | waiting
  | acknowledged
  | queued
  | delivered
  deriving DecidableEq

/-- What the proxy has read of the calls of a leg. -/
structure LegProgress where
  reserve : ReserveOutcome
  dispatch : DispatchOutcome
  settlement : SettlementOutcome

def LegProgress.held (p : LegProgress) : Bool :=
  match p.reserve with
  | .accepted _ => true
  | _ => false

/-- The proxy knows that the leg is dispatched. -/
def LegProgress.marked (p : LegProgress) : Bool := p.reserve = .accepted true || p.dispatch = .acknowledged

/-- A settlement of the leg is under way, or in the queue. -/
def LegProgress.outstanding (p : LegProgress) : Bool := p.settlement = .waiting || p.settlement = .queued

/-- How far a request is. -/
inductive Phase
  | reserving
  | reserved
  | dispatching
  | dispatched
  | sent
  | closed (sent : Bool) (actualCostMicros : Int)
  deriving DecidableEq

/-- The proxy of one request, and the ledgers. -/
structure ForegroundState where
  net : Network
  progress : String → LegProgress
  phase : Phase

/-- What `reserveLedgerIntent` makes of an answer. -/
def reserveOutcome : LedgerReply → ReserveOutcome
  | .reserved true _ _ _ _ _ dispatched => .accepted dispatched
  | .reserved false _ _ _ _ _ _ => .denied
  | _ => .failed

namespace ForegroundState

def setLeg (s : ForegroundState) (leg : BudgetReservationIntent) (p : LegProgress) : ForegroundState :=
  { s with progress := Function.update s.progress leg.reservationId p }

/-- `markBudgetDispatched` calls the ledgers of the legs that are not dispatched yet. -/
def mark (plan : List BudgetReservationIntent) (s : ForegroundState) : ForegroundState where
  net :=
  s.net.send ((plan.filter fun leg =>
    (s.progress leg.reservationId).reserve = .accepted false).map .dispatch)
  progress := fun id =>
    if (s.progress id).reserve = .accepted false then
      { s.progress id with dispatch := .waiting }
    else s.progress id
  phase := .dispatching

/-- `settleBudget` calls the ledgers of the legs that are held. -/
def close (plan : List BudgetReservationIntent) (s : ForegroundState) (sent : Bool)
    (actualCostMicros : Int) : ForegroundState where
  net := s.net.send ((plan.filter fun leg => (s.progress leg.reservationId).held).map
    fun leg => .settle leg actualCostMicros)
  progress := fun id =>
    if (s.progress id).held then { s.progress id with settlement := .waiting }
    else s.progress id
  phase := .closed sent actualCostMicros

end ForegroundState

/-- The request begins with a call to the ledger of each leg. -/
def startForeground (plan : List BudgetReservationIntent) (ledgers : String → Ledger) : ForegroundState where
  net :=
  ⟨ledgers, plan.map .reserve, []⟩
  progress := fun _ => ⟨.waiting, .idle, .idle⟩
  phase := .reserving

/-- A step of the proxy, or of a ledger. -/
inductive Event
  | proxy
  | ledger (objectName : String) (op : Op)

/-- What can happen. The ledgers serve the calls in any order, and in between anything that is not
    about the legs of the plan. -/
inductive ForegroundStep (plan : List BudgetReservationIntent) (now : Int)
    (s : ForegroundState) : Event → ForegroundState → Prop
  | serve {call : LedgerCall} (h : call ∈ s.net.inFlight) :
      ForegroundStep plan now s (.ledger call.leg.objectName call.op)
        { s with net := s.net.serve now call }
  | other (objectName : String) (op : Op)
      (h : ∀ leg ∈ plan, addresses leg.reservationId op = false) :
      ForegroundStep plan now s (.ledger objectName op)
        { s with net := s.net.apply now objectName op }
  | reserveAnswered {leg : BudgetReservationIntent} {a : LedgerAnswer} (hleg : leg ∈ plan)
      (hphase : s.phase = .reserving)
      (hwaiting : (s.progress leg.reservationId).reserve = .waiting) (ha : a ∈ s.net.answers)
      (hcall : a.call = .reserve leg) :
      ForegroundStep plan now s .proxy
        (s.setLeg leg { s.progress leg.reservationId with reserve := reserveOutcome a.reply })
  | reserveFailed {leg : BudgetReservationIntent} (hleg : leg ∈ plan)
      (hphase : s.phase = .reserving)
      (hwaiting : (s.progress leg.reservationId).reserve = .waiting) :
      ForegroundStep plan now s .proxy
        (s.setLeg leg { s.progress leg.reservationId with reserve := .failed })
  | reserved (hphase : s.phase = .reserving)
      (hheld : ∀ leg ∈ plan, (s.progress leg.reservationId).held = true) :
      ForegroundStep plan now s .proxy { s with phase := .reserved }
  | rollback (hphase : s.phase = .reserving)
      (hdone : ∀ leg ∈ plan, (s.progress leg.reservationId).reserve ≠ .waiting)
      (hfailed : ∃ leg ∈ plan, (s.progress leg.reservationId).held = false) :
      ForegroundStep plan now s .proxy (s.close plan false 0)
  | mark (hphase : s.phase = .reserved) : ForegroundStep plan now s .proxy (s.mark plan)
  | dispatchAnswered {leg : BudgetReservationIntent} {a : LedgerAnswer} (hleg : leg ∈ plan)
      (hphase : s.phase = .dispatching)
      (hwaiting : (s.progress leg.reservationId).dispatch = .waiting) (ha : a ∈ s.net.answers)
      (hcall : a.call = .dispatch leg) (hreply : a.reply = .dispatched) :
      ForegroundStep plan now s .proxy
        (s.setLeg leg { s.progress leg.reservationId with dispatch := .acknowledged })
  | dispatchFailed {leg : BudgetReservationIntent} (hleg : leg ∈ plan)
      (hphase : s.phase = .dispatching)
      (hwaiting : (s.progress leg.reservationId).dispatch = .waiting) :
      ForegroundStep plan now s .proxy
        (s.setLeg leg { s.progress leg.reservationId with dispatch := .failed })
  | dispatched (hphase : s.phase = .dispatching)
      (hmarked : ∀ leg ∈ plan, (s.progress leg.reservationId).marked = true) :
      ForegroundStep plan now s .proxy { s with phase := .dispatched }
  | undispatched (hphase : s.phase = .dispatching)
      (hdone : ∀ leg ∈ plan, (s.progress leg.reservationId).dispatch ≠ .waiting)
      (hfailed : ∃ leg ∈ plan, (s.progress leg.reservationId).marked = false) :
      ForegroundStep plan now s .proxy (s.close plan false 0)
  -- a later check fails before the request is sent
  | abandon (hphase : s.phase = .reserved ∨ s.phase = .dispatched) :
      ForegroundStep plan now s .proxy (s.close plan false 0)
  | send (hphase : s.phase = .dispatched) :
      ForegroundStep plan now s .proxy { s with phase := .sent }
  | settle (hphase : s.phase = .sent) (actualCostMicros : Int) :
      ForegroundStep plan now s .proxy (s.close plan true actualCostMicros)
  | settleAnswered {leg : BudgetReservationIntent} {a : LedgerAnswer} (hleg : leg ∈ plan)
      (hwaiting : (s.progress leg.reservationId).settlement = .waiting)
      (ha : a ∈ s.net.answers) (hsettled : (a.settledAt leg).isSome = true) :
      ForegroundStep plan now s .proxy
        (s.setLeg leg { s.progress leg.reservationId with settlement := .acknowledged })
  | settleFailed {leg : BudgetReservationIntent} (hleg : leg ∈ plan)
      (hwaiting : (s.progress leg.reservationId).settlement = .waiting) :
      ForegroundStep plan now s .proxy
        (s.setLeg leg { s.progress leg.reservationId with settlement := .queued })
  | deliver {leg : BudgetReservationIntent} (hleg : leg ∈ plan)
      (hqueued : (s.progress leg.reservationId).settlement = .queued) {sent : Bool}
      {actualCostMicros : Int} (hphase : s.phase = .closed sent actualCostMicros) :
      ForegroundStep plan now s .proxy
        { s with net := s.net.send [.settle leg actualCostMicros] }
  | delivered {leg : BudgetReservationIntent} {a : LedgerAnswer} (hleg : leg ∈ plan)
      (hqueued : (s.progress leg.reservationId).settlement = .queued)
      (ha : a ∈ s.net.answers) (hsettled : (a.settledAt leg).isSome = true) :
      ForegroundStep plan now s .proxy
        (s.setLeg leg { s.progress leg.reservationId with settlement := .delivered })

/-! ## 2. What is promised -/

def Phase.upstream : Phase → Bool
  | .sent => true
  | .closed wasSent _ => wasSent
  | _ => false

/-- A ledger acknowledged the dispatch of the leg while the lease of its row was running. -/
def AcknowledgedLive (s : ForegroundState) (leg : BudgetReservationIntent) : Prop :=
  ∃ a ∈ s.net.answers, a.acknowledges leg = true ∧ ∃ r, s.net.row leg = some r ∧
    r.createdAtMs ≤ a.servedAt ∧ a.servedAt < r.createdAtMs + reservationLeaseMs

/-- A maintenance has run since the lease of the row has ended. -/
def LeaseEnded (leg : BudgetReservationIntent) (r : Reservation) (tr : List (Int × Event)) : Prop :=
  ∃ e ∈ tr, e.2 = .ledger leg.objectName .maintain ∧ r.createdAtMs + reservationLeaseMs ≤ e.1

/-- The leg was dispatched with its reservation, and the proxy does not hold it: the answer of its
    ledger was lost. -/
def Orphaned (s : ForegroundState) (leg : BudgetReservationIntent) : Prop :=
  leg.request.dispatched = true ∧ (s.progress leg.reservationId).held = false ∧ ∃ r, s.net.row leg = some r

def Settled (s : ForegroundState) (leg : BudgetReservationIntent) : Prop :=
  ∃ a ∈ s.net.answers, (a.settledAt leg).isSome = true

/-- What is promised of a request that is charged. -/
structure ChargingProtocol (plan : List BudgetReservationIntent) (tr : List (Int × Event))
    (s : ForegroundState) : Prop where
  /-- Nothing is sent before every leg is dispatched. -/
  acknowledged : s.phase.upstream = true → ∀ leg ∈ plan, AcknowledgedLive s leg
  /-- A request that was never sent costs nothing but what its orphaned legs hold. -/
  unsent : ∀ amount, s.phase = .closed false amount →
    (∀ leg ∈ plan, (s.progress leg.reservationId).outstanding = false) →
      (∀ leg ∈ plan, ∀ r, s.net.row leg = some r → LeaseEnded leg r tr) →
        ((∀ leg ∈ plan, s.net.contribution leg = 0) ↔
          ∀ leg ∈ plan, Orphaned s leg → leg.request.costMicros = 0)
  /-- A request that was sent owes what it reserved until it is settled. -/
  owed : s.phase.upstream = true → ∀ leg ∈ plan, ¬ Settled s leg →
    s.net.contribution leg = leg.request.costMicros
  /-- No ledger refuses to settle. -/
  answered : ∀ leg ∈ plan, ∀ a ∈ s.net.answers, ∀ amount, a.call = .settle leg amount →
    isSafeInteger (some amount) = true → 0 ≤ amount → a.settledAt leg = some amount
  /-- Every leg is settled at the same amount. -/
  settled : ∀ amount, s.phase = .closed true amount → ∀ leg ∈ plan,
    Settled s leg ∨ (s.progress leg.reservationId).outstanding = false →
      s.net.contribution leg = amount

/-! ## 3. The invariant -/

def Phase.holds : Phase → Bool
  | .reserving => false
  | .closed wasSent _ => wasSent
  | _ => true

def Phase.marks : Phase → Bool
  | .dispatched => true
  | .sent => true
  | .closed wasSent _ => wasSent
  | _ => false

def Phase.isOpen : Phase → Bool
  | .closed _ _ => false
  | _ => true

/-- What the proxy knows of a leg is so, and what it has sent is what it knew. -/
structure LegInv (net : Network) (phase : Phase) (p : LegProgress)
    (leg : BudgetReservationIntent) : Prop where
  dispatching : net.Issued (.dispatch leg) → p.reserve = .accepted false
  settling : ∀ amount, net.Issued (.settle leg amount) →
    p.held = true ∧ ∃ sent, phase = .closed sent amount
  accepted : ∀ dispatched, p.reserve = .accepted dispatched →
    ∃ a ∈ net.answers, a.allows leg = true ∧ (dispatched = true → a.acknowledges leg = true)
  acknowledged : p.dispatch = .acknowledged → ∃ a ∈ net.answers, a.acknowledges leg = true
  settled : p.settlement = .acknowledged ∨ p.settlement = .delivered →
    ∃ a ∈ net.answers, (a.settledAt leg).isSome = true
  held : phase.holds = true → p.held = true
  marked : phase.marks = true → p.marked = true
  billed : p.settlement ≠ .idle → p.held = true
  closing : phase.isOpen = false → p.held = true → p.settlement ≠ .idle

/-- What every step of a request keeps. -/
structure ForegroundInv (plan : List BudgetReservationIntent) (t₀ : Int)
    (tr : List (Int × Event)) (t : Int) (s : ForegroundState) : Prop where
  start_le : t₀ ≤ t
  times : ∀ e ∈ tr, e.1 ≤ t
  planned : ∀ call, s.net.Issued call → call.leg ∈ plan
  facts : ∀ leg ∈ plan, LegFacts t₀ t s.net leg
  legs : ∀ leg ∈ plan, LegInv s.net s.phase (s.progress leg.reservationId) leg
  ended : ∀ leg ∈ plan, ∀ r, s.net.row leg = some r → LeaseEnded leg r tr →
    r.settled ≠ .pending
  answered : ∀ leg ∈ plan, ∀ a ∈ s.net.answers, ∀ amount, a.call = .settle leg amount →
    isSafeInteger (some amount) = true → 0 ≤ amount → a.settledAt leg = some amount
  free : ∀ amount, s.phase = .closed false amount → amount = 0

variable {calls : List LedgerCall} {amount : Int}

section Legs

variable {net : Network} {phase : Phase} {p : LegProgress} {leg : BudgetReservationIntent}

theorem LegInv.later {net' : Network} (h : LegInv net phase p leg)
    (hissued : ∀ call, net'.Issued call → net.Issued call)
    (hanswers : ∀ a ∈ net.answers, a ∈ net'.answers) : LegInv net' phase p leg where
  dispatching := fun hd => h.dispatching (hissued _ hd)
  settling := fun amount hs => h.settling amount (hissued _ hs)
  accepted := fun dispatched e => by
    obtain ⟨a, ha, hallow⟩ := h.accepted dispatched e
    exact ⟨a, hanswers a ha, hallow⟩
  acknowledged := fun e => by
    obtain ⟨a, ha, hack⟩ := h.acknowledged e
    exact ⟨a, hanswers a ha, hack⟩
  settled := fun e => by
    obtain ⟨a, ha, hs⟩ := h.settled e
    exact ⟨a, hanswers a ha, hs⟩
  held := h.held
  marked := h.marked
  billed := h.billed
  closing := h.closing

theorem LegInv.unsettled (h : LegInv net phase p leg) (hopen : phase.isOpen = true)
    (amount : Int) : ¬ net.Issued (.settle leg amount) := by
  intro hs
  obtain ⟨-, sent, e⟩ := h.settling amount hs
  rw [e] at hopen
  cases hopen

theorem LegInv.reserve (h : LegInv net .reserving p leg) (hwaiting : p.reserve = .waiting)
    {outcome : ReserveOutcome} (ho : ∀ dispatched, outcome = .accepted dispatched →
      ∃ a ∈ net.answers, a.allows leg = true ∧ (dispatched = true → a.acknowledges leg = true)) :
    LegInv net .reserving { p with reserve := outcome } leg where
  dispatching := fun hd => by
    have e := h.dispatching hd
    rw [hwaiting] at e
    cases e
  settling := fun amount hs => absurd hs (h.unsettled rfl amount)
  accepted := ho
  acknowledged := h.acknowledged
  settled := h.settled
  held := nofun
  marked := nofun
  billed := fun hb => by
    have e := h.billed hb
    unfold LegProgress.held at e
    rw [hwaiting] at e
    cases e
  closing := nofun

theorem LegInv.dispatch (h : LegInv net .dispatching p leg) {outcome : DispatchOutcome}
    (ho : outcome = .acknowledged → ∃ a ∈ net.answers, a.acknowledges leg = true) :
    LegInv net .dispatching { p with dispatch := outcome } leg where
  dispatching := h.dispatching
  settling := h.settling
  accepted := h.accepted
  acknowledged := ho
  settled := h.settled
  held := h.held
  marked := nofun
  billed := h.billed
  closing := nofun

theorem LegInv.settlement (h : LegInv net phase p leg) (hbilled : p.settlement ≠ .idle)
    {outcome : SettlementOutcome} (hne : outcome ≠ .idle)
      (ho : outcome = .acknowledged ∨ outcome = .delivered →
      ∃ a ∈ net.answers, (a.settledAt leg).isSome = true) :
    LegInv net phase { p with settlement := outcome } leg where
  dispatching := h.dispatching
  settling := h.settling
  accepted := h.accepted
  acknowledged := h.acknowledged
  settled := ho
  held := h.held
  marked := h.marked
  billed := fun _ => h.billed hbilled
  closing := fun _ _ => hne

theorem LegInv.advance {phase' : Phase} (h : LegInv net phase p leg) (hopen : phase.isOpen = true)
    (hopen' : phase'.isOpen = true) (hheld : phase'.holds = true → p.held = true)
    (hmarked : phase'.marks = true → p.marked = true) : LegInv net phase' p leg where
  dispatching := h.dispatching
  settling := fun amount hs => absurd hs (h.unsettled hopen amount)
  accepted := h.accepted
  acknowledged := h.acknowledged
  settled := h.settled
  held := hheld
  marked := hmarked
  billed := h.billed
  closing := fun hc => by
    rw [hopen'] at hc
    cases hc

theorem LegInv.mark (h : LegInv net .reserved p leg)
    (hdispatch : LedgerCall.dispatch leg ∈ calls → p.reserve = .accepted false)
    (hsettle : ∀ amount, LedgerCall.settle leg amount ∉ calls) : LegInv (net.send calls) .dispatching
      (if p.reserve = .accepted false then { p with dispatch := .waiting } else p) leg := by
  have hreserve : (if p.reserve = .accepted false then { p with dispatch := .waiting } else
    p).reserve = p.reserve := by
    split <;> rfl
  have hsettlement : (if p.reserve = .accepted false then { p with dispatch := .waiting }
      else p).settlement = p.settlement := by
    split <;> rfl
  have hheld : (if p.reserve = .accepted false then { p with dispatch := .waiting } else p).held =
    p.held := by
    split <;> rfl
  refine ⟨fun hd => ?_, fun amount hs => ?_, fun dispatched e => ?_, fun e => ?_, fun e => ?_,
    fun _ => ?_, nofun, fun hb => ?_, nofun⟩
  · rw [hreserve]
    rcases issued_send.mp hd with hd | hd
    · exact hdispatch hd
    · exact h.dispatching hd
  · rcases issued_send.mp hs with hs | hs
    · exact absurd hs (hsettle amount)
    · exact absurd hs (h.unsettled rfl amount)
  · rw [hreserve] at e
    exact h.accepted dispatched e
  · split at e
    · cases e
    · exact h.acknowledged e
  · rw [hsettlement] at e
    exact h.settled e
  · rw [hheld]
    exact h.held rfl
  · rw [hsettlement] at hb
    rw [hheld]
    exact h.billed hb

theorem LegInv.close (h : LegInv net phase p leg) (hopen : phase.isOpen = true) {wasSent : Bool}
    (hsent : wasSent = true → p.held = true ∧ p.marked = true) (hdispatch : LedgerCall.dispatch leg ∉ calls)
    (hsettle : ∀ x, LedgerCall.settle leg x ∈ calls → p.held = true ∧ x = amount) :
    LegInv (net.send calls) (.closed wasSent amount)
      (if p.held then { p with settlement := .waiting } else p) leg := by
  have hreserve : (if p.held then { p with settlement := .waiting } else p).reserve = p.reserve := by
    split <;> rfl
  have hheld : (if p.held then { p with settlement := .waiting } else p).held = p.held := by
    split <;> rfl
  have hmarked : (if p.held then { p with settlement := .waiting } else p).marked = p.marked := by
    split <;> rfl
  refine ⟨fun hd => ?_, fun x hs => ?_, fun dispatched e => ?_, fun e => ?_, fun e => ?_,
    fun hs => ?_, fun hs => ?_, fun hb => ?_, fun _ hp => ?_⟩
  · rw [hreserve]
    rcases issued_send.mp hd with hd | hd
    · exact absurd hd hdispatch
    · exact h.dispatching hd
  · rw [hheld]
    rcases issued_send.mp hs with hs | hs
    · obtain ⟨hp, rfl⟩ := hsettle x hs
      exact ⟨hp, wasSent, rfl⟩
    · exact absurd hs (h.unsettled hopen x)
  · rw [hreserve] at e
    exact h.accepted dispatched e
  · refine h.acknowledged (Eq.trans ?_ e)
    split <;> rfl
  · split at e
    · rcases e with e | e <;> cases e
    · exact h.settled e
  · rw [hheld]
    exact (hsent hs).1
  · rw [hmarked]
    exact (hsent hs).2
  · rw [hheld]
    split at hb
    · assumption
    · exact h.billed hb
  · rw [hheld] at hp
    rw [if_pos hp]
    nofun

theorem LegInv.deliver {wasSent : Bool} (h : LegInv net (.closed wasSent amount) p leg)
    {leg' : BudgetReservationIntent}
    (hheld : leg = leg' → p.held = true) :
    LegInv (net.send [.settle leg' amount]) (.closed wasSent amount) p leg where
  dispatching := fun hd => by
    rcases issued_send.mp hd with hd | hd
    · cases List.mem_singleton.mp hd
    · exact h.dispatching hd
  settling := fun x hs => by
    rcases issued_send.mp hs with hs | hs
    · cases List.mem_singleton.mp hs
      exact ⟨hheld rfl, wasSent, rfl⟩
    · exact h.settling x hs
  accepted := h.accepted
  acknowledged := h.acknowledged
  settled := h.settled
  held := h.held
  marked := h.marked
  billed := h.billed
  closing := h.closing

theorem LegInv.marked_answer (h : LegInv net phase p leg) (hp : p.marked = true) :
    ∃ a ∈ net.answers, a.acknowledges leg = true := by
  rcases Bool.or_eq_true_iff.mp hp with e | e
  · obtain ⟨a, ha, -, hack⟩ := h.accepted true (of_decide_eq_true e)
    exact ⟨a, ha, hack rfl⟩
  · exact h.acknowledged (of_decide_eq_true e)

theorem LegInv.held_answer (h : LegInv net phase p leg) (hp : p.held = true) :
    ∃ a ∈ net.answers, a.allows leg = true := by
  unfold LegProgress.held at hp
  split at hp
  · rename_i dispatched e
    obtain ⟨a, ha, hallow, -⟩ := h.accepted dispatched e
    exact ⟨a, ha, hallow⟩
  · cases hp

end Legs

/-! ## 4. Every step keeps it -/

variable {leg : BudgetReservationIntent}

section Steps

variable {plan : List BudgetReservationIntent} {t₀ t now : Int} {tr : List (Int × Event)}
  {s s' : ForegroundState}

theorem leg_of_id (hids : (plan.map BudgetReservationIntent.reservationId).Nodup)
    {leg' : BudgetReservationIntent} (hleg : leg ∈ plan) (hleg' : leg' ∈ plan)
    (e : leg.reservationId = leg'.reservationId) : leg = leg' :=
  List.inj_on_of_nodup_map hids hleg hleg' e

theorem rowStep_settled {id : String} {r r' : Reservation} {a : Op × LedgerReply}
    (h : RowStep id now r a (some r')) (hr : r.settled ≠ .pending) : r'.settled ≠ .pending := by
  cases h with
  | kept => exact hr
  | dispatched pending => exact absurd pending hr
  | settled => nofun
  | maintained left =>
    rw [(maintain_eq_some left.symm).1, expire_of_settled hr]
    exact hr

theorem ended_apply {net net' : Network} {objectName : String}
    {op : Op} (hrow : net'.row leg = (net.apply now objectName op).row leg) (htimes : ∀ e ∈ tr, e.1 ≤ now)
    (h : ∀ r, net.row leg = some r → LeaseEnded leg r tr → r.settled ≠ .pending) :
    ∀ r, net'.row leg = some r → LeaseEnded leg r (tr ++ [(now, .ledger objectName op)]) →
      r.settled ≠ .pending := by
  intro r' hr' ⟨e, he, hmaintain, hover⟩
  rw [hrow, row_apply] at hr'
  by_cases hname : leg.objectName = objectName
  · subst hname
    rw [if_pos rfl] at hr'
    have hstep : Step now (net.ledgers leg.objectName) (op, (exec now (net.ledgers leg.objectName)
      op).2) (exec now (net.ledgers leg.objectName) op).1 := step_exec op
    have hle : e.1 ≤ now := by
      rcases List.mem_append.mp he with he | he
      · exact htimes e he
      · rw [List.mem_singleton.mp he]
    cases hr : (net.ledgers leg.objectName).reservations.find? leg.reservationId with
    | none =>
      -- a row that is created now has its lease before it
      have hnow := created_now hstep hr hr'
      unfold reservationLeaseMs at hover
      omega
    | some r =>
      have hs := row_step hstep hr
      rw [hr'] at hs
      by_cases hp : r.settled = .pending
      · rcases List.mem_append.mp he with he | he
        · refine absurd hp (h r hr ⟨e, he, hmaintain, ?_⟩)
          rw [← hs.createdAtMs]
          exact hover
        · obtain rfl := List.mem_singleton.mp he
          obtain rfl : op = .maintain := by
            cases hmaintain
            rfl
          have hc := hs.createdAtMs
          generalize (exec now (net.ledgers leg.objectName) Op.maintain).2 = reply at hs
          cases hs with
          | kept active => exact absurd rfl active
          | maintained left =>
            rcases expire_cases r now with ⟨hp' | hl, -⟩ | ⟨-, -, -, e⟩ | ⟨-, -, -, e⟩
            · exact absurd hp hp'
            · have hl : now < r.createdAtMs + reservationLeaseMs := of_decide_eq_true hl
              have hover : r'.createdAtMs + reservationLeaseMs ≤ now := hover
              omega
            · rw [(maintain_eq_some left.symm).1, e]
              nofun
            · rw [(maintain_eq_some left.symm).1, e]
              nofun
      · exact rowStep_settled hs hp
  · rw [if_neg hname] at hr'
    refine h r' hr' ⟨e, ?_, hmaintain, hover⟩
    rcases List.mem_append.mp he with he | he
    · exact he
    · obtain rfl := List.mem_singleton.mp he
      cases hmaintain
      exact absurd rfl hname

section

variable (h : ForegroundInv plan t₀ tr t s)
include h

theorem ForegroundInv.proxy (ht : t ≤ now) (hnet : s'.net = s.net.send calls)
    (hcalls : ∀ call ∈ calls, call.leg ∈ plan)
    (hlegs : ∀ leg ∈ plan, LegInv s'.net s'.phase (s'.progress leg.reservationId) leg)
    (hfree : ∀ amount, s'.phase = .closed false amount → amount = 0) :
    ForegroundInv plan t₀ (tr ++ [(now, .proxy)]) now s' where
  start_le := Int.le_trans h.start_le ht
  times := fun e he => by
    rcases List.mem_append.mp he with he | he
    · exact Int.le_trans (h.times e he) ht
    · rw [List.mem_singleton.mp he]
  planned := fun call hcall => by
    rw [hnet] at hcall
    rcases issued_send.mp hcall with hcall | hcall
    · exact hcalls call hcall
    · exact h.planned call hcall
  facts := fun leg hleg => by
    rw [hnet]
    exact facts_send (facts_later (h.facts leg hleg) ht) calls
  legs := hlegs
  ended := fun leg hleg r hr ⟨e, he, hmaintain, hover⟩ => by
    rw [hnet] at hr
    refine h.ended leg hleg r hr ⟨e, ?_, hmaintain, hover⟩
    rcases List.mem_append.mp he with he | he
    · exact he
    · rw [List.mem_singleton.mp he] at hmaintain
      cases hmaintain
  answered := by
    rw [hnet]
    exact h.answered
  free := hfree

theorem ForegroundInv.remember (ht : t ≤ now)
    (hids : (plan.map BudgetReservationIntent.reservationId).Nodup) {p : LegProgress} (hleg : leg ∈ plan)
    (hp : LegInv s.net s.phase p leg) :
    ForegroundInv plan t₀ (tr ++ [(now, .proxy)]) now (s.setLeg leg p) := by
  refine h.proxy ht (show s.net = s.net.send [] from rfl)
    (fun _ hcall => absurd hcall List.not_mem_nil) ?_ h.free
  intro leg' hleg'
  show LegInv s.net s.phase (Function.update s.progress leg.reservationId p leg'.reservationId) leg'
  by_cases e : leg'.reservationId = leg.reservationId
  · obtain rfl := leg_of_id hids hleg' hleg e
    rw [Function.update_self]
    exact hp
  · rw [Function.update_of_ne e]
    exact h.legs leg' hleg'

theorem ForegroundInv.advance (ht : t ≤ now) {phase : Phase}
    (hopen : s.phase.isOpen = true) (hopen' : phase.isOpen = true)
    (hheld : phase.holds = true → ∀ leg ∈ plan, (s.progress leg.reservationId).held = true)
    (hmarked : phase.marks = true → ∀ leg ∈ plan, (s.progress leg.reservationId).marked = true) :
    ForegroundInv plan t₀ (tr ++ [(now, .proxy)]) now { s with phase := phase } := by
  refine h.proxy ht (show s.net = s.net.send [] from rfl) (fun _ hcall => absurd hcall List.not_mem_nil)
    (fun leg hleg => ?_) fun amount e => ?_
  · exact (h.legs leg hleg).advance hopen hopen' (fun e => hheld e leg hleg) fun e => hmarked e leg hleg
  · have e : phase = .closed false amount := e
    rw [e] at hopen'
    cases hopen'

theorem ForegroundInv.close (ht : t ≤ now) (hopen : s.phase.isOpen = true) {wasSent : Bool}
    (hsent : wasSent = true → ∀ leg ∈ plan, (s.progress leg.reservationId).held = true ∧
      (s.progress leg.reservationId).marked = true) (hfree : wasSent = false → amount = 0) :
    ForegroundInv plan t₀ (tr ++ [(now, .proxy)]) now (s.close plan wasSent amount) := by
  refine h.proxy ht rfl (fun call hcall => ?_) (fun leg hleg => ?_) fun x e => ?_
  · obtain ⟨leg, hleg, rfl⟩ := List.mem_map.mp hcall
    exact (List.mem_filter.mp hleg).1
  · refine (h.legs leg hleg).close hopen (fun e => hsent e leg hleg) (fun hd => ?_) fun x hs => ?_
    · obtain ⟨_, -, e⟩ := List.mem_map.mp hd
      cases e
    · obtain ⟨leg', hleg', e⟩ := List.mem_map.mp hs
      cases e
      exact ⟨(List.mem_filter.mp hleg').2, rfl⟩
  · cases e
    exact hfree rfl

theorem ForegroundInv.ledger (ht : t ≤ now) {net : Network}
    {objectName : String} {op : Op} (hledgers : net.ledgers = (s.net.apply now objectName op).ledgers)
    (hissued : ∀ call, net.Issued call → s.net.Issued call) (hanswers : ∀ a ∈ s.net.answers, a ∈ net.answers)
    (hfacts : ∀ leg ∈ plan, LegFacts t₀ now net leg)
    (hnew : ∀ leg ∈ plan, ∀ a ∈ net.answers, a ∈ s.net.answers ∨ ∀ amount,
      a.call = .settle leg amount → isSafeInteger (some amount) = true → 0 ≤ amount →
        a.settledAt leg = some amount) :
    ForegroundInv plan t₀ (tr ++ [(now, .ledger objectName op)]) now { s with net := net } where
  start_le := Int.le_trans h.start_le ht
  times := fun e he => by
    rcases List.mem_append.mp he with he | he
    · exact Int.le_trans (h.times e he) ht
    · rw [List.mem_singleton.mp he]
  planned := fun call hcall => h.planned call (hissued call hcall)
  facts := hfacts
  legs := fun leg hleg => (h.legs leg hleg).later hissued hanswers
  ended := fun leg hleg => by
    refine @ended_apply _ _ _ _ _ _ op ?_ (fun e he => Int.le_trans (h.times e he) ht) (h.ended leg hleg)
    show (net.ledgers _).reservations.find? _ = _
    rw [hledgers]
    rfl
  answered := fun leg hleg a ha => by
    rcases hnew leg hleg a ha with ha | ha
    · exact h.answered leg hleg a ha
    · exact ha
  free := h.free

theorem ForegroundInv.settles (hretained : t ≤ t₀ + chargeRetentionMs) (hleg : leg ∈ plan)
    (hcall : s.net.Issued (.settle leg amount)) (hvalid : isSafeInteger (some amount) = true)
      (hnonneg : 0 ≤ amount) :
    ∃ spent, (exec now (s.net.ledgers leg.objectName) (LedgerCall.settle leg amount).op).2 =
      .settled amount spent := by
  have hfacts := h.facts leg hleg
  have hinv := h.legs leg hleg
  obtain ⟨hheld, wasSent, hphase⟩ := hinv.settling amount hcall
  obtain ⟨a, ha, hallow⟩ := hinv.held_answer hheld
  obtain ⟨r, hr⟩ := hfacts.present hretained a ha (.inl hallow)
  have hrow := hfacts.row r hr
  have hfree : r.dispatchStarted = false → amount = 0 := by
    intro hd
    cases wasSent with
    | false => exact h.free amount hphase
    | true =>
      obtain ⟨b, hb, hack⟩ := hinv.marked_answer (hinv.marked (by rw [hphase]; rfl))
      have hs := ((hfacts.agrees b hb r hr).started hack).1
      rw [hd] at hs
      cases hs
  refine settle_answered hr hvalid hnonneg (fun hf => ?_) hfree
  rcases hrow.final hf with ⟨hd, hz⟩ | ⟨b, hb, hset, -⟩
  · rw [hz, hfree hd]
  · obtain ⟨-, _, e⟩ := hinv.settling r.reservedMicros (.inr ⟨b, hb, hset⟩)
    rw [hphase] at e
    cases e
    rfl

theorem ForegroundInv.serve (ht : t ≤ now) (hids : (plan.map BudgetReservationIntent.reservationId).Nodup)
    (hretained : now ≤ t₀ + chargeRetentionMs) {call : LedgerCall} (hcall : call ∈ s.net.inFlight) :
    ForegroundInv plan t₀ (tr ++ [(now, .ledger call.leg.objectName call.op)]) now
      { s with net := s.net.serve now call } := by
  have hplanned := h.planned call (.inl hcall)
  refine h.ledger ht rfl (fun c hc => issued_of_serve hcall hc)
    (fun a ha => List.mem_cons_of_mem _ ha) (fun leg hleg => ?_) fun leg hleg a ha => ?_
  · exact facts_serve (h.facts leg hleg) h.start_le ht (leg_of_id hids hplanned hleg) fun _ => hretained
  · rcases List.mem_cons.mp ha with rfl | ha
    · refine .inr fun amount e hvalid hnonneg => ?_
      have e : call = .settle leg amount := e
      subst e
      obtain ⟨spent, hanswer⟩ : ∃ spent, (exec now (s.net.ledgers leg.objectName)
          (LedgerCall.settle leg amount).op).2 = .settled amount spent :=
            h.settles (Int.le_trans ht hretained) hleg
        (.inl hcall) hvalid hnonneg
      unfold LedgerAnswer.settledAt
      have hanswer : (exec now (s.net.ledgers (LedgerCall.settle leg amount).leg.objectName)
        (LedgerCall.settle leg amount).op).2 = .settled amount spent := hanswer
      rw [hanswer]
      exact settledAt_settle
    · exact .inl ha

theorem ForegroundInv.reserveAnswered (ht : t ≤ now)
    (hids : (plan.map BudgetReservationIntent.reservationId).Nodup)
    {a : LedgerAnswer} (hleg : leg ∈ plan) (hphase : s.phase = .reserving)
    (hwaiting : (s.progress leg.reservationId).reserve = .waiting) (ha : a ∈ s.net.answers)
    (hcall : a.call = .reserve leg) : ForegroundInv plan t₀ (tr ++ [(now, .proxy)]) now
      (s.setLeg leg { s.progress leg.reservationId with reserve := reserveOutcome a.reply }) := by
  have hinv := h.legs leg hleg
  rw [hphase] at hinv
  refine h.remember ht hids hleg ?_
  rw [hphase]
  refine hinv.reserve hwaiting fun dispatched e => ⟨a, ha, ?_⟩
  obtain ⟨_, reply, servedAt⟩ := a
  obtain rfl := hcall
  cases reply with
  | reserved allowed p w c u m d =>
    cases allowed with
    | false => cases e
    | true =>
      cases e
      refine ⟨decide_eq_true rfl, fun hd => ?_⟩
      show ((leg.request.reservationId == leg.reservationId) && _) = true
      rw [hd, Bool.and_true]
      exact beq_self_eq_true _
  | error | dispatched | settled | charged | status | maintained => cases e

theorem ForegroundInv.mark (ht : t ≤ now) (hphase : s.phase = .reserved) :
    ForegroundInv plan t₀ (tr ++ [(now, .proxy)]) now (s.mark plan) := by
  refine h.proxy ht rfl (fun call hcall => ?_) (fun leg hleg => ?_) nofun
  · obtain ⟨leg, hleg, rfl⟩ := List.mem_map.mp hcall
    exact (List.mem_filter.mp hleg).1
  · have hinv := h.legs leg hleg
    rw [hphase] at hinv
    refine hinv.mark (fun hd => ?_) fun amount hs => ?_
    · obtain ⟨leg', hleg', e⟩ := List.mem_map.mp hd
      cases e
      exact of_decide_eq_true (List.mem_filter.mp hleg').2
    · obtain ⟨_, -, e⟩ := List.mem_map.mp hs
      cases e

theorem ForegroundInv.deliver (ht : t ≤ now) (hleg : leg ∈ plan)
    (hqueued : (s.progress leg.reservationId).settlement = .queued) {wasSent : Bool}
    (hphase : s.phase = .closed wasSent amount) : ForegroundInv plan t₀ (tr ++ [(now, .proxy)]) now
      { s with net := s.net.send [.settle leg amount] } := by
  refine h.proxy ht rfl (fun call hcall => ?_) (fun leg' hleg' => ?_) h.free
  · rw [List.mem_singleton.mp hcall]
    exact hleg
  · have hinv := h.legs leg' hleg'
    rw [hphase] at hinv ⊢
    refine hinv.deliver fun e => ?_
    subst e
    refine hinv.billed ?_
    rw [hqueued]
    nofun

theorem ForegroundInv.step (ht : t ≤ now) (hids : (plan.map BudgetReservationIntent.reservationId).Nodup)
    (hretained : now ≤ t₀ + chargeRetentionMs) {event : Event} (hs : ForegroundStep plan now s event s') :
    ForegroundInv plan t₀ (tr ++ [(now, event)]) now s' := by
  cases hs with
  | serve hcall => exact h.serve ht hids hretained hcall
  | other objectName op hop =>
    exact h.ledger ht rfl (fun _ hc => hc) (fun _ ha => ha)
      (fun leg hleg => facts_apply (h.facts leg hleg) ht (hop leg hleg))
      fun _ _ _ ha => .inl ha
  | reserveAnswered hleg hphase hwaiting ha hcall =>
    exact h.reserveAnswered ht hids hleg hphase hwaiting ha hcall
  | @reserveFailed leg hleg hphase hwaiting =>
    have hinv := h.legs leg hleg
    rw [hphase] at hinv
    refine h.remember ht hids hleg ?_
    rw [hphase]
    exact hinv.reserve hwaiting fun _ e => by cases e
  | reserved hphase hheld =>
    exact h.advance ht (by rw [hphase]; rfl) rfl (fun _ => hheld) nofun
  | rollback hphase _ _ | undispatched hphase _ _ =>
    exact h.close ht (by rw [hphase]; rfl) nofun fun _ => rfl
  | mark hphase => exact h.mark ht hphase
  | @dispatchAnswered leg a hleg hphase hwaiting ha hcall hreply =>
    have hinv := h.legs leg hleg
    rw [hphase] at hinv
    refine h.remember ht hids hleg ?_
    rw [hphase]
    refine hinv.dispatch fun _ => ⟨a, ha, ?_⟩
    unfold LedgerAnswer.acknowledges
    rw [hcall, hreply]
    exact beq_self_eq_true _
  | @dispatchFailed leg hleg hphase hwaiting =>
    have hinv := h.legs leg hleg
    rw [hphase] at hinv
    refine h.remember ht hids hleg ?_
    rw [hphase]
    exact hinv.dispatch nofun
  | dispatched hphase hmarked =>
    refine h.advance ht (by rw [hphase]; rfl) rfl (fun _ leg hleg => ?_) fun _ => hmarked
    exact (h.legs leg hleg).held (by rw [hphase]; rfl)
  | abandon hphase =>
    refine h.close ht ?_ nofun fun _ => rfl
    rcases hphase with e | e <;> rw [e] <;> rfl
  | send hphase =>
    refine h.advance ht (by rw [hphase]; rfl) rfl (fun _ leg hleg => ?_) fun _ leg hleg => ?_
    · exact (h.legs leg hleg).held (by rw [hphase]; rfl)
    · exact (h.legs leg hleg).marked (by rw [hphase]; rfl)
  | settle hphase amount =>
    refine h.close ht (by rw [hphase]; rfl) (fun _ leg hleg => ⟨?_, ?_⟩) nofun
    · exact (h.legs leg hleg).held (by rw [hphase]; rfl)
    · exact (h.legs leg hleg).marked (by rw [hphase]; rfl)
  | @settleAnswered leg a hleg hwaiting ha hsettled =>
    refine h.remember ht hids hleg ((h.legs leg hleg).settlement ?_ nofun fun _ => ⟨a, ha, hsettled⟩)
    rw [hwaiting]
    nofun
  | @settleFailed leg hleg hwaiting =>
    refine h.remember ht hids hleg ((h.legs leg hleg).settlement ?_ nofun ?_)
    · rw [hwaiting]
      nofun
    · rintro (e | e) <;> cases e
  | deliver hleg hqueued hphase => exact h.deliver ht hleg hqueued hphase
  | @delivered leg a hleg hqueued ha hsettled =>
    refine h.remember ht hids hleg ((h.legs leg hleg).settlement ?_ nofun fun _ => ⟨a, ha, hsettled⟩)
    rw [hqueued]
    nofun

end

end Steps

/-! ## 5. The protocol -/

section Protocol

variable {plan : List BudgetReservationIntent} {t₀ t : Int} {tr : List (Int × Event)}
  {s : ForegroundState}

theorem foreground_start {ledgers : String → Ledger}
    (hfresh : ∀ leg ∈ plan, (ledgers leg.objectName).reservations.find? leg.reservationId = none) :
    ForegroundInv plan t₀ [] t₀ (startForeground plan ledgers) where
  start_le := Int.le_refl t₀
  times := fun e he => absurd he List.not_mem_nil
  planned := fun call hcall => by
    rcases hcall with hcall | ⟨a, ha, -⟩
    · obtain ⟨leg, hleg, rfl⟩ := List.mem_map.mp hcall
      exact hleg
    · exact absurd ha List.not_mem_nil
  facts := fun leg hleg => facts_fresh _ (hfresh leg hleg)
  legs := fun leg hleg => by
    have hissued : ∀ call, (startForeground plan ledgers).net.Issued call → ∃ leg, call = .reserve leg := by
      rintro call (hcall | ⟨a, ha, -⟩)
      · obtain ⟨leg, -, rfl⟩ := List.mem_map.mp hcall
        exact ⟨leg, rfl⟩
      · exact absurd ha List.not_mem_nil
    refine ⟨fun hd => ?_, fun amount hs => ?_, nofun, nofun, ?_, nofun, nofun, fun hb => absurd rfl hb, nofun⟩
    · obtain ⟨_, e⟩ := hissued _ hd
      cases e
    · obtain ⟨_, e⟩ := hissued _ hs
      cases e
    · rintro (e | e) <;> cases e
  ended := fun leg _ r _ ⟨e, he, _⟩ => absurd he List.not_mem_nil
  answered := fun _ _ a ha => absurd ha List.not_mem_nil
  free := nofun

theorem foreground_invariant {ledgers : String → Ledger}
    (hids : (plan.map BudgetReservationIntent.reservationId).Nodup)
    (hfresh : ∀ leg ∈ plan, (ledgers leg.objectName).reservations.find? leg.reservationId = none)
    (hrun : Run (ForegroundStep plan) (startForeground plan ledgers) t₀ tr t s)
    (hretained : t ≤ t₀ + chargeRetentionMs) : ForegroundInv plan t₀ tr t s := by
  refine hrun.invariant_along (I := fun tr t s => t ≤ t₀ + chargeRetentionMs → ForegroundInv plan t₀ tr t s)
    (fun _ => foreground_start hfresh) ?_ hretained
  intro tr t t' s e s' ht ih hs hretained'
  exact (ih (Int.le_trans ht hretained')).step ht hids hretained' hs

section

variable (h : ForegroundInv plan t₀ tr t s)
include h

theorem ForegroundInv.marked_row
    (hretained : t ≤ t₀ + chargeRetentionMs) (hup : s.phase.upstream = true) (hleg : leg ∈ plan) :
    ∃ a ∈ s.net.answers, a.acknowledges leg = true ∧ ∃ r, s.net.row leg = some r ∧ Agrees leg a r := by
  have hmarks : s.phase.marks = true := by
    unfold Phase.upstream at hup
    split at hup
    · rename_i e
      rw [e]
      rfl
    · rename_i e
      rw [e]
      exact hup
    · cases hup
  obtain ⟨a, ha, hack⟩ := (h.legs leg hleg).marked_answer ((h.legs leg hleg).marked hmarks)
  obtain ⟨r, hr⟩ := (h.facts leg hleg).present hretained a ha (.inr (.inl hack))
  exact ⟨a, ha, hack, r, hr, (h.facts leg hleg).agrees a ha r hr⟩

theorem ForegroundInv.settled_row (hretained : t ≤ t₀ + chargeRetentionMs) (hleg : leg ∈ plan)
    (hsettled : Settled s leg) : ∃ r, s.net.row leg = some r ∧ r.settled = .final := by
  obtain ⟨a, ha, hs⟩ := hsettled
  obtain ⟨r, hr⟩ := (h.facts leg hleg).present hretained a ha (.inr (.inr hs))
  obtain ⟨amount, e⟩ := Option.isSome_iff_exists.mp hs
  exact ⟨r, hr, (((h.facts leg hleg).agrees a ha r hr).settled amount e).1⟩

theorem ForegroundInv.settled_held
    (hleg : leg ∈ plan) (hclosed : s.phase.isOpen = false)
      (hheld : (s.progress leg.reservationId).held = true)
    (hdone : (s.progress leg.reservationId).outstanding = false) : Settled s leg := by
  have hne := (h.legs leg hleg).closing hclosed hheld
  obtain ⟨hw, hq⟩ := Bool.or_eq_false_iff.mp hdone
  have hw := of_decide_eq_false hw
  have hq := of_decide_eq_false hq
  refine (h.legs leg hleg).settled ?_
  cases hs : (s.progress leg.reservationId).settlement with
  | idle => exact absurd hs hne
  | waiting => exact absurd hs hw
  | queued => exact absurd hs hq
  | acknowledged => exact .inl rfl
  | delivered => exact .inr rfl

theorem ForegroundInv.final_amount (hleg : leg ∈ plan) {r : Reservation}
    (hr : s.net.row leg = some r) (hf : r.settled = .final) :
    (r.dispatchStarted = false ∧ r.reservedMicros = 0) ∨
      (s.progress leg.reservationId).held = true ∧ ∃ wasSent, s.phase = .closed wasSent r.reservedMicros := by
  rcases ((h.facts leg hleg).row r hr).final hf with hz | ⟨a, ha, e, -⟩
  · exact .inl hz
  · exact .inr ((h.legs leg hleg).settling _ (.inr ⟨a, ha, e⟩))

theorem ForegroundInv.owed (hretained : t ≤ t₀ + chargeRetentionMs) (hup : s.phase.upstream = true)
    (hleg : leg ∈ plan) (hopen : ¬ Settled s leg) : s.net.contribution leg = leg.request.costMicros := by
  obtain ⟨a, ha, hack, r, hr, hagrees⟩ := h.marked_row hretained hup hleg
  have hrow := (h.facts leg hleg).row r hr
  rw [contribution_of_row hr hrow]
  refine hrow.amount fun hf => ?_
  rcases hrow.final hf with ⟨hd, -⟩ | ⟨b, hb, -, hs⟩
  · rw [(hagrees.started hack).1] at hd
    cases hd
  · exact hopen ⟨b, hb, by rw [hs]; rfl⟩

theorem ForegroundInv.paid (hretained : t ≤ t₀ + chargeRetentionMs)
    (hphase : s.phase = .closed true amount) (hleg : leg ∈ plan)
    (hdone : Settled s leg ∨ (s.progress leg.reservationId).outstanding = false) :
    s.net.contribution leg = amount := by
  have hsettled : Settled s leg := by
    rcases hdone with hs | hdone
    · exact hs
    · refine h.settled_held hleg (by rw [hphase]; rfl) ?_ hdone
      exact (h.legs leg hleg).held (by rw [hphase]; rfl)
  obtain ⟨r, hr, hf⟩ := h.settled_row hretained hleg hsettled
  obtain ⟨a, -, hack, r', hr', hagrees⟩ := h.marked_row hretained (by rw [hphase]; rfl) hleg
  obtain rfl : r = r' := Option.some.inj (hr.symm.trans hr')
  rw [contribution_of_row hr ((h.facts leg hleg).row r hr)]
  rcases h.final_amount hleg hr hf with ⟨hd, -⟩ | ⟨-, _, e⟩
  · rw [(hagrees.started hack).1] at hd
    cases hd
  · rw [hphase] at e
    cases e
    rfl

theorem ForegroundInv.unsent (hretained : t ≤ t₀ + chargeRetentionMs)
    (hphase : s.phase = .closed false amount) (hleg : leg ∈ plan)
    (hdone : (s.progress leg.reservationId).outstanding = false)
    (hended : ∀ r, s.net.row leg = some r → LeaseEnded leg r tr) :
    (Orphaned s leg ∧ s.net.contribution leg = leg.request.costMicros) ∨
      (¬ Orphaned s leg ∧ s.net.contribution leg = 0) := by
  cases hr : s.net.row leg with
  | none =>
    refine .inr ⟨fun ⟨_, _, r, e⟩ => ?_, contribution_of_none hr⟩
    rw [hr] at e
    cases e
  | some r =>
    have hrow := (h.facts leg hleg).row r hr
    rw [contribution_of_row hr hrow]
    by_cases hheld : (s.progress leg.reservationId).held = true
    · refine .inr ⟨fun ho => ?_, ?_⟩
      · have := ho.2.1
        rw [hheld] at this
        cases this
      · obtain ⟨r', hr', hf⟩ := h.settled_row hretained hleg
          (h.settled_held hleg (by rw [hphase]; rfl) hheld hdone)
        obtain rfl : r = r' := Option.some.inj (hr.symm.trans hr')
        rcases h.final_amount hleg hr hf with ⟨-, hz⟩ | ⟨-, _, e⟩
        · exact hz
        · rw [hphase] at e
          cases e
          exact h.free _ hphase
    · -- no settlement of the leg was ever sent
      have hunsettled : r.settled = .final → r.dispatchStarted = false ∧ r.reservedMicros = 0 := by
        intro hf
        rcases h.final_amount hleg hr hf with hz | ⟨hp, -⟩
        · exact hz
        · exact absurd hp hheld
      by_cases hd : leg.request.dispatched = true
      · have hs := hrow.combined hd
        refine .inl ⟨⟨hd, Bool.eq_false_iff.mpr hheld, r, hr⟩, hrow.amount fun hf => ?_⟩
        have hn := (hunsettled hf).1
        rw [hs] at hn
        cases hn
      · refine .inr ⟨fun ho => hd ho.1, ?_⟩
        have hns : r.dispatchStarted = true → False := by
          intro hs
          rcases hrow.started hs with e | hissued
          · exact hd e
          · have e := (h.legs leg hleg).dispatching hissued
            refine hheld ?_
            unfold LegProgress.held
            rw [e]
        cases hset : r.settled with
        | pending => exact absurd hset (h.ended leg hleg r hr (hended r hr))
        | bound => exact (hns (hrow.bound hset)).elim
        | final => exact (hunsettled hset).2

end

/-- **The charging protocol of a proxied request**, at every moment before the receipts of its
    ledgers can expire. -/
theorem foreground_charging {ledgers : String → Ledger}
    (hids : (plan.map BudgetReservationIntent.reservationId).Nodup)
    (hfresh : ∀ leg ∈ plan, (ledgers leg.objectName).reservations.find? leg.reservationId = none)
    (hrun : Run (ForegroundStep plan) (startForeground plan ledgers) t₀ tr t s)
    (hretained : t ≤ t₀ + chargeRetentionMs) : ChargingProtocol plan tr s := by
  have h := foreground_invariant hids hfresh hrun hretained
  refine ⟨fun hup leg hleg => ?_, fun amount hphase hdone hended => ?_,
    fun hup leg hleg => h.owed hretained hup hleg, h.answered,
    fun amount hphase leg hleg => h.paid hretained hphase hleg⟩
  · obtain ⟨a, ha, hack, r, hr, hagrees⟩ := h.marked_row hretained hup hleg
    exact ⟨a, ha, hack, r, hr, (hagrees.started hack).2⟩
  · refine ⟨fun hzero leg hleg ho => ?_, fun horphans leg hleg => ?_⟩
    · rcases h.unsent hretained hphase hleg (hdone leg hleg) (hended leg hleg) with ⟨-, e⟩ | ⟨hn, -⟩
      · rw [← e]
        exact hzero leg hleg
      · exact absurd ho hn
    · rcases h.unsent hretained hphase hleg (hdone leg hleg) (hended leg hleg) with ⟨ho, e⟩ | ⟨-, e⟩
      · rw [e]
        exact horphans leg hleg ho
      · exact e

end Protocol

/-- A leg that is dispatched with its reservation. -/
def combinedLeg : BudgetReservationIntent where
  objectName :=
  "policy"
  request := ⟨"policy", "2026-01", none, 100, 10, "leg", "llm.chat", true⟩

/-- A request that is sent and settled. -/
theorem foreground_charging_settled : ∃ tr s,
    Run (ForegroundStep [combinedLeg]) (startForeground [combinedLeg] fun _ => Ledger.empty) 0 tr 8 s ∧
      s.phase = .closed true 7 ∧ s.net.contribution combinedLeg = 7 ∧ ChargingProtocol
        [combinedLeg] tr s := by
  have hleg : combinedLeg ∈ [combinedLeg] := List.mem_singleton_self _
  have h0 : Run (ForegroundStep [combinedLeg]) (startForeground [combinedLeg] fun _ => Ledger.empty)
    0 [] 0 _ := .start
  have h1 := h0.next (show (0 : Int) ≤ 0 by omega)
    (@ForegroundStep.serve _ _ _ (.reserve combinedLeg) (List.mem_singleton_self _))
  have h2 := h1.next (show (0 : Int) ≤ 1 by omega) (.reserveAnswered hleg rfl rfl List.mem_cons_self rfl)
  have h3 := h2.next (show (1 : Int) ≤ 2 by omega) (.reserved rfl (by decide +kernel))
  have h4 := h3.next (show (2 : Int) ≤ 3 by omega) (.mark rfl)
  have h5 := h4.next (show (3 : Int) ≤ 4 by omega) (.dispatched rfl (by decide +kernel))
  have h6 := h5.next (show (4 : Int) ≤ 5 by omega) (.send rfl)
  have h7 := h6.next (show (5 : Int) ≤ 6 by omega) (.settle rfl 7)
  have h8 := h7.next (show (6 : Int) ≤ 7 by omega)
    (@ForegroundStep.serve _ _ _ (.settle combinedLeg 7) (by decide +kernel))
  have h9 := h8.next (show (7 : Int) ≤ 8 by omega)
    (.settleAnswered hleg (by decide +kernel) List.mem_cons_self (by decide +kernel))
  exact ⟨_, _, h9, rfl, by decide +kernel,
    foreground_charging (by decide +kernel) (fun _ _ => rfl) h9 (by decide +kernel)⟩

/-- **A lost answer**: the ledger has reserved and dispatched the leg, the proxy does not know. The
    rollback settles what it holds, which is nothing, and the leg stays charged past its lease. -/
theorem unacknowledged_stays_charged : ∃ tr s,
    Run (ForegroundStep [combinedLeg]) (startForeground [combinedLeg] fun _ => Ledger.empty) 0 tr
        reservationLeaseMs s ∧ s.phase = .closed false 0 ∧ s.net.inFlight = [] ∧
      (s.progress combinedLeg.reservationId).outstanding = false ∧
      (∀ r, s.net.row combinedLeg = some r → LeaseEnded combinedLeg r tr) ∧
        s.net.contribution combinedLeg = 10 := by
  have hleg : combinedLeg ∈ [combinedLeg] := List.mem_singleton_self _
  have h0 : Run (ForegroundStep [combinedLeg]) (startForeground [combinedLeg] fun _ => Ledger.empty)
    0 [] 0 _ := .start
  have h1 := h0.next (show (0 : Int) ≤ 0 by omega)
    (@ForegroundStep.serve _ _ _ (.reserve combinedLeg) (List.mem_singleton_self _))
  have h2 := h1.next (show (0 : Int) ≤ 1 by omega) (.reserveFailed hleg rfl rfl)
  have h3 := h2.next (show (1 : Int) ≤ 2 by omega) (.rollback rfl (by decide +kernel) (by decide +kernel))
  have h4 := h3.next (show (2 : Int) ≤ reservationLeaseMs by decide)
    (.other "policy" .maintain fun _ _ => rfl)
  refine ⟨_, _, h4, rfl, by decide +kernel, by decide +kernel, fun r hr => ?_, by decide +kernel⟩
  refine ⟨(reservationLeaseMs, .ledger "policy" .maintain), by simp, rfl, ?_⟩
  cases hr
  decide

end ClawRouter.Charging
