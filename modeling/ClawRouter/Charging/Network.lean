/-
  Subject:   The ledgers as the callers of `reserveLedgerIntent`, `markBudgetDispatched` and
             `settleLedger` (src/worker/accounting.ts, src/worker/ledgers.ts) see them: over calls
             that may be lost, delayed, or answered without the answer arriving.

  A leg is one reservation on one ledger, under an id of its own. A call is in flight until its
  ledger serves it, which may be never; what the ledger answered stays known, and whether the
  caller reads the answer is up to the caller. Between the calls a ledger serves anything else.

  * **`facts_serve`**, `facts_apply`, `facts_send`: nothing that happens makes it wrong.
-/
import ClawRouter.Budget.Ownership

namespace ClawRouter.Charging

open Keyed Budget

/-! ## 1. Calls and answers -/

/-- A leg: a reservation at one ledger. -/
structure BudgetReservationIntent where
  objectName : String
  request : BudgetReserveRequest
  deriving DecidableEq

def BudgetReservationIntent.reservationId (leg : BudgetReservationIntent) : String :=
  leg.request.reservationId

/-- A call of the proxy. -/
inductive LedgerCall
  | reserve (leg : BudgetReservationIntent)
  | dispatch (leg : BudgetReservationIntent)
  | settle (leg : BudgetReservationIntent) (actualCostMicros : Int)
  deriving DecidableEq

def LedgerCall.leg : LedgerCall → BudgetReservationIntent
  | .reserve leg => leg
  | .dispatch leg => leg
  | .settle leg _ => leg

def LedgerCall.op : LedgerCall → Op
  | .reserve leg => .reserve (fun _ => true) leg.request
  | .dispatch leg => .dispatch leg.reservationId
  | .settle leg actualCostMicros => .settle ⟨leg.reservationId, some actualCostMicros⟩

/-- A call with its answer. -/
structure LedgerAnswer where
  call : LedgerCall
  reply : LedgerReply
  servedAt : Int

/-- The answer allows the reservation of a leg. -/
def LedgerAnswer.allows (a : LedgerAnswer) (leg : BudgetReservationIntent) : Bool :=
  match a.call, a.reply with
  | .reserve leg', .reserved true _ _ _ _ _ _ => leg' = leg
  | _, _ => false

def LedgerAnswer.acknowledges (a : LedgerAnswer) (leg : BudgetReservationIntent) : Bool :=
  Budget.acknowledges leg.reservationId (a.call.op, a.reply)

/-- The amount at which the answer settled a leg. -/
def LedgerAnswer.settledAt (a : LedgerAnswer) (leg : BudgetReservationIntent) : Option Int :=
  Budget.settledAt leg.reservationId (a.call.op, a.reply)

/-- The ledgers, the calls on the way and the answers. -/
structure Network where
  ledgers : String → Ledger
  inFlight : List LedgerCall
  answers : List LedgerAnswer

namespace Network

def row (net : Network) (leg : BudgetReservationIntent) : Option Reservation :=
  (net.ledgers leg.objectName).reservations.find? leg.reservationId

def contribution (net : Network) (leg : BudgetReservationIntent) : Int :=
  Budget.contribution (net.ledgers leg.objectName) leg.reservationId leg.request.windowKey
    leg.request.scopeKey

/-- The call was sent: it is under way, or was served. -/
def Issued (net : Network) (call : LedgerCall) : Prop :=
  call ∈ net.inFlight ∨ ∃ a ∈ net.answers, a.call = call

def send (net : Network) (calls : List LedgerCall) : Network := { net with inFlight := calls ++ net.inFlight }

def apply (net : Network) (now : Int) (objectName : String) (op : Op) : Network :=
  { net with
    ledgers := Function.update net.ledgers objectName (exec now (net.ledgers objectName) op).1 }

def serve (net : Network) (now : Int) (call : LedgerCall) : Network :=
  { net.apply now call.leg.objectName call.op with
    inFlight := net.inFlight.erase call
    answers := ⟨call, (exec now (net.ledgers call.leg.objectName) call.op).2, now⟩ :: net.answers }

end Network

/-- The operation is about the reservation of an id. -/
def addresses (id : String) : Op → Bool
  | .reserve _ request => request.reservationId == id
  | .dispatch reservationId => reservationId == id
  | .settle request => request.reservationId == id
  | .charge request => request.chargeId == id
  | .status _ => false
  | .maintain => false

/-! ## 2. The row of a leg -/

/-- What the row of a leg is, as far as the calls tell. -/
structure LegRow (net : Network) (leg : BudgetReservationIntent) (r : Reservation) : Prop where
  window : r.windowKey = leg.request.windowKey
  scope : r.budgetScopeKey = leg.request.scopeKey
  amount : r.settled ≠ .final → r.reservedMicros = leg.request.costMicros
  bound : r.settled = .bound → r.dispatchStarted = true
  combined : leg.request.dispatched = true → r.dispatchStarted = true
  started : r.dispatchStarted = true →
    leg.request.dispatched = true ∨ net.Issued (.dispatch leg)
  final : r.settled = .final → (r.dispatchStarted = false ∧ r.reservedMicros = 0) ∨
    ∃ a ∈ net.answers, a.call = .settle leg r.reservedMicros ∧
      a.settledAt leg = some r.reservedMicros

/-- An answer still tells the truth about the row. -/
structure Agrees (leg : BudgetReservationIntent) (a : LedgerAnswer) (r : Reservation) : Prop where
  started : a.acknowledges leg = true → r.dispatchStarted = true ∧ r.createdAtMs ≤ a.servedAt ∧
    a.servedAt < r.createdAtMs + reservationLeaseMs
  settled : ∀ amount, a.settledAt leg = some amount →
    r.settled = .final ∧ r.reservedMicros = amount

/-- What holds of a leg at a time, for calls that began at `t₀`. The retention of 45 days counts
    from the creation of a row, so no row of the leg is deleted before its end. -/
structure LegFacts (t₀ now : Int) (net : Network) (leg : BudgetReservationIntent) : Prop where
  row : ∀ r, net.row leg = some r → LegRow net leg r
  created : ∀ r, net.row leg = some r → t₀ ≤ r.createdAtMs ∧ r.createdAtMs ≤ now
  agrees : ∀ a ∈ net.answers, ∀ r, net.row leg = some r → Agrees leg a r
  present : now ≤ t₀ + chargeRetentionMs → ∀ a ∈ net.answers,
    (a.allows leg = true ∨ a.acknowledges leg = true ∨ (a.settledAt leg).isSome = true) →
      ∃ r, net.row leg = some r
  allowed : ∀ r, net.row leg = some r → ∃ a ∈ net.answers, a.allows leg = true

section Rows

variable {net : Network} {leg : BudgetReservationIntent} {now : Int}

theorem row_apply (objectName : String) (op : Op) : (net.apply now objectName op).row leg =
      if leg.objectName = objectName then
        (exec now (net.ledgers leg.objectName) op).1.reservations.find? leg.reservationId else
          net.row leg := by
  show (Function.update net.ledgers objectName _ leg.objectName).reservations.find? _ = _
  by_cases h : leg.objectName = objectName
  · rw [if_pos h, ← h, Function.update_self]
  · rw [if_neg h, Function.update_of_ne h]
    rfl

theorem exec_unaddressed {l : Ledger} {id : String} {op : Op} (h : addresses id op = false) :
    (exec now l op).1.reservations.find? id = l.reservations.find? id ∨
      (exec now l op).1.reservations.find? id =
        (l.reservations.find? id).bind (·.maintain now) := by
  have hs : Step now l (op, (exec now l op).2) (exec now l op).1 := step_exec op
  cases hr : l.reservations.find? id with
  | none =>
    rcases absent_step hs hr with ⟨e, -, -⟩ | ⟨_, request, _, e, hid, -, -⟩ |
      ⟨request, _, _, e, hid, -⟩
    · exact .inl e
    · obtain rfl := (Prod.mk.inj e).1
      have hid : (request.reservationId == id) = true := beq_iff_eq.mpr hid
      rw [addresses, hid] at h
      cases h
    · obtain rfl := (Prod.mk.inj e).1
      have hid : (request.chargeId == id) = true := beq_iff_eq.mpr hid
      rw [addresses, hid] at h
      cases h
  | some r =>
    have hrow := row_step hs hr
    generalize ha : (op, (exec now l op).2) = a at hrow
    generalize hlater : (exec now l op).1.reservations.find? id = later at hrow
    cases hrow with
    | kept => exact .inl rfl
    | dispatched | settled =>
      obtain rfl := (Prod.mk.inj ha).1
      rw [addresses, beq_self_eq_true] at h
      cases h
    | maintained left => exact .inr left

/-- Everything that serving a call of a leg can do: the row before, the call, the answer and the
    row after. -/
inductive Served (leg : BudgetReservationIntent) (now : Int) :
    Option Reservation → LedgerCall → LedgerReply → Option Reservation → Prop
  | refused {row call reply} (notAllowed : (LedgerAnswer.mk call reply now).allows leg = false)
      (notAcknowledged : (LedgerAnswer.mk call reply now).acknowledges leg = false)
      (notSettled : (LedgerAnswer.mk call reply now).settledAt leg = none) :
      Served leg now row call reply row
  | admitted {p w : String} {c s m : Int} :
      Served leg now none (.reserve leg) (.reserved true p w c s m leg.request.dispatched)
        (some (leg.request.row now))
  | replayed {r : Reservation} {p w : String} {c s m : Int} {dispatched : Bool}
      (confirmed : dispatched = true →
        r.dispatchStarted = true ∧ r.settled = .pending ∧ r.leased now = true) :
      Served leg now (some r) (.reserve leg) (.reserved true p w c s m dispatched) (some r)
  | dispatched {r : Reservation} (pending : r.settled = .pending) (leased : r.leased now = true) :
      Served leg now (some r) (.dispatch leg) .dispatched (some { r with dispatchStarted := true })
  | settled {r : Reservation} {actual spent : Int} (nonneg : 0 ≤ actual)
      (agrees : r.settled = .final → r.reservedMicros = actual)
      (free : r.dispatchStarted = false → actual = 0) :
      Served leg now (some r) (.settle leg actual) (.settled actual spent)
        (some { r with reservedMicros := actual, settled := .final })

theorem refused_of_rejected {call : LedgerCall} {reply : LedgerReply} {row : Option Reservation}
    (h : reply.rejected = true) : Served leg now row call reply row := by
  refine .refused ?_ (acknowledges_rejected h) (settledAt_rejected h)
  cases reply with
  | error => cases call <;> rfl
  | reserved | dispatched | settled | charged | status | maintained => cases h

theorem exec_served {l : Ledger} {call : LedgerCall} (hleg : call.leg = leg) :
    Served leg now (l.reservations.find? leg.reservationId) call (exec now l call.op).2
      ((exec now l call.op).1.reservations.find? leg.reservationId) := by
  obtain ⟨l', answer, hexec⟩ : ∃ l' answer, exec now l call.op = (l', answer) := ⟨_, _, rfl⟩
  have heffect := exec_effect hexec
  rw [hexec]
  subst hleg
  cases call with
  | reserve leg =>
    show Served leg now (l.reservations.find? leg.reservationId) (.reserve leg) answer
      (l'.reservations.find? leg.reservationId)
    cases heffect with
    | @replayed _ _ r _ found answered =>
      have found : l.reservations.find? leg.reservationId = some r := found
      subst answered
      dsimp only [reply]
      rw [if_pos rfl, found]
      refine .replayed fun hd => ?_
      simp only [Bool.and_eq_true, beq_iff_eq] at hd
      exact ⟨hd.1.1.2, hd.1.2, hd.2⟩
    | denied absent exceeds answered =>
      subst answered
      dsimp only [reply]
      rw [if_pos rfl]
      refine .refused rfl ?_ rfl
      exact Bool.and_false _
    | admitted absent room answered =>
      subst answered
      have absent : l.reservations.find? leg.reservationId = none := absent
      have e : (l.add (leg.request.row now)).reservations.find? leg.reservationId = some
        (leg.request.row now) := by
        rw [find?_add absent]
        exact if_pos rfl
      dsimp only [reply]
      rw [if_pos rfl, e, absent]
      exact .admitted
    | refused _ rejected => exact refused_of_rejected rejected
  | dispatch leg =>
    show Served leg now (l.reservations.find? leg.reservationId) (.dispatch leg) answer
      (l'.reservations.find? leg.reservationId)
    cases heffect with
    | dispatched found pending leased =>
      rw [find?_markDispatched, found, Option.map_some, if_pos rfl]
      exact .dispatched pending leased
    | refused _ rejected => exact refused_of_rejected rejected
  | settle leg actual =>
    show Served leg now (l.reservations.find? leg.reservationId) (.settle leg actual) answer
      (l'.reservations.find? leg.reservationId)
    cases heffect with
    | settled found valid nonneg agrees free =>
      rw [find?_recordSettlement, found, Option.map_some, if_pos rfl]
      exact .settled nonneg agrees free
    | refused _ rejected => exact refused_of_rejected rejected

theorem answer_of_other {a : LedgerAnswer} (h : a.call.leg.reservationId ≠ leg.reservationId) :
    a.allows leg = false ∧ a.acknowledges leg = false ∧ a.settledAt leg = none := by
  obtain ⟨call, answer, servedAt⟩ := a
  cases call with
  | reserve leg' =>
    have hne : leg' ≠ leg := fun e => h (congrArg BudgetReservationIntent.reservationId e)
    have hid : (leg'.request.reservationId == leg.reservationId) = false := beq_eq_false_iff_ne.mpr h
    refine ⟨?_, ?_, rfl⟩
    · unfold LedgerAnswer.allows
      dsimp only
      split
      · rename_i e
        cases e
        exact decide_eq_false hne
      · rfl
    · cases answer with
      | reserved =>
        show (_ && _) = false
        rw [hid, Bool.false_and]
      | error | dispatched | settled | charged | status | maintained => rfl
  | dispatch leg' =>
    refine ⟨rfl, ?_, rfl⟩
    cases answer with
    | dispatched => exact beq_eq_false_iff_ne.mpr h
    | error | reserved | settled | charged | status | maintained => rfl
  | settle leg' amount =>
    refine ⟨rfl, rfl, ?_⟩
    cases answer with
    | settled => exact if_neg h
    | error | reserved | dispatched | charged | status | maintained => rfl

theorem addresses_op {call : LedgerCall} (h : call.leg.reservationId ≠ leg.reservationId) :
    addresses leg.reservationId call.op = false := by
  cases call <;> exact beq_eq_false_iff_ne.mpr h

end Rows

/-! ## 3. What happens keeps the facts -/

variable {r : Reservation}

section Facts

variable {t₀ t now : Int} {net : Network} {leg : BudgetReservationIntent}

theorem LegRow.mono {net' : Network} (h : LegRow net leg r)
    (hissued : ∀ call, net.Issued call → net'.Issued call)
    (hanswers : ∀ a ∈ net.answers, a ∈ net'.answers) : LegRow net' leg r where
  window := h.window
  scope := h.scope
  amount := h.amount
  bound := h.bound
  combined := h.combined
  started := fun hd => (h.started hd).imp id (hissued _)
  final := fun hf => (h.final hf).imp id fun ⟨a, ha, hcall⟩ => ⟨a, hanswers a ha, hcall⟩

theorem facts_later (h : LegFacts t₀ t net leg) (ht : t ≤ now) : LegFacts t₀ now net leg where
  row := h.row
  created := fun r hr => ⟨(h.created r hr).1, Int.le_trans (h.created r hr).2 ht⟩
  agrees := h.agrees
  present := fun hn => h.present (Int.le_trans ht hn)
  allowed := h.allowed

theorem facts_send (h : LegFacts t₀ now net leg) (calls : List LedgerCall) :
    LegFacts t₀ now (net.send calls) leg where
  row := fun r hr => (h.row r hr).mono (fun _ hcall => hcall.imp (List.mem_append_right calls)
    id) fun _ ha => ha
  created := h.created
  agrees := h.agrees
  present := h.present
  allowed := h.allowed

theorem legRow_expire (h : LegRow net leg r) : LegRow net leg (r.expire now) := by
  rcases expire_cases r now with ⟨-, e⟩ | ⟨hp, -, hd, e⟩ | ⟨hp, -, hd, e⟩
  · rw [e]
    exact h
  · rw [e]
    refine ⟨h.window, h.scope, fun _ => h.amount ?_, fun _ => hd, h.combined, h.started, nofun⟩
    rw [hp]
    nofun
  · rw [e]
    exact ⟨h.window, h.scope, fun hf => absurd rfl hf, nofun, h.combined, h.started, fun _ => .inl ⟨hd, rfl⟩⟩

theorem agrees_expire {a : LedgerAnswer} (h : Agrees leg a r) : Agrees leg a (r.expire now) := by
  rcases expire_cases r now with ⟨-, e⟩ | ⟨hp, -, -, e⟩ | ⟨hp, -, hd, e⟩
  · rw [e]
    exact h
  · rw [e]
    refine ⟨h.started, fun amount hs => ?_⟩
    have hf := (h.settled amount hs).1
    rw [hp] at hf
    cases hf
  · rw [e]
    refine ⟨fun hack => ?_, fun amount hs => ?_⟩
    · have hs := (h.started hack).1
      rw [hd] at hs
      cases hs
    · have hf := (h.settled amount hs).1
      rw [hp] at hf
      cases hf

theorem row_unaddressed {objectName : String} {op : Op} (h : addresses leg.reservationId op = false) :
    (net.apply now objectName op).row leg = net.row leg ∨
      (net.apply now objectName op).row leg = (net.row leg).bind (·.maintain now) := by
  rw [row_apply]
  split
  · exact exec_unaddressed h
  · exact .inl rfl

theorem facts_row {net' : Network} (h : LegFacts t₀ t net leg) (ht : t ≤ now)
    (hrow : net'.row leg = net.row leg ∨ net'.row leg = (net.row leg).bind (·.maintain now))
    (hissued : ∀ call, net.Issued call → net'.Issued call) (hanswers : ∀ a ∈ net.answers, a ∈ net'.answers)
    (hnew : ∀ a ∈ net'.answers, a ∈ net.answers ∨
      a.allows leg = false ∧ a.acknowledges leg = false ∧ a.settledAt leg = none) : LegFacts t₀ now
        net' leg := by
  have hcases : ∀ r', net'.row leg = some r' → ∃ r, net.row leg = some r ∧ (r' = r ∨ r' = r.expire now) := by
    intro r' hr'
    rcases hrow with e | e
    · exact ⟨r', e ▸ hr', .inl rfl⟩
    · rw [e] at hr'
      obtain ⟨r, hr, hm⟩ := Option.bind_eq_some_iff.mp hr'
      exact ⟨r, hr, .inr (maintain_eq_some hm).1⟩
  refine ⟨fun r' hr' => ?_, fun r' hr' => ?_, fun a ha r' hr' => ?_, fun hn a ha hpos => ?_, fun r' hr' => ?_⟩
  · obtain ⟨r, hr, rfl | rfl⟩ := hcases r' hr'
    · exact (h.row _ hr).mono hissued hanswers
    · exact (legRow_expire (h.row r hr)).mono hissued hanswers
  · obtain ⟨r, hr, rfl | rfl⟩ := hcases r' hr'
    · exact ⟨(h.created _ hr).1, Int.le_trans (h.created _ hr).2 ht⟩
    · rw [expire_createdAtMs]
      exact ⟨(h.created r hr).1, Int.le_trans (h.created r hr).2 ht⟩
  · obtain ⟨r, hr, e⟩ := hcases r' hr'
    rcases hnew a ha with hold | ⟨-, hack, hset⟩
    · rcases e with rfl | rfl
      · exact h.agrees a hold _ hr
      · exact agrees_expire (h.agrees a hold r hr)
    · refine ⟨fun e => ?_, fun amount e => ?_⟩
      · rw [hack] at e
        cases e
      · rw [hset] at e
        cases e
  · rcases hnew a ha with hold | ⟨hallow, hack, hset⟩
    · obtain ⟨r, hr⟩ := h.present (Int.le_trans ht hn) a hold hpos
      rcases hrow with e | e
      · exact ⟨r, e.trans hr⟩
      · rw [hr] at e
        cases hm : r.maintain now with
        | some r' => exact ⟨r', e.trans hm⟩
        | none =>
          have := maintain_eq_none hm
          have := (h.created r hr).1
          omega
    · rw [hallow, hack, hset] at hpos
      rcases hpos with e | e | e <;> cases e
  · obtain ⟨r, hr, -⟩ := hcases r' hr'
    obtain ⟨a, ha, hallow⟩ := h.allowed r hr
    exact ⟨a, hanswers a ha, hallow⟩

theorem facts_apply {objectName : String} {op : Op} (h : LegFacts t₀ t net leg) (ht : t ≤ now)
    (hop : addresses leg.reservationId op = false) : LegFacts t₀ now (net.apply now objectName op) leg :=
  facts_row h ht (row_unaddressed hop) (fun _ hcall => hcall) (fun _ ha => ha) fun _ ha => .inl ha

theorem issued_serve (call : LedgerCall) : ∀ c, net.Issued c → (net.serve now call).Issued c := by
  intro c hc
  by_cases e : c = call
  · subst e
    exact .inr ⟨_, List.mem_cons_self, rfl⟩
  · rcases hc with hc | ⟨a, ha, e⟩
    · exact .inl ((List.mem_erase_of_ne e).mpr hc)
    · exact .inr ⟨a, List.mem_cons_of_mem _ ha, e⟩

/-- The answer is recorded after those that were, and what was issued still is. -/
structure Records (net net' : Network) (answer : LedgerAnswer) : Prop where
  answers : net'.answers = answer :: net.answers
  issued : ∀ c, net.Issued c → net'.Issued c

namespace Records

variable {net' : Network} {answer : LedgerAnswer}

theorem first (h : Records net net' answer) : answer ∈ net'.answers := by
  rw [h.answers]
  exact List.mem_cons_self

theorem kept (h : Records net net' answer) (a : LedgerAnswer) (ha : a ∈ net.answers) : a ∈ net'.answers := by
  rw [h.answers]
  exact List.mem_cons_of_mem _ ha

theorem cases (h : Records net net' answer) (a : LedgerAnswer) (ha : a ∈ net'.answers) :
    a = answer ∨ a ∈ net.answers := by
  rw [h.answers] at ha
  exact List.mem_cons.mp ha

end Records

section Served

variable {net' : Network} {r : Reservation} {p w : String} {c s m : Int}

theorem facts_admitted (h : LegFacts t₀ t net leg) (h0 : t₀ ≤ t) (ht : t ≤ now)
    (hn : Records net net' ⟨.reserve leg, .reserved true p w c s m leg.request.dispatched, now⟩)
    (hretained : now ≤ t₀ + chargeRetentionMs) (hr : net.row leg = none)
    (hr' : net'.row leg = some (leg.request.row now)) : LegFacts t₀ now net' leg := by
  -- no row was there, so nothing was confirmed before
  have hnone : ∀ a ∈ net.answers, ¬ (a.allows leg = true ∨ a.acknowledges leg = true ∨
      (a.settledAt leg).isSome = true) := by
    intro a ha hpos
    obtain ⟨r, e⟩ := h.present (Int.le_trans ht hretained) a ha hpos
    rw [hr] at e
    cases e
  refine ⟨fun r e => ?_, fun r e => ?_, fun a ha r e => ?_, fun _ _ _ _ => ⟨_, hr'⟩,
    fun r e => ⟨_, hn.first, decide_eq_true rfl⟩⟩
  all_goals
    rw [hr'] at e
    cases e
  · exact ⟨rfl, rfl, fun _ => rfl, nofun, id, .inl, nofun⟩
  · exact ⟨Int.le_trans h0 ht, Int.le_refl now⟩
  · rcases hn.cases a ha with rfl | ha
    · refine ⟨fun hack => ⟨?_, Int.le_refl now, ?_⟩, fun amount hs => by cases hs⟩
      · exact (Bool.and_eq_true_iff.mp hack).2
      · show now < now + reservationLeaseMs
        unfold reservationLeaseMs
        omega
    · refine ⟨fun hack => absurd (.inr (.inl hack)) (hnone a ha), fun amount hs => ?_⟩
      exact absurd (.inr (.inr (by rw [hs]; rfl))) (hnone a ha)

theorem facts_replayed {dispatched : Bool} (h : LegFacts t₀ t net leg) (ht : t ≤ now)
    (hn : Records net net' ⟨.reserve leg, .reserved true p w c s m dispatched, now⟩)
      (hr : net.row leg = some r)
    (hr' : net'.row leg = some r) (confirmed : dispatched = true →
      r.dispatchStarted = true ∧ r.settled = .pending ∧ r.leased now = true) : LegFacts t₀ now net' leg := by
  refine ⟨fun x e => ?_, fun x e => ?_, fun a ha x e => ?_, fun _ _ _ _ => ⟨_, hr'⟩,
    fun x e => ?_⟩
  all_goals
    rw [hr'] at e
    cases e
  · exact (h.row r hr).mono hn.issued hn.kept
  · exact ⟨(h.created r hr).1, Int.le_trans (h.created r hr).2 ht⟩
  · rcases hn.cases a ha with rfl | ha
    · refine ⟨fun hack => ?_, fun amount hs => by cases hs⟩
      obtain ⟨hd, -, hl⟩ := confirmed (Bool.and_eq_true_iff.mp hack).2
      exact ⟨hd, Int.le_trans (h.created r hr).2 ht, of_decide_eq_true hl⟩
    · exact h.agrees a ha r hr
  · obtain ⟨a, ha, hallow⟩ := h.allowed r hr
    exact ⟨a, hn.kept a ha, hallow⟩

theorem facts_dispatched (h : LegFacts t₀ t net leg) (ht : t ≤ now)
    (hn : Records net net' ⟨.dispatch leg, .dispatched, now⟩) (hr : net.row leg = some r)
    (hr' : net'.row leg = some { r with dispatchStarted := true }) (pending : r.settled = .pending)
    (leased : r.leased now = true) : LegFacts t₀ now net' leg := by
  refine ⟨fun x e => ?_, fun x e => ?_, fun a ha x e => ?_, fun _ _ _ _ => ⟨_, hr'⟩,
    fun x e => ?_⟩
  all_goals
    rw [hr'] at e
    cases e
  · have hl := h.row r hr
    refine ⟨hl.window, hl.scope, hl.amount, fun _ => rfl, fun _ => rfl, fun _ => .inr ?_,
      fun hf => ?_⟩
    · exact .inr ⟨_, hn.first, rfl⟩
    · have hf : r.settled = .final := hf
      rw [pending] at hf
      cases hf
  · exact ⟨(h.created r hr).1, Int.le_trans (h.created r hr).2 ht⟩
  · rcases hn.cases a ha with rfl | ha
    · exact ⟨fun _ => ⟨rfl, Int.le_trans (h.created r hr).2 ht, of_decide_eq_true leased⟩,
        fun amount hs => by cases hs⟩
    · have hagrees := h.agrees a ha r hr
      refine ⟨fun hack => ⟨rfl, (hagrees.started hack).2⟩, fun amount hs => ?_⟩
      have hf := (hagrees.settled amount hs).1
      rw [pending] at hf
      cases hf
  · obtain ⟨a, ha, hallow⟩ := h.allowed r hr
    exact ⟨a, hn.kept a ha, hallow⟩

theorem facts_settled {actual spent : Int} (h : LegFacts t₀ t net leg) (ht : t ≤ now)
    (hn : Records net net' ⟨.settle leg actual, .settled actual spent, now⟩) (hr : net.row leg = some r)
    (hr' : net'.row leg = some { r with reservedMicros := actual, settled := .final })
    (agrees : r.settled = .final → r.reservedMicros = actual) : LegFacts t₀ now net' leg := by
  have hsettled : LedgerAnswer.settledAt ⟨.settle leg actual, .settled actual spent, now⟩ leg =
      some actual := if_pos rfl
  refine ⟨fun x e => ?_, fun x e => ?_, fun a ha x e => ?_, fun _ _ _ _ => ⟨_, hr'⟩,
    fun x e => ?_⟩
  all_goals
    rw [hr'] at e
    cases e
  · have hl := (h.row r hr).mono hn.issued hn.kept
    exact ⟨hl.window, hl.scope, fun hf => absurd rfl hf, nofun, hl.combined, hl.started,
      fun _ => .inr ⟨_, hn.first, rfl, hsettled⟩⟩
  · exact ⟨(h.created r hr).1, Int.le_trans (h.created r hr).2 ht⟩
  · rcases hn.cases a ha with rfl | ha
    · refine ⟨nofun, fun amount hs => ⟨rfl, ?_⟩⟩
      rw [hsettled] at hs
      exact Option.some.inj hs
    · have hagrees := h.agrees a ha r hr
      refine ⟨hagrees.started, fun amount hs => ⟨rfl, ?_⟩⟩
      obtain ⟨hf, hm⟩ := hagrees.settled amount hs
      exact (agrees hf).symm.trans hm
  · obtain ⟨a, ha, hallow⟩ := h.allowed r hr
    exact ⟨a, hn.kept a ha, hallow⟩

end Served

/-- **A ledger serves a call of the leg.** A reservation is served only as long as no row of the
    leg can have been deleted. -/
theorem facts_serve_own {call : LedgerCall} (h : LegFacts t₀ t net leg) (h0 : t₀ ≤ t)
    (ht : t ≤ now) (hleg : call.leg = leg) (hreserve : call = .reserve leg → now ≤ t₀ + chargeRetentionMs) :
    LegFacts t₀ now (net.serve now call) leg := by
  have hserved := @exec_served leg now (net.ledgers leg.objectName) call hleg
  have hrow : (net.serve now call).row leg = (exec now (net.ledgers leg.objectName)
      call.op).1.reservations.find? leg.reservationId := by
    have e := @row_apply net leg now call.leg.objectName call.op
    rw [if_pos (by rw [hleg])] at e
    exact e
  have hn : Records net (net.serve now call) ⟨call,
    (exec now (net.ledgers leg.objectName) call.op).2, now⟩ := by
    refine ⟨?_, issued_serve call⟩
    rw [← hleg]
    rfl
  generalize net.serve now call = net' at hrow hn ⊢
  rw [← hrow] at hserved
  generalize (exec now (net.ledgers leg.objectName) call.op).2 = reply at hserved hn
  have hbefore : (net.ledgers leg.objectName).reservations.find? leg.reservationId =
      net.row leg := rfl
  rw [hbefore] at hserved
  generalize hr : net.row leg = before at hserved
  generalize hr' : net'.row leg = after at hserved
  cases hserved with
  | refused notAllowed notAcknowledged notSettled =>
    refine facts_row h ht (.inl (hr'.trans hr.symm)) hn.issued hn.kept fun a ha => ?_
    rcases hn.cases a ha with rfl | ha
    · exact .inr ⟨notAllowed, notAcknowledged, notSettled⟩
    · exact .inl ha
  | admitted => exact facts_admitted h h0 ht hn (hreserve rfl) hr hr'
  | replayed confirmed => exact facts_replayed h ht hn hr hr' confirmed
  | dispatched pending leased => exact facts_dispatched h ht hn hr hr' pending leased
  | settled nonneg agrees free => exact facts_settled h ht hn hr hr' agrees

/-- **A ledger serves any call.** -/
theorem facts_serve {call : LedgerCall} (h : LegFacts t₀ t net leg) (h0 : t₀ ≤ t)
    (ht : t ≤ now) (hid : call.leg.reservationId = leg.reservationId → call.leg = leg)
    (hreserve : call = .reserve leg → now ≤ t₀ + chargeRetentionMs) :
    LegFacts t₀ now (net.serve now call) leg := by
  by_cases e : call.leg.reservationId = leg.reservationId
  · exact facts_serve_own h h0 ht (hid e) hreserve
  · refine facts_row h ht (row_unaddressed (addresses_op e)) (issued_serve call)
      (fun a ha => List.mem_cons_of_mem _ ha) fun a ha => ?_
    rcases List.mem_cons.mp ha with rfl | ha
    · exact .inr (answer_of_other e)
    · exact .inl ha

theorem facts_fresh {ledgers : String → Ledger} (calls : List LedgerCall)
    (h : (ledgers leg.objectName).reservations.find? leg.reservationId = none) :
    LegFacts t₀ t₀ ⟨ledgers, calls, []⟩ leg := by
  have hnone : (⟨ledgers, calls, []⟩ : Network).row leg = none := h
  refine ⟨fun r e => ?_, fun r e => ?_, fun _ ha => absurd ha List.not_mem_nil,
    fun _ _ ha => absurd ha List.not_mem_nil, fun r e => ?_⟩
  all_goals
    rw [hnone] at e
    cases e

theorem issued_send {calls : List LedgerCall} {call : LedgerCall} :
    (net.send calls).Issued call ↔ call ∈ calls ∨ net.Issued call := by
  show (call ∈ calls ++ net.inFlight ∨ _) ↔ _
  rw [List.mem_append, or_assoc]
  rfl

theorem issued_of_serve {call c : LedgerCall} (hcall : call ∈ net.inFlight)
    (h : (net.serve now call).Issued c) : net.Issued c := by
  rcases h with h | ⟨a, ha, e⟩
  · exact .inl (List.mem_of_mem_erase h)
  · rcases List.mem_cons.mp ha with rfl | ha
    · exact .inl (e ▸ hcall)
    · exact .inr ⟨a, ha, e⟩

theorem settle_answered {l : Ledger} {id : String} {actual : Int}
    (found : l.reservations.find? id = some r) (valid : isSafeInteger (some actual) = true)
    (nonneg : 0 ≤ actual) (agrees : r.settled = .final → r.reservedMicros = actual)
    (free : r.dispatchStarted = false → actual = 0) :
    ∃ spent, (exec now l (.settle ⟨id, some actual⟩)).2 = .settled actual spent := by
  have hinvalid : ¬ (isSafeInteger (some actual) = false ∨ actual < 0) := by
    rw [valid]
    rintro (e | e)
    · cases e
    · omega
  have hconflict : ¬ ((r.settled = .final ∧ r.reservedMicros ≠ actual) ∨
    (r.dispatchStarted = false ∧ actual ≠ 0)) := by
    rintro (⟨hf, hne⟩ | ⟨hd, hne⟩)
    · exact hne (agrees hf)
    · exact hne (free hd)
  show ∃ spent, (settle ⟨id, some actual⟩ l).2 = .settled actual spent
  unfold settle
  rw [found]
  dsimp only
  rw [if_neg hinvalid, if_neg hconflict]
  exact ⟨_, rfl⟩

theorem contribution_of_none (h : net.row leg = none) : net.contribution leg = 0 := by
  have h : (net.ledgers leg.objectName).reservations.find? leg.reservationId = none := h
  unfold Network.contribution Budget.contribution Table.shareOf
  rw [h]

theorem contribution_of_row (h : net.row leg = some r)
    (hrow : LegRow net leg r) : net.contribution leg = r.reservedMicros := by
  have h : (net.ledgers leg.objectName).reservations.find? leg.reservationId = some r := h
  unfold Network.contribution
  rw [contribution_of_find? h, if_pos]
  unfold counted
  rw [hrow.window, hrow.scope]
  simp

end Facts

end ClawRouter.Charging
