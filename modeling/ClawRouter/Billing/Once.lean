/-
  Subject:   Usage events and soft charges are applied exactly once.

  * **`applied_once`**: all of it, over every run.
-/
import ClawRouter.Billing.System

namespace ClawRouter.Billing

open Keyed Timed Budget Report

variable {toLowerCase : String → String} {chargeId : String → Prop}

/-! ## 1. One step, seen from one ledger -/

variable {label : Label}

theorem Label.Serves.unique {m m' : QueueMessage} {r r' : Option Response}
    (h : label.Serves m r) (h' : label.Serves m' r') : m = m' ∧ r = r' := by
  obtain ⟨_, h⟩ := h
  obtain ⟨_, h'⟩ := h'
  rw [h] at h'
  cases h'
  exact ⟨rfl, rfl⟩

/-- What a delivery does. -/
inductive Does (toLowerCase : String → String) (chargeId : String → Prop) (now : Int) (w : World)
    (label : Label)
    (w' : World) : Prop
  | serves {message : QueueMessage} {response : Option Response} {w₁ : World}
      (serves : label.Serves message response) (serve : Serve toLowerCase now w message response w₁)
      (budgets : w'.budgets = w₁.budgets) (usage : w'.usage = w₁.usage)
  | budget {objectName : String} {op : Op} (silent : ∀ m r, ¬label.Serves m r) (foreign : Foreign chargeId op)
      (budgets : w'.budgets = Function.update w.budgets objectName (exec now (w.budgets objectName) op).1)
      (usage : w'.usage = w.usage)
  | usage {shard : String} {after : ReportDb} (silent : ∀ m r, ¬label.Serves m r)
      (step : UsageStep toLowerCase now (w.usage shard) after) (budgets : w'.budgets = w.budgets)
      (usage : w'.usage = Function.update w.usage shard after)
  | nothing (silent : ∀ m r, ¬label.Serves m r) (budgets : w'.budgets = w.budgets)
    (usage : w'.usage = w.usage)

variable {message : QueueMessage} {now t' : Int} {w w' : World}

theorem Arrives.does {w₁ : World} {fate : Fate}
    (h : Arrives toLowerCase now w message fate w₁) (hlabel : label.called = some (message, fate))
    (hbudgets : w'.budgets = w₁.budgets) (husage : w'.usage = w₁.usage) :
    Does toLowerCase chargeId now w label w' := by
  cases h with
  | lost =>
    refine .nothing ?_ hbudgets husage
    rintro m r ⟨arrives, hserves⟩
    rw [hlabel] at hserves
    cases hserves
  | served serve => exact .serves ⟨_, hlabel⟩ serve hbudgets husage

theorem Step.does (h : Step toLowerCase chargeId now w label w') :
    Does toLowerCase chargeId now w label w' := by
  cases h with
  | start | send => exact .nothing (fun m r ⟨_, h⟩ => by cases h) rfl rfl
  | call _ _ arrives | consume _ arrives | acknowledged _ arrives _ => exact arrives.does rfl rfl rfl
  | other serve => exact .serves ⟨_, rfl⟩ serve rfl rfl
  | budget foreign => exact .budget (fun m r ⟨_, h⟩ => by cases h) foreign rfl rfl
  | usage step => exact .usage (fun m r ⟨_, h⟩ => by cases h) step rfl rfl

/-- At a usage ledger: it is given an event, or it forgets rows at most. -/
inductive AtUsage (toLowerCase : String → String) (now : Int) (db : ReportDb) (shard : String)
    (label : Label) :
    ReportDb → Prop
  | ingested {message : UsageMessage} {row : EventRow} (event : row.toUsageEvent = message.event)
      (address : message.shard = shard)
      (serves : label.Serves (.usage message)
        (ingestResponse message.event.id (db.ingest toLowerCase row now).2)) :
      AtUsage toLowerCase now db shard label (db.ingest toLowerCase row now).1
  | kept {after : ReportDb} (kept : Kept now db after) (elsewhere : ∀ message outcome, message.shard = shard →
      ¬label.Serves (.usage message) (ingestResponse message.event.id (some outcome))) :
      AtUsage toLowerCase now db shard label after

/-- At a budget ledger: it is asked for a charge, or for something else, or for nothing. -/
inductive AtBudget (chargeId : String → Prop) (now : Int) (l : Ledger) (objectName : String) (label : Label) :
    Ledger → Prop
  | asked {request : BudgetChargeRequest}
      (serves : label.Serves (.budgetCharge objectName request)
        (some (replyResponse (exec now l (.charge request)).2))) :
      AtBudget chargeId now l objectName label (exec now l (.charge request)).1
  | foreign {op : Op} (foreign : Foreign chargeId op)
    (elsewhere : ∀ request, ¬label.Asks objectName request) :
      AtBudget chargeId now l objectName label (exec now l op).1
  | idle (elsewhere : ∀ request, ¬label.Asks objectName request) : AtBudget chargeId now l objectName label l

theorem ingestResponse_ne_invalid (id : String) (outcome : Option UsageIngestOutcome) :
    ingestResponse id outcome ≠ some invalidUsageEvent := by
  cases outcome with
  | none => exact nofun
  | some outcome =>
    intro h
    have hstatus := congrArg Response.status (Option.some.inj h)
    exact absurd hstatus (show (200 : Nat) ≠ 400 by decide)

theorem usage_at (h : Step toLowerCase chargeId now w label w')
    (shard : String) : AtUsage toLowerCase now (w.usage shard) shard label (w'.usage shard) := by
  cases h.does with
  | serves hserves serve budgets usage =>
    rw [usage]
    cases serve with
    | @ingested message row event valid =>
      dsimp only
      by_cases e : message.shard = shard
      · subst e
        rw [Function.update_self]
        exact .ingested event rfl hserves
      · rw [Function.update_of_ne (Ne.symm e)]
        refine .kept (.same rfl) fun message' outcome address h' => ?_
        cases (h'.unique hserves).1
        exact e address
    | invalid =>
      refine .kept (.same rfl) fun message' outcome _ h' => ?_
      exact ingestResponse_ne_invalid _ _ (h'.unique hserves).2
    | charged | settled =>
      refine .kept (.same rfl) fun message' outcome _ h' => ?_
      cases (h'.unique hserves).1
  | budget silent _ _ usage | nothing silent _ usage =>
    rw [usage]
    exact .kept (.same rfl) fun _ _ _ => silent _ _
  | @usage shard' after silent step _ usage =>
    rw [usage]
    by_cases e : shard' = shard
    · subst e
      rw [Function.update_self]
      exact .kept step.kept fun _ _ _ => silent _ _
    · rw [Function.update_of_ne (Ne.symm e)]
      exact .kept (.same rfl) fun _ _ _ => silent _ _

theorem budget_at (h : Step toLowerCase chargeId now w label w') (objectName : String) :
    AtBudget chargeId now (w.budgets objectName) objectName label (w'.budgets objectName) := by
  cases h.does with
  | serves hserves serve budgets usage =>
    rw [budgets]
    cases serve with
    | ingested | invalid =>
      refine .idle ?_
      rintro request ⟨_, h'⟩
      cases (h'.unique hserves).1
    | @charged objectName' request =>
      dsimp only
      by_cases e : objectName' = objectName
      · subst e
        rw [Function.update_self]
        exact .asked hserves
      · rw [Function.update_of_ne (Ne.symm e)]
        refine .idle ?_
        rintro request ⟨_, h'⟩
        cases (h'.unique hserves).1
        exact e rfl
    | @settled ledger request =>
      have helsewhere : ∀ request, ¬label.Asks objectName request := by
        rintro request ⟨_, h'⟩
        cases (h'.unique hserves).1
      dsimp only
      by_cases e : ledger.objectName = objectName
      · subst e
        rw [Function.update_self]
        exact @AtBudget.foreign _ _ _ _ _ (.settle request) trivial helsewhere
      · rw [Function.update_of_ne (Ne.symm e)]
        exact .idle helsewhere
  | @budget objectName' op silent foreign budgets _ =>
    rw [budgets]
    have helsewhere : ∀ request, ¬label.Asks objectName request := fun request ⟨_, h'⟩ => silent _ _ h'
    by_cases e : objectName' = objectName
    · subst e
      rw [Function.update_self]
      exact .foreign foreign helsewhere
    · rw [Function.update_of_ne (Ne.symm e)]
      exact .idle helsewhere
  | usage silent _ budgets _ | nothing silent budgets _ =>
    rw [budgets]
    exact .idle fun request ⟨_, h'⟩ => silent _ _ h'

/-! ## 2. Usage events -/

/-- The rows of a usage ledger are events that it stored; each event that it stored is there or past its
retention, and it stored none twice. -/
structure UsageOnce (tr : List (Int × Label)) (t : Int) (shard : String) (db : ReportDb) : Prop where
  arrived : ∀ row ∈ db.events.rows, ∃ x ∈ tr, x.2.Stores shard row.toUsageEvent
  stored : ∀ x ∈ tr, ∀ event, x.2.Stores shard event →
    (∃ row ∈ db.events.rows, row.toUsageEvent = event) ∨
      (Past t event ∧ ∀ row ∈ db.events.rows, row.toUsageEvent ≠ event)
  once : tr.Pairwise fun x y => ∀ event, x.2.Stores shard event → ¬y.2.Stores shard event

variable {id objectName : String}

theorem outcome_inj {outcome : Option UsageIngestOutcome} {told : UsageIngestOutcome}
    (h : ingestResponse id (some told) = ingestResponse id outcome) : outcome = some told := by
  cases outcome with
  | none => cases h
  | some outcome =>
    have hbody := congrArg Response.body (Option.some.inj h)
    have hmembers := Js.Json.obj.inj (Option.some.inj hbody)
    have hname : outcomeName told = outcomeName outcome := by
      have hrest := (List.cons.inj (List.cons.inj hmembers).2).1
      exact Js.Json.str.inj (Prod.mk.inj hrest).2
    cases outcome <;> cases told <;> first | rfl | exact absurd hname (by decide)

section Usage

variable {tr : List (Int × Label)} {t t' : Int} {shard : String} {db after : ReportDb} {label : Label}

section

variable (h : UsageOnce tr t shard db)
include h

theorem UsageOnce.still (ht : t ≤ t') {x : Int × Label} (hx : x ∈ tr)
    {event : UsageEvent} (hstores : x.2.Stores shard event)
    (hkept : ∀ row ∈ db.events.rows, row ∈ after.events.rows ∨ Past t' row.toUsageEvent) :
    (∃ row ∈ after.events.rows, row.toUsageEvent = event) ∨
      (Past t' event ∧ ∀ row ∈ after.events.rows, row.toUsageEvent ≠ event) := by
  by_cases hthere : ∃ row ∈ after.events.rows, row.toUsageEvent = event
  · exact .inl hthere
  · refine .inr ⟨?_, fun row hrow e => hthere ⟨row, hrow, e⟩⟩
    obtain ⟨row, hrow, rfl⟩ | ⟨hpast, _⟩ := h.stored x hx event hstores
    · rcases hkept row hrow with hrow | hpast
      · exact absurd ⟨row, hrow, rfl⟩ hthere
      · exact hpast
    · exact hpast.mono ht

theorem UsageOnce.quiet (ht : t ≤ t') (hkept : Kept t' db after)
    (hno : ∀ event, ¬label.Stores shard event) : UsageOnce (tr ++ [(t', label)]) t' shard after where
  arrived := fun row hrow => by
    obtain ⟨x, hx, hstores⟩ := h.arrived row (hkept.old row hrow)
    exact ⟨x, List.mem_append_left _ hx, hstores⟩
  stored := fun x hx event hstores => by
    rcases List.mem_append.mp hx with hx | hx
    · exact h.still ht hx hstores hkept.kept
    · cases List.mem_singleton.mp hx
      exact absurd hstores (hno event)
  once := List.pairwise_append.mpr ⟨h.once, List.pairwise_singleton _ _, fun x _ y hy event _ => by
    cases List.mem_singleton.mp hy
    exact hno event⟩

theorem UsageOnce.store {mid : ReportDb} {message : UsageMessage} {row : EventRow}
    (ht : t ≤ t') (hevent : row.toUsageEvent = message.event) (haddress : message.shard = shard)
    (hserves : label.Serves (.usage message) (ingestResponse message.event.id (some .stored)))
    (hkept : Kept t' db mid) (hfree : ∀ r ∈ mid.events.rows, r.id ≠ row.id)
    (hcurrent : ¬Past t' row.toUsageEvent) (hrows : ∀ r, r ∈ after.events.rows ↔ r = row ∨
      r ∈ mid.events.rows) :
    UsageOnce (tr ++ [(t', label)]) t' shard after := by
  have hnew : ∀ event, label.Stores shard event → event = row.toUsageEvent := by
    rintro event ⟨message', hserves', _, rfl⟩
    cases (hserves'.unique hserves).1
    exact hevent.symm
  have hold : ∀ r ∈ db.events.rows, r ∈ after.events.rows ∨ Past t' r.toUsageEvent := fun r hr =>
    (hkept.kept r hr).imp (fun hmid => (hrows r).mpr (.inr hmid)) id
  refine ⟨fun r hr => ?_, fun x hx event hstores => ?_, ?_⟩
  · rcases (hrows r).mp hr with rfl | hr
    · refine ⟨(t', label), List.mem_append_right _ (List.mem_singleton_self _), message, ?_,
        haddress, hevent.symm⟩
      rw [hevent]
      exact hserves
    · obtain ⟨x, hx, hstores⟩ := h.arrived r (hkept.old r hr)
      exact ⟨x, List.mem_append_left _ hx, hstores⟩
  · rcases List.mem_append.mp hx with hx | hx
    · exact h.still ht hx hstores hold
    · cases List.mem_singleton.mp hx
      exact .inl ⟨row, (hrows row).mpr (.inl rfl), (hnew event hstores).symm⟩
  · refine List.pairwise_append.mpr ⟨h.once, List.pairwise_singleton _ _, fun x hx y hy event hx' hy' => ?_⟩
    cases List.mem_singleton.mp hy
    -- stored before, it would hold the id still or be past its retention
    obtain rfl := hnew event hy'
    obtain ⟨r, hr, he⟩ | ⟨hpast, _⟩ := h.stored x hx _ hx'
    · rcases hkept.kept r hr with hmid | hpast
      · exact hfree r hmid (congrArg UsageEvent.id he)
      · rw [he] at hpast
        exact hcurrent hpast
    · exact hcurrent (hpast.mono ht)

theorem usageOnce_step (ht : t ≤ t')
    (hat : AtUsage toLowerCase t' db shard label after) : UsageOnce (tr ++ [(t', label)]) t' shard after := by
  cases hat with
  | kept kept elsewhere =>
    refine h.quiet ht kept ?_
    rintro event ⟨message, hserves, haddress, rfl⟩
    exact elsewhere message .stored haddress hserves
  | @ingested message row hevent haddress hserves =>
    have hspec := @ingest_spec toLowerCase t' db row
    generalize houtcome : (db.ingest toLowerCase row t').2 = outcome at hspec hserves
    have hno : outcome ≠ some .stored → ∀ event, ¬label.Stores shard event := by
      rintro hne event ⟨message', hserves', _, rfl⟩
      obtain ⟨e, e'⟩ := hserves'.unique hserves
      cases e
      exact hne (outcome_inj e')
    cases hspec with
    | threw kept | duplicate kept | expired kept => exact h.quiet ht kept (hno nofun)
    | stored kept free current rows => exact h.store ht hevent haddress hserves kept free current rows

end

/-- **What an arrival is answered**, and why. -/
inductive Arrival (now : Int) (db : ReportDb) (event : UsageEvent) (after : ReportDb) :
    UsageIngestOutcome → Prop
  | duplicate {row : EventRow} (held : row ∈ db.events.rows) (id : row.id = event.id)
      (kept : Kept now db after) : Arrival now db event after .duplicate
  | expired (past : Past now event) (kept : Kept now db after) : Arrival now db event after
    .expiredByRetention
  | stored (current : ¬Past now event) (free : ∀ row ∈ db.events.rows, row.id = event.id →
    Past now row.toUsageEvent)
      (there : ∃ row ∈ after.events.rows, row.toUsageEvent = event) : Arrival now db event after .stored

theorem arrival {message : UsageMessage} {outcome : UsageIngestOutcome}
    (h : Step toLowerCase chargeId now w label w')
    (hserves : label.Serves (.usage message) (ingestResponse message.event.id (some outcome))) :
    Arrival now (w.usage message.shard) message.event (w'.usage message.shard) outcome := by
  have hat := usage_at h message.shard
  generalize w'.usage message.shard = after at hat ⊢
  generalize w.usage message.shard = db at hat ⊢
  cases hat with
  | kept _ elsewhere => exact absurd hserves (elsewhere message outcome rfl)
  | @ingested message' row hevent _ hserves' =>
    obtain ⟨e, e'⟩ := hserves.unique hserves'
    cases e
    have houtcome := outcome_inj e'
    have hspec := @ingest_spec toLowerCase now db row
    rw [houtcome] at hspec
    rw [← hevent]
    cases hspec with
    | duplicate kept held id => exact .duplicate (kept.old _ held) id kept
    | expired kept past => exact .expired past kept
    | stored kept free current rows =>
      refine .stored current (fun r hr e => ?_) ⟨row, (rows row).mpr (.inl rfl), rfl⟩
      rcases kept.kept r hr with hmid | hpast
      · exact absurd e (free r hmid)
      · exact hpast

end Usage

/-! ## 3. Charges -/

/-- No charge arrives later than the retention of the row that it is about. -/
def InTime (tr : List (Int × Label)) (objectName id : String) : Prop :=
  ∀ x ∈ tr, ∀ y ∈ tr, ∀ p q, x.2.Charges objectName p → y.2.Asks objectName q → p.chargeId = id →
    q.chargeId = id → y.1 ≤ x.1 + chargeRetentionMs

/-- The charges a ledger confirmed under an id, and the row there: none and none; or they are all the first of
them, and the row is the one it wrote, until its retention is over. -/
inductive ChargedOnce (tr : List (Int × Label)) (t : Int) (objectName id : String) (l : Ledger) : Prop
  | never (unheard : ∀ x ∈ tr, ∀ request, x.2.Charges objectName request → request.chargeId ≠ id)
      (absent : l.reservations.find? id = none)
  | once {request : BudgetChargeRequest} {amount t₀ : Int} (chargeId : request.chargeId = id)
      (amountMicros : request.amountMicros = some amount) (began : t₀ ≤ t)
      (first : ∃ x ∈ tr, x.1 = t₀ ∧ x.2.Charges objectName request)
      (all : ∀ x ∈ tr, ∀ other, x.2.Charges objectName other → other.chargeId = id →
        t₀ ≤ x.1 ∧ Receipt other (request.row amount t₀))
      (row : l.reservations.find? id = some (request.row amount t₀) ∨
        l.reservations.find? id = none ∧ t₀ + chargeRetentionMs < t)

variable {request : BudgetChargeRequest}

theorem Label.Charges.asks (h : label.Charges objectName request) : label.Asks objectName request := ⟨_, h⟩

theorem charged_reply {other : BudgetChargeRequest}
    {reply : LedgerReply} (hserves : label.Serves (.budgetCharge objectName request)
      (some (replyResponse reply)))
    (h : label.Charges objectName other) : other = request ∧ reply = .charged request.chargeId := by
  obtain ⟨e, e'⟩ := Label.Serves.unique h hserves
  cases e
  refine ⟨rfl, chargeLedger_reply ?_⟩
  rw [← e']
  unfold chargeLedger replyResponse
  have htext : isText request.chargeId (some (.str request.chargeId)) = true := beq_self_eq_true _
  simp [json, Response.ok, Js.Json.get?, List.lookup_cons, isTrue, htext]

section Charges

variable {tr : List (Int × Label)} {t t' : Int} {objectName id : String} {l l' : Ledger} {label : Label}

theorem ChargedOnce.quiet (h : ChargedOnce tr t objectName id l) (ht : t ≤ t')
    (hno : ∀ request, label.Charges objectName request → request.chargeId ≠ id)
    (habsent : l.reservations.find? id = none → l'.reservations.find? id = none)
    (hrow : ∀ r, l.reservations.find? id = some r → r.settled = .final → l'.reservations.find? id = some r ∨
        l'.reservations.find? id = none ∧ r.createdAtMs + chargeRetentionMs < t') :
    ChargedOnce (tr ++ [(t', label)]) t' objectName id l' := by
  cases h with
  | never unheard absent =>
    refine .never (fun x hx => ?_) (habsent absent)
    rcases List.mem_append.mp hx with hx | hx
    · exact unheard x hx
    · cases List.mem_singleton.mp hx
      exact hno
  | once chargeId amountMicros began first all row =>
    obtain ⟨x, hx, hx'⟩ := first
    refine .once chargeId amountMicros (began.trans ht) ⟨x, List.mem_append_left _ hx, hx'⟩
      (fun y hy other hcharges e => ?_) ?_
    · rcases List.mem_append.mp hy with hy | hy
      · exact all y hy other hcharges e
      · cases List.mem_singleton.mp hy
        exact absurd e (hno other hcharges)
    · rcases row with hheld | ⟨hnone, hlate⟩
      · exact hrow _ hheld rfl
      · exact .inr ⟨habsent hnone, Int.lt_of_lt_of_le hlate ht⟩

theorem absent_foreign {op : Op} (hid : chargeId id) (hforeign : Foreign chargeId op)
    (habsent : l.reservations.find? id = none) : (exec now l op).1.reservations.find? id = none := by
  rcases absent_step (step_exec op) habsent with ⟨hnone, -⟩ | ⟨fits, request, reply, e, hreserve, -⟩ |
    ⟨request, amount, reply, e, -⟩
  · exact hnone
  · obtain rfl := (Prod.mk.inj e).1
    rw [← hreserve] at hid
    exact absurd hid hforeign
  · obtain rfl := (Prod.mk.inj e).1
    exact hforeign.elim

theorem absent_charge (hne : request.chargeId ≠ id) (habsent : l.reservations.find? id = none) :
    (exec now l (.charge request)).1.reservations.find? id = none := by
  rcases absent_step (step_exec (.charge request)) habsent with ⟨hnone, -⟩ | ⟨fits, other, reply, e, -⟩ |
    ⟨other, amount, reply, e, hcharge, -⟩
  · exact hnone
  · cases (Prod.mk.inj e).1
  · cases (Prod.mk.inj e).1
    exact absurd hcharge hne

theorem chargedOnce_step (hid : chargeId id) (h : ChargedOnce tr t objectName id l) (ht : t ≤ t')
    (hintime : InTime (tr ++ [(t', label)]) objectName id)
      (hat : AtBudget chargeId t' l objectName label l') :
    ChargedOnce (tr ++ [(t', label)]) t' objectName id l' := by
  cases hat with
  | idle elsewhere =>
    exact h.quiet ht (fun request hcharges => absurd hcharges.asks (elsewhere request))
      (fun hnone => hnone) fun r hr _ => .inl hr
  | foreign foreign elsewhere =>
    exact h.quiet ht (fun request hcharges => absurd hcharges.asks (elsewhere request))
      (absent_foreign hid foreign) fun r hr hfinal => receipt_step (step_exec _) hr hfinal
  | @asked request serves =>
    by_cases e : request.chargeId = id
    · subst e
      have hasks : label.Asks objectName request := ⟨_, serves⟩
      cases h with
      | never unheard absent =>
        rcases @charge_absent t' l request absent with ⟨hsame, hrejected⟩ | ⟨amount, hamount, hwritten⟩
        · refine .never (fun x hx other hcharges => ?_) ?_
          · rcases List.mem_append.mp hx with hx | hx
            · exact unheard x hx other hcharges
            · cases List.mem_singleton.mp hx
              have hreply := (charged_reply serves hcharges).2
              rw [show (exec t' l (.charge request)).2 = (charge t' request l).2 from rfl] at hreply
              rw [hreply] at hrejected
              cases hrejected
          · rw [show (exec t' l (.charge request)).1 = (charge t' request l).1 from rfl, hsame]
            exact absent
        · have hcharges : label.Charges objectName request := by
            have hreply : (exec t' l (.charge request)).2 = .charged request.chargeId :=
              congrArg Prod.snd hwritten
            rw [hreply] at serves
            exact serves
          refine .once rfl hamount (Int.le_refl _)
            ⟨_, List.mem_append_right _ (List.mem_singleton_self _), rfl, hcharges⟩
            (fun y hy other hother e => ?_) (.inl ?_)
          · rcases List.mem_append.mp hy with hy | hy
            · exact absurd e (unheard y hy other hother)
            · cases List.mem_singleton.mp hy
              rw [(charged_reply serves hother).1]
              exact ⟨Int.le_refl _, receipt_row amount hamount⟩
          · rw [show (exec t' l (.charge request)).1 = (charge t' request l).1 from rfl, hwritten,
              find?_add absent]
            exact if_pos rfl
      | @once p amount t₀ chargeId amountMicros began first all row =>
        obtain ⟨x, hx, hx', hfirst⟩ := first
        rcases row with hheld | ⟨_, hlate⟩
        · obtain ⟨hsame, hreceipt, _⟩ := @charge_found t' l request _ hheld
          refine .once chargeId amountMicros (began.trans ht) ⟨x, List.mem_append_left _ hx, hx', hfirst⟩
            (fun y hy other hother e => ?_) (.inl ?_)
          · rcases List.mem_append.mp hy with hy | hy
            · exact all y hy other hother e
            · cases List.mem_singleton.mp hy
              obtain ⟨rfl, hreply⟩ := charged_reply serves hother
              exact ⟨began.trans ht, hreceipt hreply⟩
          · rw [show (exec t' l (.charge request)).1 = (charge t' request l).1 from rfl, hsame]
            exact hheld
        · -- the row is forgotten, and the charge arrives too late
          have hin := hintime x (List.mem_append_left _ hx) (t', label)
            (List.mem_append_right _ (List.mem_singleton_self _)) p request hfirst hasks chargeId rfl
          omega
    · refine h.quiet ht (fun other hcharges => ?_) (absent_charge e) fun r hr hfinal =>
        receipt_step (step_exec _) hr hfinal
      rw [(charged_reply serves hcharges).1]
      exact e

theorem charge_contribution {amount t₀ : Int}
    (h : l.reservations.find? id = some (request.row amount t₀)) (windowKey : String)
      (scopeKey : Option String) :
    contribution l id windowKey scopeKey =
      if request.windowKey = windowKey ∧ (scopeKey = none ∨ scopeKey = some request.scopeKey) then
        amount else 0 := by
  rw [contribution_of_find? h]
  have hcounted : counted windowKey scopeKey (request.row amount t₀) = true ↔
      request.windowKey = windowKey ∧ (scopeKey = none ∨ scopeKey = some request.scopeKey) := by
    unfold counted
    cases scopeKey with
    | none => simp [BudgetChargeRequest.row]
    | some scope =>
      simp [BudgetChargeRequest.row]
      exact fun _ => eq_comm
  by_cases hc : counted windowKey scopeKey (request.row amount t₀) = true
  · rw [if_pos hc, if_pos (hcounted.mp hc)]
    rfl
  · rw [if_neg hc, if_neg fun hw => hc (hcounted.mpr hw)]

end Charges

/-! ## 4. The queue and the requests -/

theorem ack_iff {answer : Option Response} :
    Billing.queue message answer = .ack ↔ message.confirmed answer = true := by
  unfold Billing.queue
  cases message.confirmed answer <;> simp

theorem Label.Acknowledges.confirms (h : label.Acknowledges message) : label.Confirms message := by
  obtain ⟨fate, rfl, hack⟩ := h
  exact ⟨fate, rfl, ack_iff.mp hack⟩

theorem serve_names {response : Response}
    (h : Serve toLowerCase now w message (some response) w')
      (hconfirmed : message.confirmed (some response) = true) :
    Names message response := by
  generalize hresponse : some response = answer at h
  cases h with
  | @ingested message row _ _ =>
    generalize ((w.usage message.shard).ingest toLowerCase row now).2 = outcome at hresponse
    cases outcome with
    | none => cases hresponse
    | some outcome => exact .usage hresponse.symm
  | invalid =>
    cases hresponse
    cases hconfirmed
  | charged =>
    cases hresponse
    rw [chargeLedger_reply hconfirmed]
    exact .charge
  | settled =>
    cases hresponse
    obtain ⟨charged, spent, hreply⟩ := settleLedger_reply hconfirmed
    rw [hreply]
    exact .settlement

theorem confirmed_none (message : QueueMessage) : message.confirmed none = false := by
  cases message <;> rfl

theorem acknowledges_names (h : Step toLowerCase chargeId now w label w')
    (hack : label.Acknowledges message) :
    ∃ response, label.Serves message (some response) ∧ Names message response := by
  obtain ⟨fate, rfl, hack⟩ := hack
  have hconfirmed := ack_iff.mp hack
  have harrives : ∃ w₁, Arrives toLowerCase now w message fate w₁ := by
    cases h with
    | consume _ arrives | acknowledged _ arrives _ => exact ⟨_, arrives⟩
  obtain ⟨w₁, harrives⟩ := harrives
  cases harrives with
  | lost =>
    rw [Fate.answer, confirmed_none] at hconfirmed
    cases hconfirmed
  | @served response arrives _ serve =>
    cases arrives with
    | false =>
      rw [show Fate.answer (.served response false) = none from rfl, confirmed_none] at hconfirmed
      cases hconfirmed
    | true =>
      cases response with
      | none =>
        rw [show Fate.answer (.served none true) = none from rfl, confirmed_none] at hconfirmed
        cases hconfirmed
      | some response => exact ⟨response, ⟨true, rfl⟩, serve_names serve hconfirmed⟩

theorem Serve.queue {response : Option Response} (h : Serve toLowerCase now w message response w') :
    w'.queue = w.queue ∧ w'.finalizations = w.finalizations := by
  cases h <;> exact ⟨rfl, rfl⟩

theorem Arrives.queue {fate : Fate} (h : Arrives toLowerCase now w message fate w') :
    w'.queue = w.queue ∧ w'.finalizations = w.finalizations := by
  cases h with
  | lost => exact ⟨rfl, rfl⟩
  | served serve => exact serve.queue

theorem held_step (h : Step toLowerCase chargeId now w label w') (hheld : message ∈ w.queue) :
    message ∈ w'.queue ∨ label.Acknowledges message := by
  cases h with
  | start | budget | usage => exact .inl hheld
  | call _ _ arrives =>
    refine .inl ?_
    rw [arrives.queue.1]
    exact hheld
  | @send _ _ _ _ _ accepted =>
    refine .inl ?_
    cases accepted with
    | false => exact hheld
    | true => exact List.mem_cons_of_mem _ hheld
  | consume _ arrives =>
    rw [arrives.queue.1]
    exact .inl hheld
  | other serve =>
    rw [serve.queue.1]
    exact .inl hheld
  | @acknowledged before after message' fate _ held arrives ack =>
    rw [held] at hheld
    rcases List.mem_append.mp hheld with hmem | hmem
    · exact .inl (List.mem_append_left _ hmem)
    · rcases List.mem_cons.mp hmem with rfl | hmem
      · exact .inr ⟨fate, rfl, ack⟩
      · exact .inl (List.mem_append_right _ hmem)

/-- A message was brought on its way: the queue holds it, or a call with it returned. -/
def Delivered (tr : List (Int × Label)) (w : World) (message : QueueMessage) : Prop :=
  message ∈ w.queue ∨ ∃ x ∈ tr, x.2.Confirms message

variable {tr : List (Int × Label)}

theorem delivered_step (h : Step toLowerCase chargeId t' w label w') (hd : Delivered tr w message) :
    Delivered (tr ++ [(t', label)]) w' message := by
  rcases hd with hheld | ⟨x, hx, hconfirms⟩
  · rcases held_step h hheld with hheld | hack
    · exact .inl hheld
    · exact .inr ⟨_, List.mem_append_right _ (List.mem_singleton_self _), hack.confirms⟩
  · exact .inr ⟨x, List.mem_append_left _ hx, hconfirms⟩

/-- The calls of `finalizeAccounting`: each has the messages of its request, and those that are fulfilled are
delivered. -/
structure Finalizing (tr : List (Int × Label)) (w : World) : Prop where
  messages : ∀ f ∈ w.finalizations, ∃ reservation actualCostMicros event,
    f.map Attempt.message = finalizeAccounting reservation actualCostMicros event
  fulfilled : ∀ f ∈ w.finalizations, ∀ attempt ∈ f, attempt.stage = .fulfilled →
    Delivered tr w attempt.message

theorem Finalizing.next
    {fs gs : List Finalization} {xs ys : List Attempt} {attempt : Attempt} {succeeded : Bool}
      (h : Finalizing tr w)
    (hs : Step toLowerCase chargeId t' w label w')
      (hplace : w.finalizations = fs ++ (xs ++ attempt :: ys) :: gs)
    (hnext : w'.finalizations = fs ++ (xs ++ attempt.next succeeded :: ys) :: gs)
    (hsucceeded : succeeded = true → Delivered (tr ++ [(t', label)]) w' attempt.message) :
    Finalizing (tr ++ [(t', label)]) w' := by
  have hold : ∀ f ∈ w.finalizations, ∀ a ∈ f, a.stage = .fulfilled →
    Delivered (tr ++ [(t', label)]) w' a.message :=
    fun f hf a ha hstage => delivered_step hs (h.fulfilled f hf a ha hstage)
  have hmine : (xs ++ attempt :: ys) ∈ w.finalizations := by
    rw [hplace]
    exact List.mem_append_right _ List.mem_cons_self
  refine ⟨fun f hf => ?_, fun f hf a ha hstage => ?_⟩
  · rw [hnext] at hf
    rcases List.mem_append.mp hf with hf | hf
    · exact h.messages f (hplace ▸ List.mem_append_left _ hf)
    · rcases List.mem_cons.mp hf with rfl | hf
      · obtain ⟨reservation, actualCostMicros, event, e⟩ := h.messages _ hmine
        exact ⟨reservation, actualCostMicros, event, by rw [← e]; simp [Attempt.next]⟩
      · exact h.messages f (hplace ▸ List.mem_append_right _ (List.mem_cons_of_mem _ hf))
  · rw [hnext] at hf
    rcases List.mem_append.mp hf with hf | hf
    · exact hold f (hplace ▸ List.mem_append_left _ hf) a ha hstage
    · rcases List.mem_cons.mp hf with rfl | hf
      · rcases List.mem_append.mp ha with ha | ha
        · exact hold _ hmine a (List.mem_append_left _ ha) hstage
        · rcases List.mem_cons.mp ha with rfl | ha
          · cases succeeded with
            | true => exact hsucceeded rfl
            | false =>
              unfold Attempt.next at hstage
              cases hfirst : attempt.stage <;> simp [hfirst] at hstage
          · exact hold _ hmine a (List.mem_append_right _ (List.mem_cons_of_mem _ ha)) hstage
      · exact hold f (hplace ▸ List.mem_append_right _ (List.mem_cons_of_mem _ hf)) a ha hstage

theorem Finalizing.keep (h : Finalizing tr w)
    (hs : Step toLowerCase chargeId t' w label w') (hsame : w'.finalizations = w.finalizations) :
    Finalizing (tr ++ [(t', label)]) w' :=
  ⟨fun f hf => h.messages f (hsame ▸ hf),
    fun f hf a ha hstage => delivered_step hs (h.fulfilled f (hsame ▸ hf) a ha hstage)⟩

theorem finalizing_step (h : Finalizing tr w)
    (hs : Step toLowerCase chargeId t' w label w') : Finalizing (tr ++ [(t', label)]) w' := by
  have hs' := hs
  cases hs with
  | @start reservation actualCostMicros event =>
    refine ⟨fun f hf => ?_, fun f hf a ha hstage => ?_⟩
    · rcases List.mem_append.mp hf with hf | hf
      · exact h.messages f hf
      · cases List.mem_singleton.mp hf
        exact ⟨reservation, actualCostMicros, event, by simp [Function.comp_def]⟩
    · rcases List.mem_append.mp hf with hf | hf
      · exact delivered_step hs' (h.fulfilled f hf a ha hstage)
      · cases List.mem_singleton.mp hf
        obtain ⟨message, -, rfl⟩ := List.mem_map.mp ha
        cases hstage
  | @call fs gs xs ys attempt fate w₁ place way arrives =>
    exact h.next hs' place rfl fun hconfirmed =>
      .inr ⟨_, List.mem_append_right _ (List.mem_singleton_self _), fate, rfl, hconfirmed⟩
  | @send fs gs xs ys attempt accepted resolved place way sound =>
    refine h.next hs' place rfl fun hresolved => .inl ?_
    rw [sound hresolved]
    exact List.mem_cons_self
  | consume _ arrives | acknowledged _ arrives _ => exact h.keep hs' arrives.queue.2
  | other serve => exact h.keep hs' serve.queue.2
  | budget | usage => exact h.keep hs' rfl

theorem returned_true {f : Finalization} (h : Finalization.returned f = some true) :
    ∀ attempt ∈ f, attempt.stage = .fulfilled := by
  unfold Finalization.returned at h
  split at h
  · have hall := List.all_eq_true.mp (Option.some.inj h)
    exact fun attempt hattempt => of_decide_eq_true (hall attempt hattempt)
  · cases h

/-! ## 5. Applied once -/

section Runs

variable {tr : List (Int × Label)} {t₀ t : Int} {w : World}

theorem usage_run (h : Run (Step toLowerCase chargeId) World.empty t₀ tr t w) (shard : String) :
    UsageOnce tr t shard (w.usage shard) := by
  refine h.invariant_along (I := fun tr t w => UsageOnce tr t shard (w.usage shard))
    ⟨fun _ hrow => (by cases hrow), fun _ hx => (by cases hx), .nil⟩ ?_
  intro tr t t' w label w' ht hinv hs
  exact usageOnce_step hinv ht (usage_at hs shard)

theorem InTime.left {x : Int × Label} (h : InTime (tr ++ [x]) objectName id) :
    InTime tr objectName id := fun y hy z hz =>
  h y (List.mem_append_left _ hy) z (List.mem_append_left _ hz)

section

variable (h : Run (Step toLowerCase chargeId) World.empty t₀ tr t w)
include h

theorem charge_run
    (hid : chargeId id) :
    InTime tr objectName id → ChargedOnce tr t objectName id (w.budgets objectName) := by
  refine h.invariant_along
    (I := fun tr t w => InTime tr objectName id → ChargedOnce tr t objectName id (w.budgets objectName))
    (fun _ => .never (fun _ hx => by cases hx) rfl) ?_
  intro tr t t' w label w' ht hinv hs hintime
  exact chargedOnce_step hid (hinv hintime.left) ht hintime (budget_at hs objectName)

theorem finalizing_run : Finalizing tr w := by
  refine h.invariant_along (I := fun tr _ w => Finalizing tr w)
    ⟨fun _ hf => (by cases hf), fun _ hf => (by cases hf)⟩ ?_
  intro tr t t' w label w' _ hinv hs
  exact finalizing_step hinv hs

theorem accepted_run : ∀ x ∈ tr, ∀ message resolved, x.2 = .send message true resolved →
      message ∈ w.queue ∨ ∃ y ∈ tr, y.2.Acknowledges message := by
  refine h.invariant_along (I := fun tr _ w => ∀ x ∈ tr, ∀ message resolved, x.2 = .send message
    true resolved →
    message ∈ w.queue ∨ ∃ y ∈ tr, y.2.Acknowledges message) (fun _ hx => by cases hx) ?_
  intro tr t t' w label w' _ hinv hs x hx message resolved hsend
  rcases List.mem_append.mp hx with hx | hx
  · rcases hinv x hx message resolved hsend with hheld | ⟨y, hy, hack⟩
    · rcases held_step hs hheld with hheld | hack
      · exact .inl hheld
      · exact .inr ⟨_, List.mem_append_right _ (List.mem_singleton_self _), hack⟩
    · exact .inr ⟨y, List.mem_append_left _ hy, hack⟩
  · cases List.mem_singleton.mp hx
    obtain rfl : label = .send message true resolved := hsend
    cases hs with
    | send => exact .inl List.mem_cons_self

theorem acknowledged_run : ∀ x ∈ tr, ∀ message, x.2.Acknowledges message →
      ∃ response, x.2.Serves message (some response) ∧ Names message response := by
  refine h.invariant_along (I := fun tr _ _ => ∀ x ∈ tr, ∀ message, x.2.Acknowledges message →
    ∃ response, x.2.Serves message (some response) ∧ Names message response) (fun _ hx => by cases hx) ?_
  intro tr t t' w label w' _ hinv hs x hx message hack
  rcases List.mem_append.mp hx with hx | hx
  · exact hinv x hx message hack
  · cases List.mem_singleton.mp hx
    exact acknowledges_names hs hack

end

theorem charge_replayed {r : Reservation} (hs : Step toLowerCase chargeId t' w label w')
    (hasks : label.Asks objectName request) (hr : (w.budgets objectName).reservations.find?
      request.chargeId = some r) :
    w'.budgets objectName = w.budgets objectName ∧
      (label.Charges objectName request → Receipt request r) := by
  have hat := budget_at hs objectName
  generalize w'.budgets objectName = l' at hat ⊢
  cases hat with
  | idle elsewhere | foreign _ elsewhere => exact absurd hasks (elsewhere request)
  | @asked other hserves =>
    obtain ⟨_, hasked⟩ := hasks
    cases (hasked.unique hserves).1
    obtain ⟨hsame, hreceipt, _⟩ := @charge_found t' (w.budgets objectName) request r hr
    exact ⟨hsame, fun hcharges => hreceipt (charged_reply hserves hcharges).2⟩

/-- **Usage events and soft charges are applied exactly once.** In every run of the system:

* a usage ledger has the events it stored, one row for an id, until their retention is over, stores
none of them
  twice, and tells of every other arrival that it is a duplicate or expired;
* the queue's consumer acknowledges a message only on a response of its ledger that names it, and
what the queue
  accepted it holds until then;
* under the id of a charge there is the row of the first one that was confirmed, all confirmed ones agree with
  it, and it contributes its amount to its window and its scope; where there is a row, a charge
  changes nothing,
  and is confirmed only if it agrees with it;
* where `finalizeAccounting` returned true, each of its messages is in the queue or was confirmed. -/
theorem applied_once (h : Run (Step toLowerCase chargeId) World.empty t₀ tr t w) :
    (∀ shard, UsageOnce tr t shard (w.usage shard)) ∧
    (∀ t' label w' message outcome, Step toLowerCase chargeId t' w label w' →
      label.Serves (.usage message) (ingestResponse message.event.id (some outcome)) →
      Arrival t' (w.usage message.shard) message.event (w'.usage message.shard) outcome) ∧
    (∀ x ∈ tr, ∀ message, x.2.Acknowledges message →
      ∃ response, x.2.Serves message (some response) ∧ Names message response) ∧
    (∀ x ∈ tr, ∀ message resolved, x.2 = .send message true resolved →
      message ∈ w.queue ∨ ∃ y ∈ tr, y.2.Acknowledges message) ∧
    (∀ objectName id, chargeId id → InTime tr objectName id → ChargedOnce tr t objectName id
      (w.budgets objectName)) ∧
    (∀ objectName request amount t₁, (w.budgets objectName).reservations.find? request.chargeId =
        some (BudgetChargeRequest.row request amount t₁) → ∀ windowKey scopeKey,
      contribution (w.budgets objectName) request.chargeId windowKey scopeKey =
        if request.windowKey = windowKey ∧ (scopeKey = none ∨ scopeKey = some request.scopeKey) then
          amount else 0) ∧
    (∀ t' label w' objectName request r, Step toLowerCase chargeId t' w label w' →
      label.Asks objectName request →
      (w.budgets objectName).reservations.find? request.chargeId = some r →
      w'.budgets objectName = w.budgets objectName ∧ (label.Charges objectName request → Receipt request r)) ∧
    ∀ f ∈ w.finalizations, (∃ reservation actualCostMicros event,
        f.map Attempt.message = finalizeAccounting reservation actualCostMicros event) ∧
      (Finalization.returned f = some true → ∀ attempt ∈ f, Delivered tr w attempt.message) := by
  have hfinalizing := finalizing_run h
  refine ⟨usage_run h, ?_, acknowledged_run h, accepted_run h, ?_, ?_, ?_, fun f hf => ?_⟩
  · exact fun t' label w' message outcome hs hserves => arrival hs hserves
  · exact fun objectName id hid => charge_run h hid
  · exact fun objectName request amount t₁ hrow => charge_contribution hrow
  · exact fun t' label w' objectName request r hs hasks hr => charge_replayed hs hasks hr
  · refine ⟨hfinalizing.messages f hf, fun hreturned attempt hattempt => ?_⟩
    exact hfinalizing.fulfilled f hf attempt hattempt (returned_true hreturned attempt hattempt)

def dailyCharge : SoftCharge where
  objectName :=
  "tenant:policy"
  chargeId := "charge:request:policy:2026-11-05"
  policyId := "policy"
  windowKey := "2026-11-05"
  scopeKey := "policy"
  capability := "llm.chat"

def requestEvent : UsageMessage where
  event :=
  ⟨"event", 1000, "tenant", "policy", "openai", "success", .obj []⟩
  policyId := "policy"

def chargeMessage : QueueMessage := .budgetCharge dailyCharge.objectName (dailyCharge.request (some 7))

/-- A request whose charge is written by a call whose answer is lost, and replayed from the queue. -/
theorem applied_once_replayed :
    ∃ tr w, Run (Step (fun text => text) (· = dailyCharge.chargeId)) World.empty 0 tr 5 w ∧
      (∃ f ∈ w.finalizations, Finalization.returned f = some true) ∧
      contribution (w.budgets dailyCharge.objectName) dailyCharge.chargeId "2026-11-05" (some "policy") = 7 ∧
      ∀ shard, UsageOnce tr 5 shard (w.usage shard) := by
  have h0 : Run (Step (fun text => text) (· = dailyCharge.chargeId)) World.empty 0 [] 0 _ := .start
  have h1 := h0.next (show (0 : Int) ≤ 1 by omega)
    (@Step.start _ _ _ _ ⟨[], some [dailyCharge]⟩ (some 7) requestEvent)
  have h2 := h1.next (show (1 : Int) ≤ 2 by omega)
    (@Step.call _ _ _ _ [] [] [] [⟨.usage requestEvent, .first⟩] ⟨chargeMessage, .first⟩
      (.served _ false) _ rfl rfl
      (.served .charged))
  have h3 := h2.next (show (2 : Int) ≤ 3 by omega)
    (@Step.send _ _ _ _ [] [] [] [⟨.usage requestEvent, .first⟩] ⟨chargeMessage, .second⟩ true true
      rfl rfl fun _ => rfl)
  have h4 := h3.next (show (3 : Int) ≤ 4 by omega)
    (@Step.send _ _ _ _ [] [] [⟨chargeMessage, .fulfilled⟩] [] ⟨.usage requestEvent, .first⟩ true true rfl rfl
      fun _ => rfl)
  have h5 := h4.next (show (4 : Int) ≤ 5 by omega)
    (@Step.acknowledged _ _ _ _ [.usage requestEvent] [] chargeMessage (.served _ true) _ rfl
      (.served .charged)
      (by decide +kernel))
  exact ⟨_, _, h5, ⟨_, List.mem_cons_self, by decide +kernel⟩, by decide +kernel, (applied_once h5).1⟩

end Runs

end ClawRouter.Billing
