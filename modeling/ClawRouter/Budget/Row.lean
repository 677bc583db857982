/-
  Subject:   One reservation of a ledger, followed through the steps of the whole ledger.

  A reservation is a row under an id; after retention the same id may be reserved again, and that
  is another reservation, told apart by its time of creation.

  * **`row_run`**: what every `RowStep` keeps holds of the reservation along a run, until a
    maintenance later than its retention deletes it.
-/
import ClawRouter.Budget.Ledger

namespace ClawRouter.Budget

open Keyed Timed

/-! ## 1. One row under one step -/

/-- The row `freeExpired` and `bindExpired` leave of a row. -/
def Reservation.expire (r : Reservation) (now : Int) : Reservation :=
  if r.settled = .pending ∧ r.createdAtMs ≤ now - reservationLeaseMs then
    if r.dispatchStarted then { r with settled := .bound }
    else { r with reservedMicros := 0, settled := .final }
  else r

def Reservation.retired (r : Reservation) (now : Int) : Bool :=
  r.settled != .pending && r.createdAtMs < now - chargeRetentionMs

def Reservation.maintain (r : Reservation) (now : Int) : Option Reservation :=
  if (r.expire now).retired now then none else some (r.expire now)

@[simp] theorem expire_createdAtMs (r : Reservation) (now : Int) :
    (r.expire now).createdAtMs = r.createdAtMs := by
  unfold Reservation.expire
  split
  · split <;> rfl
  · rfl

theorem expire_cases (r : Reservation) (now : Int) :
    (r.settled ≠ .pending ∨ r.leased now = true) ∧ r.expire now = r ∨
      r.settled = .pending ∧ r.leased now = false ∧ r.dispatchStarted = true ∧
        r.expire now = { r with settled := .bound } ∨
      r.settled = .pending ∧ r.leased now = false ∧ r.dispatchStarted = false ∧
        r.expire now = { r with reservedMicros := 0, settled := .final } := by
  have hlease : r.leased now = true ↔ ¬ r.createdAtMs ≤ now - reservationLeaseMs := by
    simp only [Reservation.leased, decide_eq_true_eq]
    omega
  unfold Reservation.expire
  by_cases hp : r.settled = .pending
  · by_cases hc : r.createdAtMs ≤ now - reservationLeaseMs
    · have hl : r.leased now = false := Bool.eq_false_iff.mpr fun h => hlease.mp h hc
      rw [if_pos ⟨hp, hc⟩]
      cases hd : r.dispatchStarted with
      | true => exact .inr (.inl ⟨hp, hl, rfl, rfl⟩)
      | false => exact .inr (.inr ⟨hp, hl, rfl, rfl⟩)
    · rw [if_neg fun h => hc h.2]
      exact .inl ⟨.inr (hlease.mpr hc), rfl⟩
  · rw [if_neg fun h => hp h.1]
    exact .inl ⟨.inl hp, rfl⟩

variable {r : Reservation} {now : Int}

theorem expire_of_settled (h : r.settled ≠ .pending) : r.expire now = r := by
  rcases expire_cases r now with ⟨-, e⟩ | ⟨hp, -⟩ | ⟨hp, -⟩
  · exact e
  · exact absurd hp h
  · exact absurd hp h

theorem find?_expired (l : Ledger) (now : Int) (id : String) :
    ((l.freeExpired now).bindExpired now).reservations.find? id = (l.reservations.find? id).map
      (·.expire now) := by
  unfold Ledger.bindExpired Ledger.freeExpired
  rw [Table.find?_update, Table.find?_update, Option.map_map]
  refine congrArg (Option.map · (l.reservations.find? id)) (funext fun r => ?_)
  obtain ⟨rid, w, p, m, c, settled, started, k⟩ := r
  unfold Reservation.expire
  by_cases hc : c ≤ now - reservationLeaseMs
  · cases settled <;> cases started <;> simp [hc]
  · cases settled <;> cases started <;> simp [hc]

theorem find?_maintain (l : Ledger) (now : Int) (id : String) :
    (maintain now l).reservations.find? id = (l.reservations.find? id).bind (·.maintain now) := by
  unfold maintain Ledger.retain
  rw [Table.find?_delete, find?_expired]
  cases h : l.reservations.find? id with
  | none => rfl
  | some r =>
    show Option.filter _ (some (r.expire now)) = r.maintain now
    unfold Reservation.maintain
    cases hr : (r.expire now).retired now with
    | false =>
      unfold Reservation.retired at hr
      rw [Option.filter_some_pos (by rw [hr]; rfl)]
      rfl
    | true =>
      unfold Reservation.retired at hr
      rw [Option.filter_some_neg (by rw [hr]; decide)]
      rfl

variable {l l' : Ledger}

theorem find?_add (h : l.reservations.find? r.reservationId = none) (id : String) :
    (l.add r).reservations.find? id =
      if r.reservationId = id then some r else l.reservations.find? id :=
  Table.find?_insert h id

/-- An update of the row of one id. -/
theorem find?_update_id {f : Reservation → Reservation} (hf : ∀ r, (f r).reservationId = r.reservationId)
    (T : Table Reservation.reservationId) (reservationId id : String) :
    (T.update (fun r => r.reservationId == reservationId) f hf).find? id =
      (T.find? id).map fun r => if reservationId = id then f r else r := by
  rw [Table.find?_update]
  cases h : T.find? id with
  | none => rfl
  | some r =>
    have hk : r.reservationId = id := (Table.find?_eq_some.mp h).2
    by_cases e : reservationId = id
    · rw [Option.map_some, Option.map_some, if_pos e, if_pos (by rw [hk, e, beq_self_eq_true])]
    · rw [Option.map_some, Option.map_some, if_neg e, if_neg]
      rw [hk, beq_iff_eq]
      exact Ne.symm e

theorem find?_markDispatched (l : Ledger) (reservationId id : String) :
    (l.markDispatched reservationId).reservations.find? id = (l.reservations.find? id).map fun r =>
        if reservationId = id then { r with dispatchStarted := true } else r :=
  find?_update_id (by exact fun _ => rfl) ..

theorem find?_recordSettlement (l : Ledger) (reservationId : String) (actual : Int) (id : String) :
    (l.recordSettlement reservationId actual).reservations.find? id = (l.reservations.find? id).map fun r =>
        if reservationId = id then { r with reservedMicros := actual, settled := .final } else r :=
  find?_update_id (by exact fun _ => rfl) ..

/-- The amount of a settlement of `id` that a step answers with success. -/
def settledAt (id : String) : Op × LedgerReply → Option Int
  | (.settle request, .settled chargedMicros _) =>
    if request.reservationId = id then some chargedMicros else none
  | _ => none

/-- A step tells its caller that `id` is dispatched: `dispatch` does, and `reserve` with
    `dispatched`. -/
def acknowledges (id : String) : Op × LedgerReply → Bool
  | (.dispatch reservationId, .dispatched) => reservationId == id
  | (.reserve _ request, .reserved _ _ _ _ _ _ dispatched) =>
    request.reservationId == id && dispatched
  | _ => false

/-- **Everything a step can do to the row of `id`.** -/
inductive RowStep (id : String) (now : Int) (r : Reservation) :
    Op × LedgerReply → Option Reservation → Prop
  | kept {a} (active : a.1 ≠ .maintain) (notSettled : settledAt id a = none)
      (confirmed : acknowledges id a = true →
        r.dispatchStarted = true ∧ r.settled = .pending ∧ r.leased now = true) :
      RowStep id now r a (some r)
  | dispatched (pending : r.settled = .pending) (leased : r.leased now = true) :
      RowStep id now r (.dispatch id, .dispatched) (some { r with dispatchStarted := true })
  | settled {actual spentMicros} (nonneg : 0 ≤ actual)
      (agrees : r.settled = .final → r.reservedMicros = actual)
      (free : r.dispatchStarted = false → actual = 0) :
      RowStep id now r (.settle ⟨id, some actual⟩, .settled actual spentMicros)
        (some { r with reservedMicros := actual, settled := .final })
  | maintained {row} (left : row = r.maintain now) : RowStep id now r (.maintain, .maintained) row

variable {id : String}

theorem acknowledges_reply {fits : LedgerReply → Bool}
    {request : BudgetReserveRequest} {answer : LedgerReply} {allowed dispatched : Bool}
      {p w : String} {c s m : Int}
    (ha : answer = reply fits (.reserved allowed p w c s m dispatched))
    (h : acknowledges id (.reserve fits request, answer) = true) :
    request.reservationId = id ∧ dispatched = true := by
  unfold reply at ha
  split at ha
  · subst ha
    simpa [acknowledges] using h
  · subst ha
    cases h

variable {reply : LedgerReply}

theorem settledAt_reserve {fits : LedgerReply → Bool} {request : BudgetReserveRequest} :
    settledAt id (.reserve fits request, reply) = none := rfl

@[simp] theorem settledAt_settle {actual : Option Int} {charged spent : Int} :
    settledAt id (.settle ⟨id, actual⟩, .settled charged spent) = some charged := if_pos rfl

@[simp] theorem settledAt_dispatch {reservationId : String} :
    settledAt id (.dispatch reservationId, reply) = none := rfl

@[simp] theorem settledAt_maintain : settledAt id (.maintain, reply) = none := rfl

theorem acknowledges_rejected {op : Op} (h : reply.rejected = true) :
    acknowledges id (op, reply) = false := by
  cases reply <;> first | (cases op <;> rfl) | simp [LedgerReply.rejected] at h

theorem settledAt_rejected {op : Op} (h : reply.rejected = true) : settledAt id (op, reply) = none := by
  cases reply <;> first | (cases op <;> rfl) | simp [LedgerReply.rejected] at h

variable {a : Op × LedgerReply}

theorem row_step (h : Step now l a l') (hr : l.reservations.find? id = some r) :
    RowStep id now r a (l'.reservations.find? id) := by
  obtain ⟨op, rep⟩ := a
  cases exec_effect h with
  | replayed found answered =>
    rw [hr]
    refine .kept nofun settledAt_reserve fun hack => ?_
    obtain ⟨rfl, hd⟩ := acknowledges_reply answered hack
    rw [hr] at found
    cases found
    simp only [Bool.and_eq_true, beq_iff_eq] at hd
    exact ⟨hd.1.1.2, hd.1.2, hd.2⟩
  | denied absent _ answered =>
    rw [hr]
    refine .kept nofun settledAt_reserve fun hack => ?_
    cases (acknowledges_reply answered hack).2
  | @admitted fits request _ absent _ answered =>
    -- the new row is under another id
    have hne : request.reservationId ≠ id := fun e => by
      rw [e, hr] at absent
      cases absent
    have e : (l.add (request.row now)).reservations.find? id = some r := by
      rw [find?_add absent, ← hr]
      exact if_neg hne
    rw [e]
    exact .kept nofun settledAt_reserve fun hack => absurd (acknowledges_reply answered hack).1 hne
  | @dispatched reservationId x found pending leased =>
    rw [find?_markDispatched, hr]
    by_cases e : reservationId = id
    · subst e
      rw [hr] at found
      cases found
      simpa using RowStep.dispatched pending leased
    · simp only [Option.map_some, if_neg e]
      exact .kept nofun rfl fun hack => absurd (by simpa [acknowledges] using hack) e
  | @settled reservationId actual x found valid nonneg agrees free =>
    rw [find?_recordSettlement, hr]
    by_cases e : reservationId = id
    · subst e
      rw [hr] at found
      cases found
      simpa using RowStep.settled nonneg agrees free
    · simp only [Option.map_some, if_neg e]
      refine .kept nofun ?_ fun hack => by cases hack
      exact if_neg e
  | @charged request amount _ _ absent =>
    have hne : request.chargeId ≠ id := fun e => by
      rw [e, hr] at absent
      cases absent
    have e : (l.add (request.row amount now)).reservations.find? id = some r := by
      rw [find?_add absent, ← hr]
      exact if_neg hne
    rw [e]
    exact .kept nofun rfl fun hack => by cases hack
  | recharged | read =>
    rw [hr]
    exact .kept nofun rfl fun hack => by cases hack
  | maintained =>
    rw [find?_maintain, hr]
    exact .maintained rfl
  | refused active rejected =>
    rw [hr]
    exact .kept active (settledAt_rejected rejected) fun hack => by
      rw [acknowledges_rejected rejected] at hack
      cases hack

theorem absent_step (h : Step now l a l') (hr : l.reservations.find? id = none) :
    l'.reservations.find? id = none ∧ settledAt id a = none ∧ acknowledges id a = false ∨
      (∃ fits request reply, a = (.reserve fits request, reply) ∧ request.reservationId = id ∧
        (acknowledges id a = true → request.dispatched = true) ∧ l'.reservations.find? id = some
          (request.row now)) ∨
      ∃ request amount reply, a = (.charge request, reply) ∧ request.chargeId = id ∧
        l'.reservations.find? id = some (request.row amount now) := by
  obtain ⟨op, rep⟩ := a
  cases exec_effect h with
  | @replayed fits request x _ found answered =>
    have hne : request.reservationId ≠ id := fun e => by
      rw [e, hr] at found
      cases found
    refine .inl ⟨hr, settledAt_reserve, ?_⟩
    exact Bool.eq_false_iff.mpr fun hack => hne (acknowledges_reply answered hack).1
  | denied _ _ answered =>
    refine .inl ⟨hr, settledAt_reserve, ?_⟩
    exact Bool.eq_false_iff.mpr fun hack => by cases (acknowledges_reply answered hack).2
  | @admitted fits request _ absent _ answered =>
    by_cases e : request.reservationId = id
    · refine .inr (.inl ⟨fits, request, _, rfl, e, fun hack => ?_, ?_⟩)
      · exact (acknowledges_reply answered hack).2
      · rw [find?_add absent]
        exact if_pos e
    · refine .inl ⟨by rw [find?_add absent, ← hr]; exact if_neg e, settledAt_reserve, ?_⟩
      exact Bool.eq_false_iff.mpr fun hack => e (acknowledges_reply answered hack).1
  | @dispatched reservationId x found =>
    have hne : reservationId ≠ id := fun e => by
      rw [e, hr] at found
      cases found
    refine .inl ⟨by rw [find?_markDispatched, hr]; rfl, rfl, ?_⟩
    simpa [acknowledges] using hne
  | @settled reservationId actual x found =>
    have hne : reservationId ≠ id := fun e => by
      rw [e, hr] at found
      cases found
    refine .inl ⟨by rw [find?_recordSettlement, hr]; rfl, ?_, rfl⟩
    exact if_neg hne
  | @charged request amount _ _ absent =>
    by_cases e : request.chargeId = id
    · exact .inr (.inr ⟨request, amount, _, rfl, e, by rw [find?_add absent]; exact if_pos e⟩)
    · exact .inl ⟨by rw [find?_add absent, ← hr]; exact if_neg e, rfl, rfl⟩
  | recharged | read => exact .inl ⟨hr, rfl, rfl⟩
  | maintained => exact .inl ⟨by rw [find?_maintain, hr]; rfl, rfl, rfl⟩
  | refused _ rejected =>
    exact .inl ⟨hr, settledAt_rejected rejected, acknowledges_rejected rejected⟩

/-! ## 2. One row along a run -/

/-- No maintenance of the trace is later than the retention of the row. -/
def Retained (r : Reservation) (tr : List (Int × (Op × LedgerReply))) : Prop :=
  ∀ e ∈ tr, e.2.1 = .maintain → e.1 ≤ r.createdAtMs + chargeRetentionMs

theorem maintain_eq_some {r' : Reservation} (h : r.maintain now = some r') :
    r' = r.expire now ∧ (r.expire now).retired now = false := by
  unfold Reservation.maintain at h
  split at h
  · cases h
  · rename_i hr
    cases h
    exact ⟨rfl, by simpa using hr⟩

theorem maintain_eq_none (h : r.maintain now = none) : r.createdAtMs + chargeRetentionMs < now := by
  unfold Reservation.maintain at h
  split at h
  · rename_i hr
    simp only [Reservation.retired, expire_createdAtMs, Bool.and_eq_true, decide_eq_true_eq] at hr
    omega
  · cases h

theorem RowStep.createdAtMs {r' : Reservation} (h : RowStep id now r a (some r')) :
    r'.createdAtMs = r.createdAtMs := by
  cases h with
  | kept | dispatched | settled => rfl
  | maintained left =>
    rw [(maintain_eq_some left.symm).1, expire_createdAtMs]

theorem created_now (h : Step now l a l') (h0 : l.reservations.find? id = none)
    (hr : l'.reservations.find? id = some r) : r.createdAtMs = now := by
  rcases absent_step h h0 with ⟨hnone, -, -⟩ | ⟨_, request, _, -, -, -, e⟩ | ⟨request, amount, _, -, -, e⟩
  · rw [hnone] at hr
    cases hr
  · rw [e] at hr
    cases hr
    rfl
  · rw [e] at hr
    cases hr
    rfl

/-- The reservation that was under the id at `r₀` is gone, and what is there now is younger than
    its retention. -/
structure Retired (r₀ : Reservation) (tr : List (Int × (Op × LedgerReply))) (l : Ledger) (t : Int) :
    Prop where
  maintained : ¬ Retained r₀ tr
  late : r₀.createdAtMs + chargeRetentionMs < t
  younger : ∀ r, l.reservations.find? r₀.reservationId = some r →
    r₀.createdAtMs + chargeRetentionMs < r.createdAtMs

section Run

variable {r₀ : Reservation} {Q : List (Int × (Op × LedgerReply)) → Reservation → Prop}

theorem Retired.step {tr : List (Int × (Op × LedgerReply))} {t t' : Int}
    (h : Retired r₀ tr l t) (ht : t ≤ t') (hs : Step t' l a l') : Retired r₀ (tr ++ [(t', a)]) l' t' where
  maintained := fun hk => h.maintained fun e he => hk e (List.mem_append_left _ he)
  late := by
    have := h.late
    omega
  younger := fun r hr => by
    cases h0 : l.reservations.find? r₀.reservationId with
    | none =>
      rw [created_now hs h0 hr]
      have := h.late
      omega
    | some x =>
      have hx := row_step hs h0
      rw [hr] at hx
      rw [hx.createdAtMs]
      exact h.younger x h0

/-- **A reservation along a run**: what the steps keep holds of it until retention. -/
theorem row_run {l₀ : Ledger} {t₀ t : Int} {tr : List (Int × (Op × LedgerReply))}
    (h : Run Step l₀ t₀ tr t l) (hr : l₀.reservations.find? r₀.reservationId = some r₀) (hQ : Q [] r₀)
    (hstep : ∀ tr now r a r', r.createdAtMs = r₀.createdAtMs → Q tr r →
      RowStep r₀.reservationId now r a (some r') → Q (tr ++ [(now, a)]) r') :
    (∃ r, l.reservations.find? r₀.reservationId = some r ∧ r.createdAtMs = r₀.createdAtMs ∧ Q tr r) ∨
      Retired r₀ tr l t := by
  refine h.invariant_along (I := fun tr t l => (∃ r, l.reservations.find? r₀.reservationId = some r ∧
      r.createdAtMs = r₀.createdAtMs ∧ Q tr r) ∨ Retired r₀ tr l t) (.inl ⟨r₀, hr, rfl, hQ⟩) ?_
  rintro tr t t' l a l' ht (⟨r, hf, hc, hq⟩ | hgone) hs
  · have hrow := row_step hs hf
    cases hl : l'.reservations.find? r₀.reservationId with
    | some r' =>
      rw [hl] at hrow
      exact .inl ⟨r', rfl, hrow.createdAtMs.trans hc, hstep tr t' r a r' hc hq hrow⟩
    | none =>
      rw [hl] at hrow
      cases hrow with
      | maintained left =>
        -- only retention takes a row away
        have hlate := maintain_eq_none left.symm
        rw [hc] at hlate
        refine .inr ⟨fun hk => ?_, hlate, fun x hx => ?_⟩
        · have := hk _ (List.mem_append_right _ (List.mem_singleton_self _)) rfl
          have : t' ≤ r₀.createdAtMs + chargeRetentionMs := this
          omega
        · rw [hl] at hx
          cases hx
  · exact .inr (hgone.step ht hs)

end Run

end ClawRouter.Budget
