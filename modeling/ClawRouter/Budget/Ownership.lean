/-
  Subject:   Who owns the charge of a reservation: what a caller may rely on once the ledger has
             answered, whatever other requests, replays, expiries and deletions follow.

  * **`charge_ownership`**: all of them for every reachable ledger. What ends them is retention:
    a maintenance more than 45 days after the creation of the row.
-/
import ClawRouter.Budget.Row

namespace ClawRouter.Budget

open Keyed Timed

/-- What the reservation of `id` adds to the spending of a window as a scope sees it. -/
def contribution (l : Ledger) (id windowKey : String) (scopeKey : Option String) : Int :=
  l.reservations.shareOf id (counted windowKey scopeKey) (·.reservedMicros)

variable {l l₁ : Ledger} {id : String} {r r' : Reservation}

theorem contribution_of_find? {w : String} {k : Option String} (h : l.reservations.find? id = some r) :
    contribution l id w k = if counted w k r then r.reservedMicros else 0 := by
  unfold contribution Table.shareOf
  rw [h]

/-- The first successful settlement of `id` in a trace. -/
def firstSettled (id : String) (tr : List (Int × (Op × LedgerReply))) : Option Int :=
  tr.findSome? fun e => settledAt id e.2

theorem firstSettled_append (id : String) (tr : List (Int × (Op × LedgerReply))) (now : Int)
    (a : Op × LedgerReply) :
    firstSettled id (tr ++ [(now, a)]) = (firstSettled id tr).or (settledAt id a) := by
  have e : (List.findSome? (fun e : Int × (Op × LedgerReply) => settledAt id e.2) [(now, a)]) =
    settledAt id a := by
    rw [List.findSome?_cons]
    cases settledAt id a <;> rfl
  unfold firstSettled
  rw [List.findSome?_append, e]

/-! ## 1. Acknowledged dispatch -/

variable {now t : Int} {a : Op × LedgerReply}

theorem acknowledged_row {l' : Ledger} (hs : Step now l a l') (hack : acknowledges id a = true) :
    ∃ r, l'.reservations.find? id = some r ∧ r.dispatchStarted = true ∧ r.settled = .pending ∧
      r.leased now = true := by
  cases h : l.reservations.find? id with
  | none =>
    rcases absent_step hs h with ⟨-, -, hno⟩ | ⟨_, request, _, -, -, hd, e⟩ |
      ⟨request, _, _, rfl, -, -⟩
    · rw [hno] at hack
      cases hack
    · refine ⟨request.row now, e, hd hack, rfl, ?_⟩
      show decide (now < now + reservationLeaseMs) = true
      simp [reservationLeaseMs]
    · cases hack
  | some r =>
    have hrow := row_step hs h
    cases hl : l'.reservations.find? id with
    | none =>
      rw [hl] at hrow
      cases hrow
      cases hack
    | some r' =>
      rw [hl] at hrow
      cases hrow with
      | kept _ _ confirmed => exact ⟨r, rfl, confirmed hack⟩
      | dispatched pending leased => exact ⟨_, rfl, rfl, pending, leased⟩
      | settled | maintained => cases hack

/-- What the steps after an acknowledged dispatch keep of the row. -/
structure Owned (r₀ : Reservation) (tr : List (Int × (Op × LedgerReply))) (r : Reservation) :
    Prop where
  window : r.windowKey = r₀.windowKey
  scope : r.budgetScopeKey = r₀.budgetScopeKey
  started : r.dispatchStarted = true
  amount : r.reservedMicros = (firstSettled r₀.reservationId tr).getD r₀.reservedMicros
  final : r.settled = .final ↔ (firstSettled r₀.reservationId tr).isSome = true

variable {tr : List (Int × (Op × LedgerReply))}

theorem Owned.step {r₀ : Reservation} (h : Owned r₀ tr r) (hs : RowStep r₀.reservationId now r a (some r')) :
    Owned r₀ (tr ++ [(now, a)]) r' := by
  obtain ⟨hw, hk, hd, hm, hf⟩ := h
  have e := firstSettled_append r₀.reservationId tr now a
  cases hs with
  | kept _ notSettled =>
    rw [notSettled, Option.or_none] at e
    exact ⟨hw, hk, hd, by rw [e]; exact hm, by rw [e]; exact hf⟩
  | dispatched =>
    rw [settledAt_dispatch, Option.or_none] at e
    exact ⟨hw, hk, rfl, by rw [e]; exact hm, by rw [e]; exact hf⟩
  | @settled actual spentMicros _ agrees =>
    rw [settledAt_settle] at e
    refine ⟨hw, hk, hd, ?_, ?_⟩
    · -- a second settlement repeats the amount of the first
      rw [e]
      cases hfirst : firstSettled r₀.reservationId tr with
      | none => rfl
      | some first =>
        have hfinal : r.settled = .final := hf.mpr (by rw [hfirst]; rfl)
        rw [hfirst] at hm
        exact (agrees hfinal).symm.trans hm
    · rw [e]
      cases firstSettled r₀.reservationId tr <;> simp
  | maintained left =>
    rw [settledAt_maintain, Option.or_none] at e
    obtain ⟨hr', -⟩ := maintain_eq_some left.symm
    rcases expire_cases r now with ⟨-, hx⟩ | ⟨hp, -, -, hx⟩ | ⟨-, -, hfree, -⟩
    · rw [hr', hx]
      exact ⟨hw, hk, hd, by rw [e]; exact hm, by rw [e]; exact hf⟩
    · have hnone : (firstSettled r₀.reservationId tr).isSome = false := Bool.eq_false_iff.mpr fun hsome => by
          rw [hf.mpr hsome] at hp
          cases hp
      rw [hr', hx]
      exact ⟨hw, hk, hd, by rw [e]; exact hm, by rw [e, hnone]; simp⟩
    · rw [hd] at hfree
      cases hfree

/-- **(a)** After an acknowledged dispatch the row contributes its amount until the first
    settlement, and the settled amount from then on. -/
theorem dispatched_kept (hs : Step now l a l₁) (hack : acknowledges id a = true) :
    ∃ r, l₁.reservations.find? id = some r ∧ ∀ tr t l', Run Step l₁ now tr t l' → Retained r tr →
      ∀ scopeKey, counted r.windowKey scopeKey r = true →
        contribution l' id r.windowKey scopeKey = (firstSettled id tr).getD r.reservedMicros := by
  obtain ⟨r, hr, hd, hp, -⟩ := acknowledged_row hs hack
  have hid : r.reservationId = id := (Table.find?_eq_some.mp hr).2
  subst hid
  refine ⟨r, hr, fun tr t l' hrun hkeep scopeKey hc => ?_⟩
  have h0 : Owned r [] r := ⟨rfl, rfl, hd, rfl, by simp [firstSettled, hp]⟩
  rcases row_run (Q := Owned r) hrun hr h0 (fun _ _ _ _ _ _ => Owned.step) with
    ⟨r', hr', -, hown⟩ | hgone
  · have hc' : counted r.windowKey scopeKey r' = counted r.windowKey scopeKey r := by
      unfold counted
      rw [hown.window, hown.scope]
    rw [contribution_of_find? hr', hc', hc, ← hown.amount]
    rfl
  · exact absurd hkeep hgone.maintained

/-! ## 2. Expiry -/

/-- A maintenance of the trace ran at or after the end of the row's lease. -/
def LeaseMaintained (r : Reservation) (tr : List (Int × (Op × LedgerReply))) : Prop :=
  ∃ e ∈ tr, e.2.1 = .maintain ∧ r.createdAtMs + reservationLeaseMs ≤ e.1

/-- What holds of every row that was not dispatched. -/
structure Undispatched (tr : List (Int × (Op × LedgerReply))) (r : Reservation) : Prop where
  free : r.dispatchStarted = false → r.settled ≠ .pending → r.reservedMicros = 0
  expired : LeaseMaintained r tr → r.settled ≠ .pending

theorem leaseMaintained_append (h : LeaseMaintained r (tr ++ [(now, a)])) :
    LeaseMaintained r tr ∨ (a.1 = .maintain ∧ r.createdAtMs + reservationLeaseMs ≤ now) := by
  obtain ⟨e, he, hm, hle⟩ := h
  rcases List.mem_append.mp he with he | he
  · exact .inl ⟨e, he, hm, hle⟩
  · cases List.mem_singleton.mp he
    exact .inr ⟨hm, hle⟩

theorem Undispatched.step (h : Undispatched tr r) (hs : RowStep id now r a (some r')) :
    Undispatched (tr ++ [(now, a)]) r' := by
  cases hs with
  | kept active =>
    refine ⟨h.free, fun hm => ?_⟩
    rcases leaseMaintained_append hm with hm | ⟨e, -⟩
    · exact h.expired hm
    · exact absurd e active
  | dispatched pending =>
    refine ⟨(fun h => by cases h), fun hm => ?_⟩
    rcases leaseMaintained_append hm with hm | ⟨e, -⟩
    · exact h.expired hm
    · cases e
  | settled _ _ free => exact ⟨fun hd _ => free hd, fun _ h => by cases h⟩
  | maintained left =>
    obtain ⟨hr', -⟩ := maintain_eq_some left.symm
    rcases expire_cases r now with ⟨hl, hx⟩ | ⟨-, -, hd, hx⟩ | ⟨-, -, -, hx⟩
    · rw [hr', hx]
      refine ⟨h.free, fun hm => ?_⟩
      rcases leaseMaintained_append hm with hm | ⟨-, hle⟩
      · exact h.expired hm
      · -- the lease is over at this maintenance, so the row was settled before it
        refine hl.resolve_right fun hleased => ?_
        have : now < r.createdAtMs + reservationLeaseMs := by
          simpa [Reservation.leased] using hleased
        omega
    · rw [hr', hx]
      refine ⟨fun hfree => ?_, fun _ h => by cases h⟩
      have hfree : r.dispatchStarted = false := hfree
      rw [hd] at hfree
      cases hfree
    · rw [hr', hx]
      exact ⟨fun _ _ => rfl, fun _ h => by cases h⟩

theorem undispatched_run {t₀ : Int} (h : Run Step Ledger.empty t₀ tr t l)
    (hr : l.reservations.find? id = some r) : Undispatched tr r := by
  induction h generalizing id r with
  | start => cases hr
  | @next tr t t' l l' a hrun ht hs ih =>
    cases hl : l.reservations.find? id with
    | some x =>
      have hrow := row_step hs hl
      rw [hr] at hrow
      exact (ih hl).step hrow
    | none =>
      have hnow := created_now hs hl hr
      refine ⟨fun hd hp => ?_, fun hm => ?_⟩
      · rcases absent_step hs hl with ⟨e, -, -⟩ | ⟨_, request, _, -, -, -, e⟩ |
          ⟨request, _, _, -, -, e⟩
        · rw [e] at hr
          cases hr
        · rw [e] at hr
          cases hr
          exact absurd rfl hp
        · rw [e] at hr
          cases hr
          cases hd
      · -- the row is younger than every maintenance before it
        obtain ⟨e, he, -, hle⟩ := hm
        have hlate : e.1 ≤ t' := (hrun.next ht hs).mem_le he
        rw [hnow] at hle
        simp only [reservationLeaseMs] at hle
        omega

/-- **(b)** A row that was not dispatched contributes nothing once a maintenance has run at or
    after the end of its lease. -/
theorem undispatched_free {t₀ : Int} (h : Run Step Ledger.empty t₀ tr t l)
    (hr : l.reservations.find? id = some r) (hd : r.dispatchStarted = false)
    (hm : LeaseMaintained r tr) (windowKey : String) (scopeKey : Option String) :
    contribution l id windowKey scopeKey = 0 := by
  have hu := undispatched_run h hr
  rw [contribution_of_find? hr, hu.free hd (hu.expired hm), ite_self]

/-- Once the reservation was settled, or was past its lease, its row is not pending. -/
def Closed (r₀ : Reservation) (tr : List (Int × (Op × LedgerReply))) (r : Reservation) : Prop :=
  (r₀.settled ≠ .pending ∨ (firstSettled r₀.reservationId tr).isSome = true) → r.settled ≠ .pending

theorem Closed.step {r₀ : Reservation} (h : Closed r₀ tr r)
    (hs : RowStep r₀.reservationId now r a (some r')) :
    Closed r₀ (tr ++ [(now, a)]) r' := by
  intro hor
  rw [firstSettled_append] at hor
  cases hs with
  | kept _ notSettled =>
    rw [notSettled, Option.or_none] at hor
    exact h hor
  | dispatched pending =>
    rw [settledAt_dispatch, Option.or_none] at hor
    exact absurd pending (h hor)
  | settled => exact nofun
  | maintained left =>
    rw [settledAt_maintain, Option.or_none] at hor
    rw [(maintain_eq_some left.symm).1, expire_of_settled (h hor)]
    exact h hor

/-- **(b)** No dispatch of a reservation is acknowledged after the end of its lease or after a
    settlement. -/
theorem no_late_acknowledgement {l₂ : Ledger} {t₁ : Int}
        {r₂ : Reservation} (hr : l.reservations.find? id = some r) (hrun : Run Step l t tr t₁ l₁)
    (ht : t₁ ≤ now) (hs : Step now l₁ a l₂) (hack : acknowledges id a = true)
    (hr₂ : l₂.reservations.find? id = some r₂) (hsame : r₂.createdAtMs = r.createdAtMs) :
    now < r.createdAtMs + reservationLeaseMs ∧ r.settled = .pending ∧ firstSettled id tr = none := by
  have hid : r.reservationId = id := (Table.find?_eq_some.mp hr).2
  subst hid
  have h0 : Closed r [] r := by simp [Closed, firstSettled]
  rcases row_run (Q := Closed r) hrun hr h0 (fun _ _ _ _ _ _ => Closed.step) with
    ⟨x, hx, hc, hq⟩ | hgone
  · have hopen : x.settled = .pending ∧ x.leased now = true := by
      have hrow := row_step hs hx
      rw [hr₂] at hrow
      cases hrow with
      | kept _ _ confirmed => exact (confirmed hack).2
      | dispatched pending leased => exact ⟨pending, leased⟩
      | settled | maintained => cases hack
    have hlease : now < x.createdAtMs + reservationLeaseMs := by
      simpa [Reservation.leased] using hopen.2
    have hnot : ¬ (r.settled ≠ .pending ∨ (firstSettled r.reservationId tr).isSome =
      true) := fun hor => hq hor hopen.1
    rw [not_or, not_not, Option.not_isSome_iff_eq_none] at hnot
    exact ⟨hc ▸ hlease, hnot.1, hnot.2⟩
  · -- what is under the id now is another reservation
    have hyoung := (hgone.step ht hs).younger r₂ hr₂
    rw [hsame] at hyoung
    simp only [chargeRetentionMs, usageDayMs] at hyoung
    omega

/-! ## 3. Refusals and repeated settlements -/

theorem rejected_unchanged {l' : Ledger} (h : Step now l a l') (hrej : a.2.rejected = true) : l' = l := by
  obtain ⟨op, answer⟩ := a
  cases exec_effect h with
  | replayed | denied | recharged | read | refused => rfl
  | admitted _ _ answered =>
    rw [answered] at hrej
    unfold reply at hrej
    split at hrej <;> cases hrej
  | dispatched | settled | charged | maintained => cases hrej

theorem final_step (h : RowStep id now r a (some r')) (hf : r.settled = .final) : r' = r := by
  cases h with
  | kept => rfl
  | dispatched pending =>
    rw [hf] at pending
    cases pending
  | settled _ agrees =>
    rw [← agrees hf, ← hf]
  | maintained left =>
    rw [(maintain_eq_some left.symm).1, expire_of_settled (by rw [hf]; exact nofun)]

theorem recordSettlement_same (hr : l.reservations.find? id = some r) (hf : r.settled = .final) :
    l.recordSettlement id r.reservedMicros = l := by
  have hrows : (l.reservations.update (fun x => x.reservationId == id)
      (fun x => { x with reservedMicros := r.reservedMicros, settled := .final })
      fun _ => rfl).rows = l.reservations.rows := by
    refine (List.map_congr_left fun x hx => ?_).trans (List.map_id _)
    show (if (x.reservationId == id) = true then _ else x) = x
    split
    · rename_i hk
      -- the row under the key is `r`, which has these values
      have e : l.reservations.find? id = some x := Table.find?_eq_some.mpr ⟨hx, by simpa using hk⟩
      rw [hr] at e
      cases e
      rw [← hf]
    · rfl
  obtain ⟨windows, reservations⟩ := l
  exact congrArg (Ledger.mk windows) (Table.ext_rows hrows)

theorem settle_final (hr : l.reservations.find? id = some r) (hf : r.settled = .final)
    (hvalid : isSafeInteger (some r.reservedMicros) = true) (h0 : 0 ≤ r.reservedMicros)
    (hfree : r.dispatchStarted = false → r.reservedMicros = 0) (now : Int) :
    (∃ spent, exec now l (.settle ⟨id, some r.reservedMicros⟩) = (l, .settled r.reservedMicros spent)) ∧
      ∀ other, other ≠ some r.reservedMicros → (exec now l (.settle ⟨id, other⟩)).2.rejected = true := by
  constructor
  · refine ⟨max 0 (effectiveSpent l r.windowKey r.budgetScopeKey - r.reservedMicros) + r.reservedMicros, ?_⟩
    have hconflict : ¬ ((r.settled = .final ∧ r.reservedMicros ≠ r.reservedMicros) ∨
        (r.dispatchStarted = false ∧ r.reservedMicros ≠ 0)) := by
      rintro (⟨-, h⟩ | ⟨h, h'⟩)
      · exact h rfl
      · exact h' (hfree h)
    have hinvalid : ¬ (isSafeInteger (some r.reservedMicros) = false ∨ r.reservedMicros < 0) := by
      rintro (h | h)
      · rw [hvalid] at h
        cases h
      · omega
    show settle _ l = _
    unfold settle
    simp only [hr]
    rw [if_neg hinvalid, if_neg hconflict, recordSettlement_same hr hf]
  · intro other hne
    show (settle _ l).2.rejected = true
    unfold settle
    simp only [hr]
    cases other with
    | none => rfl
    | some actual =>
      have hne : r.reservedMicros ≠ actual := fun e => hne (by rw [e])
      simp only
      split
      · rfl
      · rw [if_pos (.inl ⟨hf, hne⟩)]
        rfl

/-- **(d)** After a successful settlement the same one succeeds again and changes nothing, and any
    other is rejected. -/
theorem settled_repeat {actual spent : Int} (hs : Step now l
    (.settle ⟨id, some actual⟩, .settled actual spent) l₁) :
    ∃ r, l₁.reservations.find? id = some r ∧ ∀ tr t l', Run Step l₁ now tr t l' → Retained r tr →
      ∀ now', (∃ spent', exec now' l' (.settle ⟨id, some actual⟩) = (l', .settled actual spent')) ∧
        ∀ other, other ≠ some actual → (exec now' l' (.settle ⟨id, other⟩)).2.rejected = true := by
  cases exec_effect hs with
  | refused _ rejected => cases rejected
  | @settled _ _ x found valid nonneg agrees free =>
    have hrow : (l.recordSettlement id actual).reservations.find? id =
        some { x with reservedMicros := actual, settled := .final } := by
      rw [find?_recordSettlement, found, Option.map_some, if_pos rfl]
    have hid : x.reservationId = id := (Table.find?_eq_some.mp found).2
    refine ⟨_, hrow, fun tr t l' hrun hkeep now' => ?_⟩
    subst hid
    rcases row_run (Q := fun _ r => r = { x with reservedMicros := actual, settled := .final })
        hrun hrow rfl (fun _ _ _ _ _ _ hq hstep => (final_step hstep (by rw [hq])).trans hq) with
      ⟨r, hr, -, rfl⟩ | hgone
    · exact settle_final hr rfl valid nonneg free now'
    · exact absurd hkeep hgone.maintained

/-! ## 4. Every reachable ledger -/

/-- What a caller of the ledger `l`, reached by the trace `tr`, may rely on. -/
structure ChargeOwnership (tr : List (Int × (Op × LedgerReply))) (l : Ledger) : Prop where
  /-- an acknowledged dispatch keeps its charge until retention -/
  kept : ∀ now a l₁ id, Step now l a l₁ → acknowledges id a = true →
    ∃ r, l₁.reservations.find? id = some r ∧ ∀ tr' t' l', Run Step l₁ now tr' t' l' →
      Retained r tr' → ∀ scopeKey, counted r.windowKey scopeKey r = true →
        contribution l' id r.windowKey scopeKey = (firstSettled id tr').getD r.reservedMicros
  /-- maintenance after the lease frees a row that was not dispatched -/
  free : ∀ id r, l.reservations.find? id = some r → r.dispatchStarted = false →
    LeaseMaintained r tr → ∀ windowKey scopeKey, contribution l id windowKey scopeKey = 0
  /-- no dispatch is acknowledged after the lease or after a successful settlement -/
  closed : ∀ id r t tr' t' l' now a l₁ r₁, l.reservations.find? id = some r →
    Run Step l t tr' t' l' → t' ≤ now → Step now l' a l₁ → acknowledges id a = true →
    l₁.reservations.find? id = some r₁ → r₁.createdAtMs = r.createdAtMs →
    now < r.createdAtMs + reservationLeaseMs ∧ r.settled = .pending ∧ firstSettled id tr' = none
  /-- a 4xx answer changes nothing -/
  rejected : ∀ now a l', Step now l a l' → a.2.rejected = true → l' = l
  /-- until retention a settlement repeats, and no other succeeds -/
  settled : ∀ now id actual spent l₁,
    Step now l (.settle ⟨id, some actual⟩, .settled actual spent) l₁ →
    ∃ r, l₁.reservations.find? id = some r ∧ ∀ tr' t' l', Run Step l₁ now tr' t' l' →
      Retained r tr' → ∀ now',
        (∃ spent', exec now' l' (.settle ⟨id, some actual⟩) = (l', .settled actual spent')) ∧
        ∀ other, other ≠ some actual → (exec now' l' (.settle ⟨id, other⟩)).2.rejected = true

/-- **Charge ownership**: every ledger reached from the empty one by any requests, with any
    arguments, gives its callers these guarantees. -/
theorem charge_ownership {t₀ t : Int} {tr : List (Int × (Op × LedgerReply))} {l : Ledger}
    (h : Run Step Ledger.empty t₀ tr t l) : ChargeOwnership tr l where
  kept := fun _ _ _ _ hs hack => dispatched_kept hs hack
  free := fun _ _ hr hd hm => undispatched_free h hr hd hm
  closed := fun _ _ _ _ _ _ _ _ _ _ hr hrun ht hs hack hr₁ hsame =>
    no_late_acknowledgement hr hrun ht hs hack hr₁ hsame
  rejected := fun _ _ _ hs hrej => rejected_unchanged hs hrej
  settled := fun _ _ _ _ _ hs => settled_repeat hs

/-- A ledger with one reservation, dispatched and settled at 2. -/
theorem charge_ownership_run : ∃ tr t l, Run Step Ledger.empty 0 tr t l ∧ tr.length = 3 ∧
    contribution l "a" "w" none = 2 ∧ ChargeOwnership tr l := by
  have h0 : Run Step Ledger.empty 0 [] 0 Ledger.empty := .start
  have h1 := h0.next (le_refl 0) (step_exec (.reserve (fun _ => true)
    ⟨"p", "w", some "s", 5, 3, "a", "llm.chat", false⟩))
  have h2 := h1.next (by decide : (0 : Int) ≤ 1) (step_exec (.dispatch "a"))
  have h3 := h2.next (by decide : (1 : Int) ≤ 2) (step_exec (.settle ⟨"a", some 2⟩))
  exact ⟨_, _, _, h3, rfl, by decide, charge_ownership h3⟩

/-- Retention ends ownership, settled or not, and expiry waits for a maintenance: a dispatched
    reservation of 3 contributes nothing after 45 days without any settlement, a settlement that
    succeeded is refused when it is repeated after them, and a reservation of 3 that was not
    dispatched still contributes 3 to a request that reads it at the end of its lease. -/
theorem retention_ends_ownership : (∃ a l₁ tr t l, Step 0 Ledger.empty a l₁ ∧ acknowledges "a" a = true ∧
      contribution l₁ "a" "w" none = 3 ∧ Run Step l₁ 0 tr t l ∧ firstSettled "a" tr = none ∧
      contribution l "a" "w" none = 0) ∧
    (∃ l l₁ spent tr t l₂, Step 0 l (.settle ⟨"a", some 2⟩, .settled 2 spent) l₁ ∧
      Run Step l₁ 0 tr t l₂ ∧ (exec t l₂ (.settle ⟨"a", some 2⟩)).2.rejected = true) ∧
    ∃ tr l, Run Step Ledger.empty 0 tr reservationLeaseMs l ∧
      (∀ e ∈ tr, acknowledges "b" e.2 = false) ∧ contribution l "b" "w" none = 3 := by
  let ask (id : String) (dispatched : Bool) : Op :=
    .reserve (fun _ => true) ⟨"p", "w", some "s", 5, 3, id, "llm.chat", dispatched⟩
  let reserved : Ledger := (exec 0 Ledger.empty (ask "a" true)).1
  have hask := step_exec (t := 0) (l := Ledger.empty) (ask "a" true)
  have hset := step_exec (t := 0) (l := reserved) (.settle ⟨"a", some 2⟩)
  have hlate : (0 : Int) ≤ 45 * 86400000 + 1 := by decide
  have hlease : (0 : Int) ≤ reservationLeaseMs := by decide
  refine ⟨⟨_, _, _, _, _, hask, by decide, by decide, Run.start.next hlate (step_exec .maintain), by decide, by decide⟩,
    ⟨_, _, _, _, _, _, hset, Run.start.next hlate (step_exec .maintain), by decide⟩, ?_⟩
  refine ⟨_, _, (Run.start.next (le_refl 0) (step_exec (ask "b" false))).next hlease
    (step_exec (.dispatch "a")), by decide, by decide⟩

end ClawRouter.Budget
