/-
  Subject:   The hard cap: a ledger that starts empty never charges more to a window than the
             limit its callers carry.

  A window `w` is read under a scope `s`. A reserve that writes a row seen there carries a limit of
  at most `L`; callers of other windows and other scopes carry any limit, and callers without a
  scope share the rows of the window with every scope.

  * **`budget_cap`**: the total stays at or below `L` in every run;
  * **`budget_excess`**: and goes beyond only by what was charged beyond reservations.
-/
import ClawRouter.Budget.Ledger

namespace ClawRouter.Budget

open Keyed Timed

/-! ## 1. Rows under the writes -/

theorem effectiveSpent_of_nonneg {l : Ledger} (hw : l.windows.rows = [])
    (h0 : ∀ r ∈ l.reservations.rows, 0 ≤ r.reservedMicros) (windowKey : String) (scopeKey : Option String) :
    effectiveSpent l windowKey scopeKey = l.reservations.sumOn (counted windowKey scopeKey)
      (·.reservedMicros) := by
  have hnone : l.windows.find? windowKey = none := by simp [Table.find?, hw]
  have hsum : 0 ≤ l.reservations.sumOn (counted windowKey scopeKey) (·.reservedMicros) :=
    Table.sumOn_nonneg h0
  unfold effectiveSpent
  rw [hnone]
  show max 0 0 + max 0 _ = _
  omega

theorem counted_of_counted {w s : String} {q r : Reservation}
    (hq : counted w (some s) q = true) (hr : counted w (some s) r = true) :
    counted q.windowKey q.budgetScopeKey r = true := by
  simp only [counted, Bool.and_eq_true, Bool.or_eq_true, beq_iff_eq] at hq hr ⊢
  obtain ⟨hqw, hqs⟩ := hq
  obtain ⟨hrw, hrs⟩ := hr
  refine ⟨hrw.trans hqw.symm, ?_⟩
  rcases hqs with (hf | hnone) | hscope
  · cases hf
  · exact .inl (.inl hnone)
  · rw [hscope]
    exact hrs

/-! ## 2. The invariant -/

/-- What the callers promise about a step, for the window `w` as the scope `s` sees it. -/
def WithinLimit (L : Int) (w s : String) (l : Ledger) (now : Int) : Op → Prop
  | .reserve _ request =>
    0 ≤ request.costMicros ∧ (l.reservations.find? request.reservationId = none →
        counted w (some s) (request.row now) = true → request.limitMicros ≤ L)
  | .settle request => ∀ r actual, l.reservations.find? request.reservationId = some r →
      request.actualCostMicros = some actual → actual ≤ r.reservedMicros
  | .charge _ => False
  | _ => True

def LimitedStep (L : Int) (w s : String) (now : Int) (l : Ledger) (a : Op × LedgerReply)
    (l' : Ledger) : Prop :=
  WithinLimit L w s l now a.1 ∧ Step now l a l'

theorem limited_exec {L : Int} {w s : String} {l : Ledger} {now : Int} (op : Op)
    (h : WithinLimit L w s l now op) :
    LimitedStep L w s now l (op, (exec now l op).2) (exec now l op).1 :=
  ⟨h, rfl⟩

structure CapInv (L : Int) (w s : String) (l : Ledger) : Prop where
  windows : l.windows.rows = []
  nonneg : ∀ r ∈ l.reservations.rows, 0 ≤ r.reservedMicros
  cap : l.reservations.sumOn (counted w (some s)) (·.reservedMicros) ≤ L

section Invariant

variable {L : Int} {w s : String} {l : Ledger}

theorem capInv_empty (hL : 0 ≤ L) : CapInv L w s Ledger.empty where
  windows := rfl
  nonneg := fun _ hr => absurd hr List.not_mem_nil
  cap := hL

section

variable (h : CapInv L w s l)
include h

theorem capInv_update {p : Reservation → Bool} {f : Reservation → Reservation}
    {hf : ∀ r, (f r).reservationId = r.reservationId}
      (hc : ∀ r, counted w (some s) (f r) = counted w (some s) r)
    (h0 : ∀ r ∈ l.reservations.rows, p r = true → 0 ≤ (f r).reservedMicros)
    (hle : ∀ r ∈ l.reservations.rows, p r = true → (f r).reservedMicros ≤ r.reservedMicros) :
    CapInv L w s { l with reservations := l.reservations.update p f hf } where
  windows := h.windows
  nonneg := fun x hx => by
    obtain ⟨r, hr, rfl⟩ := (Table.mem_update hf).mp hx
    cases hp : p r with
    | false => exact h.nonneg r hr
    | true => exact h0 r hr hp
  cap := le_trans (Table.sumOn_update_le hf hc hle) h.cap

theorem capInv_delete (p : Reservation → Bool) :
    CapInv L w s { l with reservations := l.reservations.delete p } where
  windows := h.windows
  nonneg := fun x hx => h.nonneg x (Table.mem_delete.mp hx).1
  cap := le_trans (Table.sumOn_delete_le h.nonneg) h.cap

theorem capInv_freeExpired (now : Int) : CapInv L w s (l.freeExpired now) :=
  capInv_update h (fun _ => rfl) (fun _ _ _ => le_refl 0) fun r hr _ => h.nonneg r hr

theorem capInv_bindExpired (now : Int) : CapInv L w s (l.bindExpired now) :=
  capInv_update h (fun _ => rfl) (fun r hr _ => h.nonneg r hr) fun _ _ _ => le_refl _

theorem capInv_maintain (now : Int) : CapInv L w s (maintain now l) :=
  capInv_delete (capInv_bindExpired (capInv_freeExpired h now) now) _

theorem capInv_admitted {request : BudgetReserveRequest} {now : Int}
    (hcost : 0 ≤ request.costMicros) (hlimit : counted w (some s) (request.row now) = true →
      request.limitMicros ≤ L)
    (habsent : l.reservations.find? request.reservationId = none) (hroom : request.costMicros ≤
      max 0 (request.limitMicros - effectiveSpent l request.windowKey request.scopeKey)) :
    CapInv L w s (l.add (request.row now)) where
  windows := h.windows
  nonneg := fun r hr => by
    rcases (Table.mem_insert habsent).mp hr with rfl | hr
    · exact hcost
    · exact h.nonneg r hr
  cap := by
    have hcap := h.cap
    show (l.reservations.insert (request.row now)).sumOn _ _ ≤ L
    rw [Table.sumOn_insert habsent]
    split
    · rename_i hc
      have hseen : l.reservations.sumOn (counted w (some s)) (·.reservedMicros) ≤
          effectiveSpent l request.windowKey request.scopeKey := by
        rw [effectiveSpent_of_nonneg h.windows h.nonneg]
        exact Table.sumOn_mono h.nonneg fun r _ hr => counted_of_counted hc hr
      have hlim := hlimit hc
      show request.costMicros + _ ≤ L
      omega
    · omega

theorem capInv_settle {reservationId : String} {actual : Int} {r : Reservation}
    (hfound : l.reservations.find? reservationId = some r) (h0 : 0 ≤ actual)
    (hle : actual ≤ r.reservedMicros) : CapInv L w s (l.recordSettlement reservationId actual) := by
  refine capInv_update h (fun _ => rfl) (fun _ _ _ => h0) fun x hx hp => ?_
  -- the update touches the row found, and no other has its key
  have e : l.reservations.find? reservationId = some x := Table.find?_eq_some.mpr ⟨hx, by simpa using hp⟩
  rw [hfound] at e
  cases e
  exact hle

theorem capInv_step {now : Int} {a : Op × LedgerReply} {l' : Ledger}
    (hs : LimitedStep L w s now l a l') : CapInv L w s l' := by
  obtain ⟨op, reply⟩ := a
  obtain ⟨hlim, hexec⟩ := hs
  cases exec_effect hexec with
  | replayed | denied | recharged | read | refused => exact h
  | admitted absent room => exact capInv_admitted h hlim.1 (hlim.2 absent) absent room
  | dispatched =>
    exact capInv_update h (fun _ => rfl) (fun r hr _ => h.nonneg r hr) fun _ _ _ => le_refl _
  | settled found _ nonneg => exact capInv_settle h found nonneg (hlim _ _ found rfl)
  | charged => exact absurd hlim not_false
  | maintained => exact capInv_maintain h now

end

end Invariant

/-- **The hard budget cap**: whatever a run of reserves, dispatches, settlements, status reads and
    maintenance does, the total charged to the window stays at or below the limit. -/
theorem budget_cap {L : ℕ} {w s : String} {t₀ t : Int} {tr : List (Int × (Op × LedgerReply))}
    {l : Ledger} (h : Run (LimitedStep L w s) Ledger.empty t₀ tr t l) : effectiveSpent l w (some s) ≤ L := by
  have hinv : CapInv L w s l := h.invariant (capInv_empty (Int.natCast_nonneg L))
    fun _ _ _ _ _ _ hi hs => capInv_step hi hs
  rw [effectiveSpent_of_nonneg hinv.windows hinv.nonneg]
  exact hinv.cap

/-- A run under a limit of 5: a reserve of 3, its replay, its dispatch, a denied reserve of 4 without
    a scope, lease expiry and a settlement at 2. -/
theorem budget_cap_run : ∃ tr t l, Run (LimitedStep (5 : ℕ) "w" "s") Ledger.empty 0 tr t l ∧
    tr.length = 6 ∧ effectiveSpent l "w" (some "s") = 2 ∧ effectiveSpent l "w" (some "s") ≤ (5 : ℕ) := by
  let ask (scopeKey : Option String) (id : String) (cost : Int) : Op :=
    .reserve (fun _ => true) ⟨"p", "w", scopeKey, 5, cost, id, "llm.chat", false⟩
  have h0 : Run (LimitedStep (5 : ℕ) "w" "s") Ledger.empty 0 [] 0 Ledger.empty := .start
  have h1 := h0.next (le_refl 0) (limited_exec (ask (some "s") "a" 3) ⟨by decide, by decide⟩)
  have h2 := h1.next (le_refl 0) (limited_exec (ask (some "s") "a" 3) ⟨by decide, by decide⟩)
  have h3 := h2.next (by decide : (0 : Int) ≤ 1) (limited_exec (.dispatch "a") trivial)
  have h4 := h3.next (le_refl 1) (limited_exec (ask none "b" 4) ⟨by decide, by decide⟩)
  have h5 := h4.next (by decide : (1 : Int) ≤ 900000) (limited_exec .maintain trivial)
  have h6 := h5.next (le_refl 900000) (limited_exec (.settle ⟨"a", some 2⟩) (by
    intro r actual hr ha
    cases ha
    cases hr
    decide))
  exact ⟨_, _, _, h6, rfl, by decide, budget_cap h6⟩

/-! ## 3. What a budget is exceeded by -/

/-- What a step charges to the window beyond its reservation. -/
def excess (w s : String) (l : Ledger) : Op × LedgerReply → Int
  | (.settle request, .settled actual _) => (l.reservations.find? request.reservationId).elim 0 fun r =>
      if counted w (some s) r then max 0 (actual - r.reservedMicros) else 0
  | (.charge request, .charged _) =>
    if l.reservations.find? request.chargeId = none ∧ counted w (some s) (request.row 0 0) = true then
      request.amountMicros.getD 0
    else 0
  | _ => 0

/-- Settlements and charges of any amount; the reserves of the window keep to its limit. -/
def ReservesWithin (L : Int) (w s : String) (l : Ledger) (now : Int) : Op → Prop
  | .reserve fits request => WithinLimit L w s l now (.reserve fits request)
  | _ => True

/-- A step beside the excess of the run so far. -/
def ExceedingStep (L : Int) (w s : String) (now : Int) (state : Ledger × Int) (a : Op × LedgerReply)
    (state' : Ledger × Int) : Prop :=
  ReservesWithin L w s state.1 now a.1 ∧ Step now state.1 a state'.1 ∧ state'.2 = state.2 + excess w
    s state.1 a

section Excess

variable {L : Int} {w s : String} {l : Ledger}

theorem capInv_charge (h : CapInv L w s l) {row : Reservation} (h0 : 0 ≤ row.reservedMicros)
    (habsent : l.reservations.find? row.reservationId = none) :
    CapInv (L + if counted w (some s) row then row.reservedMicros else 0) w s (l.add row) where
  windows := h.windows
  nonneg := fun r hr => by
    rcases (Table.mem_insert habsent).mp hr with rfl | hr
    · exact h0
    · exact h.nonneg r hr
  cap := by
    have hcap := h.cap
    show (l.reservations.insert row).sumOn _ _ ≤ _
    rw [Table.sumOn_insert habsent]
    omega

/-- Only the row that is settled changes its share. -/
theorem capInv_overrun (h : CapInv L w s l) {reservationId : String} {actual : Int} {r : Reservation}
    (hfound : l.reservations.find? reservationId = some r) (h0 : 0 ≤ actual) :
    CapInv (L + if counted w (some s) r then max 0 (actual - r.reservedMicros) else 0) w s
      (l.recordSettlement reservationId actual) where
  windows := h.windows
  nonneg := fun x hx => by
    obtain ⟨y, hy, rfl⟩ := List.mem_map.mp hx
    split
    · exact h0
    · exact h.nonneg y hy
  cap := by
    have hcap := h.cap
    have hkey : r.reservationId = reservationId := (Table.find?_eq_some.mp hfound).2
    have hrest : (l.recordSettlement reservationId actual).reservations.sumOn
        (fun x => counted w (some s) x && x.reservationId ≠ reservationId) (·.reservedMicros) =
        l.reservations.sumOn (fun x => counted w (some s) x && x.reservationId ≠ reservationId)
          (·.reservedMicros) := by
      unfold Ledger.recordSettlement
      rw [Table.sumOn_update, Table.sumOn_eq, Table.sumOn_eq]
      refine congrArg List.sum (List.map_congr_left fun x _ => ?_)
      by_cases e : x.reservationId = reservationId <;> simp [e]
    have hshare : (l.recordSettlement reservationId actual).reservations.find? reservationId =
        some { r with reservedMicros := actual, settled := .final } := by
      unfold Ledger.recordSettlement
      rw [Table.find?_update, hfound, Option.map_some, if_pos (beq_iff_eq.mpr hkey)]
    rw [Table.sumOn_split _ reservationId, hrest, Table.shareOf, hshare]
    rw [Table.sumOn_split _ reservationId, Table.shareOf, hfound] at hcap
    change (if counted w (some s) r then actual else 0) + _ ≤ _
    change (if counted w (some s) r then r.reservedMicros else 0) + _ ≤ L at hcap
    split at hcap <;> rename_i hc
    · rw [if_pos hc, if_pos hc]
      omega
    · rw [if_neg hc, if_neg hc]
      omega

theorem excess_step {now x : Int} {a : Op × LedgerReply} {l' : Ledger} (h : CapInv (L + x) w s l) (hx : 0 ≤ x)
    (hlimited : ReservesWithin L w s l now a.1) (hs : Step now l a l') :
    0 ≤ excess w s l a ∧ CapInv (L + (x + excess w s l a)) w s l' := by
  obtain ⟨op, reply⟩ := a
  have hnone : excess w s l (op, reply) = 0 → CapInv (L + x) w s l' →
      0 ≤ excess w s l (op, reply) ∧ CapInv (L + (x + excess w s l (op, reply))) w s l' := by
    intro e h'
    rw [e, Int.add_zero]
    exact ⟨le_rfl, h'⟩
  cases exec_effect hs with
  | replayed | denied | read => exact hnone rfl h
  | admitted absent room =>
    exact hnone rfl (capInv_admitted h hlimited.1
      (fun hc => by have hle := hlimited.2 absent hc; omega) absent room)
  | dispatched =>
    exact hnone rfl (capInv_update h (fun _ => rfl) (fun r hr _ => h.nonneg r hr) fun _ _ _ => le_refl _)
  | maintained => exact hnone rfl (capInv_maintain h now)
  | recharged found =>
    refine hnone (if_neg fun e => ?_) h
    cases found.symm.trans e.1
  | refused _ rejected =>
    refine hnone ?_ h
    cases reply with
    | error => cases op <;> rfl
    | _ => cases rejected
  | @settled id actual r found _ nonneg =>
    have e : excess w s l (.settle ⟨id, some actual⟩, .settled actual (max 0 (effectiveSpent l r.windowKey
        r.budgetScopeKey - r.reservedMicros) + actual)) =
        if counted w (some s) r then max 0 (actual - r.reservedMicros) else 0 := by
      simp only [excess, found, Option.elim_some]
    rw [e, ← Int.add_assoc]
    exact ⟨by split <;> omega, capInv_overrun h found nonneg⟩
  | @charged request amount hamount nonneg absent =>
    have e : excess w s l (.charge request, .charged request.chargeId) =
        if counted w (some s) (request.row amount now) then amount else 0 := by
      simp only [excess, absent, hamount, true_and, Option.getD_some]
      rfl
    have hcharged : CapInv _ w s (l.add (request.row amount now)) := capInv_charge h nonneg absent
    rw [e, ← Int.add_assoc]
    exact ⟨by split <;> omega, hcharged⟩

end Excess

/-- **A budget is exceeded by what was charged beyond reservations, and by no more**: along a run of
    any operations, the
    total is at most the limit, what settlements took above their reservations and what charges took. -/
theorem budget_excess {L : ℕ} {w s : String} {t₀ t x : Int} {tr : List (Int × (Op × LedgerReply))}
    {l : Ledger}
    (h : Run (ExceedingStep L w s) (Ledger.empty, 0) t₀ tr t (l, x)) :
    0 ≤ x ∧ effectiveSpent l w (some s) ≤ L + x := by
  have hinv : 0 ≤ x ∧ CapInv (L + x) w s l := by
    refine h.invariant (I := fun _ state => 0 ≤ state.2 ∧ CapInv (L + state.2) w s state.1)
      ⟨le_rfl, capInv_empty (by simp)⟩ ?_
    rintro t t' ⟨l, x⟩ a ⟨l', x'⟩ - ⟨hx, hinv⟩ ⟨hlimited, hstep, hx'⟩
    obtain ⟨hexcess, hinv'⟩ := excess_step hinv hx hlimited hstep
    dsimp only at hx' ⊢
    rw [hx']
    exact ⟨Int.add_nonneg hx hexcess, hinv'⟩
  refine ⟨hinv.1, ?_⟩
  rw [effectiveSpent_of_nonneg hinv.2.windows hinv.2.nonneg]
  exact hinv.2.cap

theorem exceeding_exec {L : Int} {w s : String} {l : Ledger} {now x : Int} (op : Op)
    (h : ReservesWithin L w s l now op) :
    ExceedingStep L w s now (l, x) (op, (exec now l op).2)
      ((exec now l op).1, x + excess w s l (op, (exec now l op).2)) :=
  ⟨h, rfl, rfl⟩

/-- A reserve of 3 that is settled at 7, under a limit of 5. -/
theorem budget_excess_run : ∃ tr t l x, Run (ExceedingStep (5 : ℕ) "w" "s") (Ledger.empty, 0) 0 tr t (l, x) ∧
    x = 4 ∧ effectiveSpent l "w" (some "s") = 7 ∧ effectiveSpent l "w" (some "s") ≤ (5 : ℕ) + x := by
  have h0 : Run (ExceedingStep (5 : ℕ) "w" "s") (Ledger.empty, 0) 0 [] 0 (Ledger.empty, 0) := .start
  have h1 := h0.next (le_refl 0) (exceeding_exec
    (.reserve (fun _ => true) ⟨"p", "w", some "s", 5, 3, "a", "llm.chat", true⟩)
    ⟨by decide, by decide⟩)
  have h2 := h1.next (le_refl 0) (exceeding_exec (.settle ⟨"a", some 7⟩) trivial)
  exact ⟨_, _, _, _, h2, by decide, by decide, (budget_excess h2).2⟩

end ClawRouter.Budget
