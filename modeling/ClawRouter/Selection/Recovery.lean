/-
  Subject:   The time at which a pool says it recovers (`poolRetryAt` of src/worker/grant-eligibility.ts), and what
             the pool does offer while the clock goes on and its states stay.

  Waiting ends a cooldown and resets a window, and does so once: of these two the announced time
  is right. Three things are not looked at when it is announced: a credential whose refresh margin
  begins meanwhile, a token that expires meanwhile, and a stale grant that is fresh again when the
  window whose observation was out of date has been reset (there is no other way: `fresh_again`).

  * **`announced_honest_iff`**: it is honest exactly when these do not decide.
-/
import ClawRouter.Selection.Eligibility
import Mathlib.Data.Int.LeastGreatest

namespace ClawRouter.Selection

variable {a now t : Int}

section Recovery

variable {Bindings : Type} (W : Surroundings Bindings)

/-- What a request brings to a pool, and the pool. -/
structure PoolRequest (Bindings : Type) where
  requirement : GrantRequirement
  candidates : List (PoolCandidate Bindings × Option GrantRuntimeState)
  excludedKeys : List String
  routing : GrantRoutingPolicy
  pinnedKey : Pin

variable (R : PoolRequest Bindings)

namespace PoolRequest

def configured : List (SelectedGrant Bindings) := configuredGrants R.requirement.provider.id R.candidates

def filtered (now : Int) : GrantCandidates Bindings :=
  filterGrantCandidates W R.requirement R.candidates R.excludedKeys R.routing R.pinnedKey now

/-- The candidates that `filterGrantCandidates` offers for the operation. -/
def offered (now : Int) : List (SelectedGrant Bindings) :=
  (R.filtered W now).available.filter fun e => W.operationConfigured R.requirement now e.grant

def announced (now : Int) : Option Int := poolRetryAt W R.requirement now (R.filtered W now)

def standing (now : Int) (e : SelectedGrant Bindings) : Standing :=
  Selection.standing W R.requirement R.excludedKeys R.routing R.pinnedKey now e

/-! ## 1. What time changes -/

def refreshBlocked (now : Int) (e : SelectedGrant Bindings) : Bool :=
  R.pinnedKey = .free && grantRefreshBlocked e.grant now

/-- An observation that is not fresh, where those are denied. -/
def stale (now : Int) (e : SelectedGrant Bindings) : Bool :=
  R.routing.denyStale && !grantRuntimeFresh W.toLowerCase e.runtimeState
    (R.routing.staleAfterSeconds * 1000) now
    R.requirement.model

/-- The grant is not for the operation, or stale. -/
def unfit (now : Int) (e : SelectedGrant Bindings) : Bool :=
  !W.grantSupports R.requirement now e.grant || !W.operationConfigured R.requirement now e.grant ||
    R.stale W now e

def shut (e : SelectedGrant Bindings) : Bool :=
  (R.pinnedKey ≠ .free && R.pinnedKey ≠ .grant e.key) || R.excludedKeys.contains e.key ||
    (R.routing.eligibleGrants R.requirement.provider.id).any fun refs =>
      !(scopeTokenRef e.key).any fun tokenRef => refs.contains tokenRef

def reserve (e : SelectedGrant Bindings) : Float :=
  if e.grant.kind = "subscription" then R.routing.includedQuotaReservePercent else 0

def exhausting (now : Int) (e : SelectedGrant Bindings) : List QuotaWindow :=
  exhaustingWindows W.toLowerCase e.runtimeState R.requirement.model (R.reserve e)
    (e.grant.kind = "subscription") now

def clear (now : Int) (e : SelectedGrant Bindings) : Bool :=
  !grantCoolingDown e.runtimeState now && !!(R.exhausting W now e).isEmpty

def authenticationCooldown (now : Int) (e : SelectedGrant Bindings) : Bool :=
  grantCoolingDown e.runtimeState now && e.runtimeState.any fun s => s.lastSignal = .authentication

def usable (now : Int) (e : SelectedGrant Bindings) : Bool :=
  !R.shut e && !R.refreshBlocked now e && !R.unfit W now e && R.clear W now e

def barred (now : Int) (e : SelectedGrant Bindings) : Bool :=
  Selection.barred W R.requirement R.excludedKeys R.routing R.pinnedKey now e

/-- When the last of the cooldown and the windows ends, if each says when. -/
def lastEnd (now : Int) (e : SelectedGrant Bindings) : Option Int :=
  (if !(R.exhausting W now e).isEmpty then
    grantQuotaResetAt W.toLowerCase e.runtimeState R.requirement.model (R.reserve e)
      (e.grant.kind = "subscription") now
  else some 0).map (max · (if grantCoolingDown e.runtimeState now then
    (e.runtimeState.bind (·.cooldownUntil)).getD 0 else 0))

theorem barred_eq (now : Int) (e : SelectedGrant Bindings) :
    (R.barred W now e || !W.operationConfigured R.requirement now e.grant) =
      (R.shut e || R.refreshBlocked now e || R.unfit W now e) := by
  unfold barred Selection.barred shut refreshBlocked unfit stale
  ac_rfl

theorem standing_eq (now : Int) (e : SelectedGrant Bindings) :
    R.standing W now e = if R.barred W now e then .out
    else if R.clear W now e then .available
    else if authenticationCooldown now e then .out
    else
      match R.lastEnd W now e with
      | none => .out
      | some atMs =>
        if !R.routing.denyStale || grantRuntimeFresh W.toLowerCase e.runtimeState
          (R.routing.staleAfterSeconds * 1000) atMs
            R.requirement.model then .recovering atMs
        else .out := rfl

theorem standing_available {e : SelectedGrant Bindings} :
    R.standing W now e = .available ↔ R.barred W now e = false ∧ R.clear W now e = true := by
  unfold standing barred clear exhausting
  rw [Selection.standing_available, Bool.and_eq_true, Bool.not_eq_true', Bool.not_not]
  unfold grantQuotaExhausted reserve
  rw [Bool.not_eq_false']

theorem mem_offered {e : SelectedGrant Bindings} :
    e ∈ R.offered W now ↔ e ∈ R.configured ∧ R.usable W now e = true := by
  have havailable : (R.standing W now e = .available ∧ W.operationConfigured R.requirement now
    e.grant = true) ↔
      R.usable W now e = true := by
    rw [standing_available, usable, ← Bool.not_or, ← Bool.not_or, ← barred_eq]
    cases R.barred W now e <;> cases W.operationConfigured R.requirement now e.grant <;> simp
  unfold offered filtered filterGrantCandidates
  rw [List.mem_filter, List.mem_filter, decide_eq_true_eq, and_assoc]
  exact and_congr Iff.rfl havailable

/-! ## 2. Waiting ends a cooldown and resets a window -/

theorem open_earlier {w : QuotaWindow} {s : Int} (h : s ≤ t) (hopen : w.open t = true) : w.open s = true := by
  unfold QuotaWindow.open at hopen ⊢
  cases hreset : w.resetAt with
  | none => rfl
  | some at_ =>
    rw [hreset] at hopen
    have hlt : t < at_ := of_decide_eq_true hopen
    exact decide_eq_true (h.trans_lt hlt)

theorem mem_exhausting {s : Int} (h : s ≤ t) {e : SelectedGrant Bindings} {w : QuotaWindow} :
    w ∈ R.exhausting W t e ↔ w ∈ R.exhausting W s e ∧ w.open t = true := by
  unfold exhausting exhaustingWindows
  rw [List.mem_filter, List.mem_filter]
  constructor
  · rintro ⟨hin, hall⟩
    rw [Bool.and_eq_true, Bool.and_eq_true] at hall
    obtain ⟨⟨happlies, hopen⟩, hlow⟩ := hall
    refine ⟨⟨hin, ?_⟩, hopen⟩
    rw [Bool.and_eq_true, Bool.and_eq_true]
    exact ⟨⟨happlies, open_earlier h hopen⟩, hlow⟩
  · rintro ⟨⟨hin, hall⟩, hopen⟩
    rw [Bool.and_eq_true, Bool.and_eq_true] at hall
    refine ⟨hin, ?_⟩
    rw [Bool.and_eq_true, Bool.and_eq_true]
    exact ⟨⟨hall.1.1, hopen⟩, hall.2⟩

theorem clear_def {e : SelectedGrant Bindings} :
    R.clear W t e = true ↔ grantCoolingDown e.runtimeState t = false ∧ R.exhausting W t e = [] := by
  unfold clear
  rw [Bool.and_eq_true, Bool.not_eq_true', Bool.not_not, List.isEmpty_iff]

/-- **Clear at a later time**: the cooldown is over and every window that exhausts the grant now is reset. -/
theorem clear_iff (h : now ≤ t) {e : SelectedGrant Bindings} :
    R.clear W t e = true ↔ grantCoolingDown e.runtimeState t = false ∧
      ∀ w ∈ R.exhausting W now e, ∃ at_, w.resetAt = some at_ ∧ at_ ≤ t := by
  have hclosed : ∀ w : QuotaWindow, w.open t = false ↔ ∃ at_, w.resetAt = some at_ ∧ at_ ≤ t := by
    intro w
    unfold QuotaWindow.open
    cases w.resetAt with
    | none => exact iff_of_false nofun nofun
    | some at_ => simp
  rw [clear_def, List.eq_nil_iff_forall_not_mem]
  refine and_congr Iff.rfl ⟨fun hnone w hin => (hclosed w).mp ?_, fun hall w hin => ?_⟩
  · cases hopen : w.open t with
    | false => rfl
    | true => exact absurd ((R.mem_exhausting W h).mpr ⟨hin, hopen⟩) (hnone w)
  · obtain ⟨hbefore, hopen⟩ := (R.mem_exhausting W h).mp hin
    rw [(hclosed w).mpr (hall w hbefore)] at hopen
    cases hopen

theorem resetAt_spec {e : SelectedGrant Bindings} :
    grantQuotaResetAt W.toLowerCase e.runtimeState R.requirement.model (R.reserve e)
      (e.grant.kind = "subscription") now =
      some a ↔ (∀ w ∈ R.exhausting W now e, ∃ at_, w.resetAt = some at_ ∧ at_ ≤ a) ∧
        ∃ w ∈ R.exhausting W now e, w.resetAt = some a := by
  change (if ((R.exhausting W now e).map (·.resetAt)).all (·.isSome) = true then
    (((R.exhausting W now e).map (·.resetAt)).filterMap id).max? else none) = some a ↔ _
  have hmem : ∀ b, b ∈ ((R.exhausting W now e).map (·.resetAt)).filterMap id ↔
      ∃ w ∈ R.exhausting W now e, w.resetAt = some b := by
    intro b
    rw [List.mem_filterMap]
    constructor
    · rintro ⟨reset, hin, hsome⟩
      obtain ⟨w, hw, rfl⟩ := List.mem_map.mp hin
      exact ⟨w, hw, hsome⟩
    · rintro ⟨w, hw, hsome⟩
      exact ⟨w.resetAt, List.mem_map_of_mem hw, hsome⟩
  split
  · rename_i hall
    rw [List.max?_eq_some_iff, hmem]
    constructor
    · rintro ⟨hlast, hmax⟩
      refine ⟨fun w hw => ?_, hlast⟩
      have hsome := List.all_eq_true.mp hall w.resetAt (List.mem_map_of_mem hw)
      obtain ⟨at_, hat⟩ := Option.isSome_iff_exists.mp hsome
      exact ⟨at_, hat, hmax at_ ((hmem at_).mpr ⟨w, hw, hat⟩)⟩
    · rintro ⟨hall, hlast⟩
      refine ⟨hlast, fun b hb => ?_⟩
      obtain ⟨w, hw, hreset⟩ := (hmem b).mp hb
      obtain ⟨at_, hat, hle⟩ := hall w hw
      rw [hreset] at hat
      cases hat
      exact hle
  · rename_i hsome
    refine iff_of_false nofun fun h => hsome (List.all_eq_true.mpr fun reset hin => ?_)
    obtain ⟨w, hw, rfl⟩ := List.mem_map.mp hin
    obtain ⟨at_, hat, -⟩ := h.1 w hw
    rw [hat]
    rfl

theorem resetAt_some {e : SelectedGrant Bindings} (hsome : R.exhausting W now e ≠ [])
    (hall : ∀ w ∈ R.exhausting W now e, ∃ at_, w.resetAt = some at_) :
    ∃ a, grantQuotaResetAt W.toLowerCase e.runtimeState R.requirement.model (R.reserve e)
      (e.grant.kind = "subscription") now = some a := by
  change ∃ a, (if ((R.exhausting W now e).map (·.resetAt)).all (·.isSome) = true then
    (((R.exhausting W now e).map (·.resetAt)).filterMap id).max? else none) = some a
  rw [if_pos]
  · obtain ⟨w, hin⟩ := List.exists_mem_of_ne_nil _ hsome
    obtain ⟨at_, hat⟩ := hall w hin
    refine Option.ne_none_iff_exists'.mp fun hnone => ?_
    have hmem : at_ ∈ ((R.exhausting W now e).map (·.resetAt)).filterMap id :=
      List.mem_filterMap.mpr ⟨w.resetAt, List.mem_map_of_mem hin, hat⟩
    rw [List.max?_eq_none_iff.mp hnone] at hmem
    cases hmem
  · refine List.all_eq_true.mpr fun reset hin => ?_
    obtain ⟨w, hw, rfl⟩ := List.mem_map.mp hin
    obtain ⟨at_, hat⟩ := hall w hw
    rw [hat]
    rfl

theorem cooling_later {state : Option GrantRuntimeState} (h : now ≤ t) : grantCoolingDown state t = false ↔
      (grantCoolingDown state now = true → (state.bind (·.cooldownUntil)).getD 0 ≤ t) := by
  unfold grantCoolingDown
  cases state with
  | none => simp
  | some s =>
    cases hcooldown : s.cooldownUntil with
    | none => simp [hcooldown]
    | some until_ =>
      simp only [Option.any_some, Option.bind_some, hcooldown, Option.getD_some,
        decide_eq_false_iff_not, decide_eq_true_eq]
      omega

/-- What keeps the grant out now, a cooldown or exhausting windows, is over at `a` and not before. -/
structure Lifts (now : Int) (e : SelectedGrant Bindings) (a : Int) : Prop where
  cooldown : grantCoolingDown e.runtimeState now = true →
    (e.runtimeState.bind (·.cooldownUntil)).getD 0 ≤ a
  resets : ∀ w ∈ R.exhausting W now e, ∃ at_, w.resetAt = some at_ ∧ at_ ≤ a
  last : (grantCoolingDown e.runtimeState now = true ∧
      (e.runtimeState.bind (·.cooldownUntil)).getD 0 = a) ∨
    ∃ w ∈ R.exhausting W now e, w.resetAt = some a

theorem cooling_until {state : Option GrantRuntimeState} (h : grantCoolingDown state now = true) :
    now < (state.bind (·.cooldownUntil)).getD 0 := by
  by_contra hle
  have hover := (cooling_later (le_refl now)).mpr fun _ => not_lt.mp hle
  rw [h] at hover
  cases hover

theorem reset_later {e : SelectedGrant Bindings} {w : QuotaWindow} (hin : w ∈ R.exhausting W now e)
    (hat : w.resetAt = some a) : now < a := by
  have hstill := ((R.mem_exhausting W (le_refl now)).mp hin).2
  unfold QuotaWindow.open at hstill
  rw [hat] at hstill
  exact of_decide_eq_true hstill

theorem Lifts.later {W : Surroundings Bindings} {R : PoolRequest Bindings} {e : SelectedGrant Bindings}
    (h : R.Lifts W now e a) : now < a := by
  rcases h.last with ⟨hcooling, rfl⟩ | ⟨w, hin, hat⟩
  · exact cooling_until hcooling
  · exact R.reset_later W hin hat

/-- **It is clear at `a` and from then on, and at no time before.** -/
theorem Lifts.clear_iff {W : Surroundings Bindings} {R : PoolRequest Bindings}
    {e : SelectedGrant Bindings} (h : R.Lifts W now e a) (hnow : now ≤ t) :
    R.clear W t e = true ↔ a ≤ t := by
  rw [R.clear_iff W hnow, cooling_later hnow]
  constructor
  · rintro ⟨hover, hreset⟩
    rcases h.last with ⟨hcooling, rfl⟩ | ⟨w, hin, hat⟩
    · exact hover hcooling
    · obtain ⟨at_, hat', hle⟩ := hreset w hin
      rw [hat] at hat'
      cases hat'
      exact hle
  · intro hle
    exact ⟨fun hcooling => (h.cooldown hcooling).trans hle, fun w hin =>
      (h.resets w hin).imp fun at_ hat => ⟨hat.1, hat.2.trans hle⟩⟩

theorem lastEnd_iff (hnow : 0 ≤ now) {e : SelectedGrant Bindings}
    (hblocked : R.clear W now e = false) : R.lastEnd W now e = some a ↔ R.Lifts W now e a := by
  unfold lastEnd
  cases hempty : (R.exhausting W now e).isEmpty with
  | true =>
    have hnil := List.isEmpty_iff.mp hempty
    have hcooling : grantCoolingDown e.runtimeState now = true := by
      unfold clear at hblocked
      rw [hempty] at hblocked
      simpa using hblocked
    have hlater := cooling_until hcooling
    rw [Bool.not_true, if_neg Bool.false_ne_true, if_pos hcooling, Option.map_some,
      max_eq_right (hnow.trans hlater.le), Option.some_inj]
    constructor
    · rintro rfl
      refine ⟨fun _ => le_rfl, fun w hin => ?_, .inl ⟨hcooling, rfl⟩⟩
      rw [hnil] at hin
      cases hin
    · rintro h
      rcases h.last with ⟨-, hend⟩ | ⟨w, hin, -⟩
      · exact hend
      · rw [hnil] at hin
        cases hin
  | false =>
    rw [Bool.not_false, if_pos rfl, Option.map_eq_some_iff]
    constructor
    · rintro ⟨r, hr, rfl⟩
      obtain ⟨hall, w, hin, hat⟩ := (R.resetAt_spec W).mp hr
      refine ⟨fun hcooling => ?_, fun w hin => ?_, ?_⟩
      · rw [if_pos hcooling]
        exact le_max_right _ _
      · exact (hall w hin).imp fun at_ h => ⟨h.1, h.2.trans (le_max_left _ _)⟩
      · have hlater := R.reset_later W hin hat
        split
        · rename_i hcooling
          rcases max_choice r ((e.runtimeState.bind (·.cooldownUntil)).getD 0) with hmax | hmax
          · exact .inr ⟨w, hin, by rw [hmax]; exact hat⟩
          · exact .inl ⟨hcooling, hmax.symm⟩
        · exact .inr ⟨w, hin, by rw [max_eq_left (hnow.trans hlater.le)]; exact hat⟩
    · intro h
      obtain ⟨r, hr⟩ := R.resetAt_some W (List.isEmpty_eq_false_iff.mp hempty)
        fun w hin => (h.resets w hin).imp fun at_ h => h.1
      obtain ⟨hall, w, hin, hat⟩ := (R.resetAt_spec W).mp hr
      have hra : r ≤ a := by
        obtain ⟨at_, hat', hle⟩ := h.resets w hin
        rw [hat] at hat'
        cases hat'
        exact hle
      refine ⟨r, hr, le_antisymm (max_le hra ?_) ?_⟩
      · split
        · rename_i hcooling
          exact h.cooldown hcooling
        · exact hnow.trans h.later.le
      · rcases h.last with ⟨hcooling, hend⟩ | ⟨w', hin', hat'⟩
        · rw [if_pos hcooling, hend]
          exact le_max_right _ _
        · obtain ⟨at_, hat'', hle⟩ := hall w' hin'
          rw [hat'] at hat''
          cases hat''
          exact hle.trans (le_max_left _ _)

theorem lifts_some (hnow : 0 ≤ now) {e : SelectedGrant Bindings}
    (hblocked : R.clear W now e = false)
    (hall : ∀ w ∈ R.exhausting W now e, ∃ at_, w.resetAt = some at_) : ∃ a, R.Lifts W now e a := by
  have hends : ∃ b, R.lastEnd W now e = some b := by
    unfold lastEnd
    cases hempty : (R.exhausting W now e).isEmpty with
    | true => exact ⟨_, rfl⟩
    | false =>
      obtain ⟨r, hr⟩ := R.resetAt_some W (List.isEmpty_eq_false_iff.mp hempty) hall
      rw [Bool.not_false, if_pos rfl, hr]
      exact ⟨_, rfl⟩
  exact hends.imp fun b => (R.lastEnd_iff W hnow hblocked).mp

/-! ## 3. What is announced -/

/-- The grant recovers at `a`: nothing but a cooldown or windows keep it out, and these are over
    then, with an observation that is still fresh. -/
structure Recovers (now : Int) (e : SelectedGrant Bindings) (a : Int) : Prop where
  free : R.shut e = false ∧ R.refreshBlocked now e = false ∧ R.unfit W now e = false
  kept : R.clear W now e = false ∧ authenticationCooldown now e = false
  lifts : R.Lifts W now e a
  fresh : R.stale W a e = false

theorem standing_recovering (hnow : 0 ≤ now) {e : SelectedGrant Bindings} :
    R.standing W now e = .recovering a ∧ W.operationConfigured R.requirement now e.grant = true ↔
      R.Recovers W now e a := by
  have hfree : R.barred W now e = false ∧ W.operationConfigured R.requirement now e.grant = true ↔
      R.shut e = false ∧ R.refreshBlocked now e = false ∧ R.unfit W now e = false := by
    have hbarred := R.barred_eq W now e
    rw [← and_assoc, ← Bool.or_eq_false_iff, ← Bool.or_eq_false_iff, ← hbarred,
      Bool.or_eq_false_iff, Bool.not_eq_false']
  have hstale : ∀ b, (!R.routing.denyStale || grantRuntimeFresh W.toLowerCase e.runtimeState
      (R.routing.staleAfterSeconds * 1000) b R.requirement.model) = !R.stale W b e := by
    intro b
    unfold stale
    rw [Bool.not_and, Bool.not_not]
  rw [standing_eq]
  constructor
  · rintro ⟨hstanding, hconfigured⟩
    split at hstanding
    · cases hstanding
    · rename_i hbarred
      split at hstanding
      · cases hstanding
      · rename_i hclear
        split at hstanding
        · cases hstanding
        · rename_i hauthentication
          split at hstanding
          · cases hstanding
          · rename_i b hends
            split at hstanding
            · rename_i hfresh
              cases hstanding
              have hclear := Bool.eq_false_iff.mpr hclear
              rw [hstale, Bool.not_eq_true'] at hfresh
              exact ⟨hfree.mp ⟨Bool.eq_false_iff.mpr hbarred, hconfigured⟩,
                ⟨hclear, Bool.eq_false_iff.mpr hauthentication⟩,
                (R.lastEnd_iff W hnow hclear).mp hends, hfresh⟩
            · cases hstanding
  · intro h
    obtain ⟨hbarred, hconfigured⟩ := hfree.mpr h.free
    refine ⟨?_, hconfigured⟩
    rw [hbarred, if_neg Bool.false_ne_true, h.kept.1, if_neg Bool.false_ne_true, h.kept.2,
      if_neg Bool.false_ne_true,
      (R.lastEnd_iff W hnow h.kept.1).mpr h.lifts]
    dsimp only
    rw [hstale, h.fresh]
    rfl

/-- The first of the instants at which a grant recovers. -/
def FirstRecovery (now a : Int) : Prop :=
  (∃ e ∈ R.configured, R.Recovers W now e a) ∧ ∀ e ∈ R.configured, ∀ b, R.Recovers W now e b → a ≤ b

theorem mem_recovering (hnow : 0 ≤ now) :
    a ∈ (((R.filtered W now).recovering.filter fun r => W.operationConfigured R.requirement now
      r.entry.grant).map (·.atMs)) ↔
      ∃ e ∈ R.configured, R.Recovers W now e a := by
  rw [List.mem_map]
  constructor
  · rintro ⟨r, hin, rfl⟩
    obtain ⟨hin, hconfigured⟩ := List.mem_filter.mp hin
    obtain ⟨e, he, hr⟩ := List.mem_filterMap.mp hin
    split at hr
    · rename_i atMs hstanding
      cases hr
      exact ⟨e, he, (R.standing_recovering W hnow).mp ⟨hstanding, hconfigured⟩⟩
    · cases hr
  · rintro ⟨e, he, hrecovers⟩
    obtain ⟨hstanding, hconfigured⟩ := (R.standing_recovering W hnow).mpr hrecovers
    refine ⟨⟨e, a⟩, List.mem_filter.mpr ⟨List.mem_filterMap.mpr ⟨e, he, ?_⟩, hconfigured⟩, rfl⟩
    unfold standing at hstanding
    dsimp only
    rw [hstanding]

theorem announced_first (hnow : 0 ≤ now) : R.announced W now = some a ↔ R.FirstRecovery W now a := by
  unfold announced poolRetryAt
  rw [List.min?_eq_some_iff]
  refine and_congr (R.mem_recovering W hnow) ⟨fun h e he b hb => h b
    ((R.mem_recovering W hnow).mpr ⟨e, he, hb⟩), fun h b hb => ?_⟩
  obtain ⟨e, he, hb⟩ := (R.mem_recovering W hnow).mp hb
  exact h e he b hb

theorem announced_none (hnow : 0 ≤ now) :
    R.announced W now = none ↔ ∀ e ∈ R.configured, ∀ a, ¬ R.Recovers W now e a := by
  unfold announced poolRetryAt
  rw [List.min?_eq_none_iff, List.eq_nil_iff_forall_not_mem]
  constructor
  · intro h e he a ha
    exact h a ((R.mem_recovering W hnow).mpr ⟨e, he, ha⟩)
  · intro h a ha
    obtain ⟨e, he, ha⟩ := (R.mem_recovering W hnow).mp ha
    exact h e he a ha

/-! ## 4. Honest announcements -/

/-- Excluded now by an authentication cooldown or a refresh block. -/
def excused (now : Int) (e : SelectedGrant Bindings) : Bool :=
  R.refreshBlocked now e || authenticationCooldown now e

/-- **An honest announcement**: at the time that is announced a candidate is offered, and before it
    (at any time,
    where none is announced) no other than an excused one. -/
structure Honest (now : Int) : Prop where
  offers : ∀ a, R.announced W now = some a → R.offered W a ≠ []
  before : ∀ t, now ≤ t → (∀ a, R.announced W now = some a → t < a) → ∀ e ∈ R.offered W t,
    R.excused now e = true

/-- **Ready at a time**: nothing the code looks at then keeps the grant out. -/
structure Ready (t : Int) (e : SelectedGrant Bindings) : Prop where
  shut : R.shut e = false
  refresh : R.refreshBlocked t e = false
  supported : W.grantSupports R.requirement t e.grant = true
  configured : W.operationConfigured R.requirement t e.grant = true
  fresh : R.stale W t e = false
  clear : R.clear W t e = true

theorem usable_iff {e : SelectedGrant Bindings} : R.usable W t e = true ↔ R.Ready W t e := by
  have hfields : R.usable W t e = true ↔ R.shut e = false ∧ R.refreshBlocked t e = false ∧
      W.grantSupports R.requirement t e.grant = true ∧
        W.operationConfigured R.requirement t e.grant = true ∧ R.stale W t e = false ∧
          R.clear W t e = true := by
    simp [usable, unfit, and_assoc]
  rw [hfields]
  exact ⟨fun ⟨a, b, c, d, e, f⟩ => ⟨a, b, c, d, e, f⟩, fun ⟨a, b, c, d, e, f⟩ => ⟨a, b, c, d, e, f⟩⟩

/-- The observation of a window that applies was out of date when the window was reset, after `now`
    and by `t`. -/
def Lapses (now t : Int) (e : SelectedGrant Bindings) : Prop :=
  R.routing.denyStale = true ∧ ∃ state, e.runtimeState = some state ∧ ∃ w ∈ state.windows,
    windowApplies W.toLowerCase w R.requirement.model = true ∧
      ∃ at_, w.resetAt = some at_ ∧ now < at_ ∧ at_ ≤ t ∧
        w.observedAt.getD state.observedAt + R.routing.staleAfterSeconds * 1000 < at_

/-- An instant that the data of the grant names: its cooldown ends, one of its windows is reset, or
    its refresh may be tried again. -/
def Turns (e : SelectedGrant Bindings) (t : Int) : Prop :=
  (∃ state, e.runtimeState = some state ∧
    (state.cooldownUntil = some t ∨ ∃ w ∈ state.windows, w.resetAt = some t)) ∨
    e.grant.refreshBlock = .wait (some t)

/-- The refresh margin of a credential that may not be refreshed begins after `now` and by `t`. -/
def MarginBegins (now t : Int) (e : SelectedGrant Bindings) : Prop :=
  R.pinnedKey = .free ∧ e.grant.durable = true ∧ e.grant.hasRefreshToken = true ∧
    ∃ until_ expires, e.grant.refreshBlock = .wait (some until_) ∧ t < until_ ∧
      e.grant.expiresAt = some (some expires) ∧ now + refreshMarginMs < expires ∧
        expires ≤ t + refreshMarginMs

/-- What the announced time leaves out does not decide. -/
structure Undisturbed (now : Int) : Prop where
  /-- Of the candidates that recover first one has its refresh margin not begun by then and is still
      for the operation; or one is ready at that instant that was excused, or stale until a window
      was reset. -/
  dispatches : ∀ a, R.FirstRecovery W now a →
    (∃ e ∈ R.configured, R.Recovers W now e a ∧ ¬ R.MarginBegins now a e ∧
      W.grantSupports R.requirement a e.grant = true ∧
        W.operationConfigured R.requirement a e.grant = true) ∨
      ∃ e ∈ R.configured, (R.excused now e = true ∨ R.Lapses W now a e) ∧ R.Ready W a e
  /-- No other candidate that was stale until a window was reset is ready before, at an instant its
      own data names. -/
  readmits : ∀ e ∈ R.configured, R.excused now e = false → ∀ t, Turns e t → now < t →
    (∀ a, R.FirstRecovery W now a → t < a) → R.Lapses W now t e → ¬ R.Ready W t e

/-- Support ends and does not begin while the clock goes on: of what decides it only the expiry of a
    token reads the clock. -/
structure Expiring : Prop where
  supports : ∀ {s t : Int} {grant : PoolGrant Bindings}, s ≤ t →
    W.grantSupports R.requirement t grant = true → W.grantSupports R.requirement s grant = true
  configured : ∀ {s t : Int} {grant : PoolGrant Bindings}, s ≤ t →
    W.operationConfigured R.requirement t grant = true →
      W.operationConfigured R.requirement s grant = true

theorem refreshBlocked_iff {e : SelectedGrant Bindings} : R.refreshBlocked t e = true ↔
    R.pinnedKey = .free ∧ e.grant.durable = true ∧ (e.grant.refreshBlock = .uncertain ∨
      e.grant.hasRefreshToken = true ∧ ∃ until_ expires, e.grant.refreshBlock = .wait (some until_) ∧
        t < until_ ∧ e.grant.expiresAt = some (some expires) ∧ expires ≤ t + refreshMarginMs) := by
  unfold refreshBlocked grantRefreshBlocked
  rw [Bool.and_eq_true, Bool.and_eq_true, decide_eq_true_eq]
  refine and_congr Iff.rfl (and_congr Iff.rfl ?_)
  cases e.grant.refreshBlock with
  | ready => simp
  | uncertain => simp
  | wait until_ =>
    rcases until_ with _ | until_
    · simp
    rcases e.grant.expiresAt with _ | _ | expires
    · simp
    · simp
    · simp
      tauto

theorem refresh_begins {e : SelectedGrant Bindings} (h : now ≤ t)
    (hnow : R.refreshBlocked now e = false) :
    R.refreshBlocked t e = true ↔ R.MarginBegins now t e := by
  have hnow := Bool.eq_false_iff.mp hnow
  rw [ne_eq, refreshBlocked_iff] at hnow
  rw [refreshBlocked_iff]
  constructor
  · rintro ⟨hpin, hdurable, huncertain | ⟨htoken, until_, expires, hblock, hlt, hexpires, hle⟩⟩
    · exact absurd ⟨hpin, hdurable, .inl huncertain⟩ hnow
    · refine ⟨hpin, hdurable, htoken, until_, expires, hblock, hlt, hexpires, ?_, hle⟩
      by_contra hbegun
      exact hnow ⟨hpin, hdurable, .inr ⟨htoken, until_, expires, hblock, h.trans_lt hlt, hexpires,
        not_lt.mp hbegun⟩⟩
  · rintro ⟨hpin, hdurable, htoken, until_, expires, hblock, hlt, hexpires, -, hle⟩
    exact ⟨hpin, hdurable, .inr ⟨htoken, until_, expires, hblock, hlt, hexpires, hle⟩⟩

section Freshness

variable {e : SelectedGrant Bindings} {s : Int}

theorem stale_true : R.stale W t e = true ↔ R.routing.denyStale = true ∧
    grantRuntimeFresh W.toLowerCase e.runtimeState (R.routing.staleAfterSeconds * 1000) t
      R.requirement.model = false := by
  unfold stale
  rw [Bool.and_eq_true, Bool.not_eq_true']

theorem fresh_true : grantRuntimeFresh W.toLowerCase e.runtimeState
    (R.routing.staleAfterSeconds * 1000) t R.requirement.model = true ↔
      ∃ state, e.runtimeState = some state ∧
        t < state.observedAt + R.routing.staleAfterSeconds * 1000 ∧
        (∃ w ∈ state.windows, windowApplies W.toLowerCase w R.requirement.model = true ∧
          w.open t = true) ∧
        ∀ w ∈ state.windows, windowApplies W.toLowerCase w R.requirement.model = true →
          w.open t = true →
            t < w.observedAt.getD state.observedAt + R.routing.staleAfterSeconds * 1000 := by
  unfold grantRuntimeFresh
  cases e.runtimeState with
  | none => simp
  | some state =>
    simp only [Option.any_some, Bool.and_eq_true, decide_eq_true_eq, List.all_eq_true,
      Bool.not_eq_true', List.isEmpty_eq_false_iff, Option.some.injEq, exists_eq_left', and_assoc,
      ne_eq, List.eq_nil_iff_forall_not_mem, not_forall, not_not, List.mem_filter, and_imp]

theorem reset_between {w : QuotaWindow} (hopen : w.open s = true) (hclosed : ¬ w.open t = true) :
    ∃ at_, w.resetAt = some at_ ∧ s < at_ ∧ at_ ≤ t := by
  unfold QuotaWindow.open at hopen hclosed
  cases hreset : w.resetAt with
  | none => simp [hreset] at hclosed
  | some at_ =>
    rw [hreset] at hopen hclosed
    exact ⟨at_, rfl, by simpa using hopen, by simpa using hclosed⟩

/-- **Fresh again by the passing of time**: only where a window is reset whose observation was out
    of date. -/
theorem fresh_again (hst : s ≤ t) (hstale : R.stale W s e = true)
    (hfresh : R.stale W t e = false) : ∃ state, e.runtimeState = some state ∧ ∃ w ∈ state.windows,
      windowApplies W.toLowerCase w R.requirement.model = true ∧
        ∃ at_, w.resetAt = some at_ ∧ s < at_ ∧ at_ ≤ t ∧
          w.observedAt.getD state.observedAt + R.routing.staleAfterSeconds * 1000 < at_ := by
  obtain ⟨hdeny, hnot⟩ := (R.stale_true W).mp hstale
  have hthen : grantRuntimeFresh W.toLowerCase e.runtimeState
      (R.routing.staleAfterSeconds * 1000) t R.requirement.model = true := by
    by_contra hthen
    rw [(R.stale_true W).mpr ⟨hdeny, Bool.eq_false_iff.mpr hthen⟩] at hfresh
    cases hfresh
  obtain ⟨state, hstate, hobserved, ⟨w, hw, happlies, hopen⟩, hall⟩ := (R.fresh_true W).mp hthen
  -- the state and a window that count then count at `s` too: an old window must fail it there
  have hold : ∃ v ∈ state.windows, windowApplies W.toLowerCase v R.requirement.model = true ∧
      v.open s = true ∧
        ¬ s < v.observedAt.getD state.observedAt + R.routing.staleAfterSeconds * 1000 := by
    by_contra hnone
    push Not at hnone
    rw [(R.fresh_true W).mpr ⟨state, hstate, hst.trans_lt hobserved,
      ⟨w, hw, happlies, open_earlier hst hopen⟩, hnone⟩] at hnot
    cases hnot
  obtain ⟨v, hv, hvapplies, hvopen, hvold⟩ := hold
  have hclosed : ¬ v.open t = true := fun h => hvold (hst.trans_lt (hall v hv hvapplies h))
  obtain ⟨at_, hat, hlt, hle⟩ := reset_between hvopen hclosed
  exact ⟨state, hstate, v, hv, hvapplies, at_, hat, hlt, hle, (not_lt.mp hvold).trans_lt hlt⟩

end Freshness

/-- A grant gets ready only at an instant that its data names. -/
theorem turns_of_ready (hexpiring : R.Expiring W) {e : SelectedGrant Bindings} {u : Int}
    (hbefore : ¬ R.Ready W (u - 1) e) (hready : R.Ready W u e) : Turns e u := by
  by_contra hno
  have hle : u - 1 ≤ u := by omega
  refine hbefore ⟨hready.shut, ?_, hexpiring.supports hle hready.supported,
    hexpiring.configured hle hready.configured, ?_, ?_⟩
  · by_contra hblocked
    have hthen := Bool.eq_false_iff.mp hready.refresh
    rw [ne_eq, refreshBlocked_iff] at hthen
    obtain ⟨hpin, hdurable, huncertain | ⟨htoken, until_, expires, hblock, hlt, hexpires, hover⟩⟩ :=
      R.refreshBlocked_iff.mp (Bool.not_eq_false _ ▸ hblocked)
    · exact hthen ⟨hpin, hdurable, .inl huncertain⟩
    · have hended : ¬ u < until_ := fun hlt => hthen ⟨hpin, hdurable,
        .inr ⟨htoken, until_, expires, hblock, hlt, hexpires, by omega⟩⟩
      obtain rfl : until_ = u := by omega
      exact hno (.inr hblock)
  · by_contra hstale
    obtain ⟨state, hstate, w, hw, -, at_, hat, hlt, hle, -⟩ :=
      R.fresh_again W hle (Bool.not_eq_false _ ▸ hstale) hready.fresh
    obtain rfl : at_ = u := by omega
    exact hno (.inl ⟨state, hstate, .inr ⟨w, hw, hat⟩⟩)
  · obtain ⟨hover, hreset⟩ := (R.clear_iff W hle).mp hready.clear
    refine (R.clear_def W).mpr ⟨?_, List.eq_nil_iff_forall_not_mem.mpr fun w hin => ?_⟩
    · by_contra hcooling
      have hcooling := Bool.not_eq_false _ ▸ hcooling
      have hlater := cooling_until hcooling
      have hended := (cooling_later hle).mp hover hcooling
      cases hstate : e.runtimeState with
      | none =>
        rw [hstate] at hcooling
        cases hcooling
      | some state =>
        cases huntil : state.cooldownUntil with
        | none => simp [hstate, huntil, grantCoolingDown] at hcooling
        | some until_ =>
          simp only [hstate, huntil, Option.bind_some, Option.getD_some] at hlater hended
          obtain rfl : until_ = u := by omega
          exact hno (.inl ⟨state, hstate, .inl huntil⟩)
    · obtain ⟨at_, hat, hat'⟩ := hreset w hin
      have hlater := R.reset_later W hin hat
      obtain rfl : at_ = u := by omega
      have hmem : ∃ state, e.runtimeState = some state ∧ w ∈ state.windows := by
        have hin := (List.mem_filter.mp hin).1
        cases hstate : e.runtimeState with
        | none => simp [hstate] at hin
        | some state => exact ⟨state, rfl, by simpa [hstate] using hin⟩
      obtain ⟨state, hstate, hw⟩ := hmem
      exact hno (.inl ⟨state, hstate, .inr ⟨w, hw, hat⟩⟩)

/-- **A candidate that is ready later recovers by then**, unless it is excused or was stale
    meanwhile: then it is ready, by then, at an instant its data names, after the reset of an old
    window. -/
theorem ready_later (hexpiring : R.Expiring W) (hnonneg : 0 ≤ now)
    {e : SelectedGrant Bindings} (hnow : now ≤ t) (hnot : ¬ R.Ready W now e) (hready : R.Ready W t e)
    (hexcused : R.excused now e = false) :
    (∃ a, R.Recovers W now e a ∧ a ≤ t) ∨
      ∃ u, Turns e u ∧ now < u ∧ u ≤ t ∧ R.Lapses W now u e ∧ R.Ready W u e := by
  by_cases hstale : ∃ s, now ≤ s ∧ s < t ∧ R.stale W s e = true
  · obtain ⟨s, hs, hst, hstale⟩ := hstale
    refine .inr ?_
    obtain ⟨u, ⟨hsu, hu⟩, hleast⟩ := Int.exists_least_of_bdd (P := fun u => s < u ∧ R.Ready W u e)
      ⟨s, fun u hu => hu.1.le⟩ ⟨t, hst, hready⟩
    have hbefore : ¬ R.Ready W (u - 1) e := by
      intro hthen
      rcases eq_or_lt_of_le (Int.le_sub_one_of_lt hsu) with hsame | hlt
      · rw [hsame, hthen.fresh] at hstale
        cases hstale
      · have hle := hleast (u - 1) ⟨hlt, hthen⟩
        omega
    obtain ⟨state, hstate, w, hw, happlies, at_, hat, hlt, hle, hold⟩ :=
      R.fresh_again W hsu.le hstale hu.fresh
    exact ⟨u, R.turns_of_ready W hexpiring hbefore hu, hs.trans_lt hsu, hleast t ⟨hst, hready⟩,
      ⟨((R.stale_true W).mp hstale).1, state, hstate, w, hw, happlies, at_, hat, hs.trans_lt hlt,
        hle, hold⟩, hu⟩
  · refine .inl ?_
    push Not at hstale
    have hfresh : ∀ s, now ≤ s → s ≤ t → R.stale W s e = false := by
      intro s hs hst
      rcases hst.eq_or_lt with rfl | hlt
      · exact hready.fresh
      · exact Bool.eq_false_iff.mpr (hstale s hs hlt)
    obtain ⟨hblocked, hauthentication⟩ := Bool.or_eq_false_iff.mp hexcused
    have hsupported := hexpiring.supports hnow hready.supported
    have hconfigured := hexpiring.configured hnow hready.configured
    have hfreshNow := hfresh now le_rfl hnow
    have hclear : R.clear W now e = false := Bool.eq_false_iff.mpr fun hclear =>
      hnot ⟨hready.shut, hblocked, hsupported, hconfigured, hfreshNow, hclear⟩
    obtain ⟨hover, hreset⟩ := (R.clear_iff W hnow).mp hready.clear
    obtain ⟨a, ha⟩ := R.lifts_some W hnonneg hclear fun w hin => (hreset w hin).imp fun at_ h => h.1
    have hat : a ≤ t := (ha.clear_iff hnow).mp hready.clear
    refine ⟨a, ⟨⟨hready.shut, hblocked, ?_⟩, ⟨hclear, hauthentication⟩, ha,
      hfresh a (ha.later).le hat⟩, hat⟩
    simp [unfit, hsupported, hconfigured, hfreshNow]

/-- **An announcement is honest exactly when what it leaves out does not decide.** -/
theorem announced_honest_iff (hexpiring : R.Expiring W) {now : Int} (hnow : 0 ≤ now)
    (hnone : R.offered W now = []) : R.Honest W now ↔ R.Undisturbed W now := by
  have hoffered : ∀ {t e}, e ∈ R.offered W t ↔ e ∈ R.configured ∧ R.Ready W t e := by
    intro t e
    rw [R.mem_offered W, R.usable_iff W]
  have hnot : ∀ e ∈ R.configured, ¬ R.Ready W now e := by
    intro e he hready
    have hin := hoffered.mpr ⟨he, hready⟩
    rw [hnone] at hin
    cases hin
  constructor
  · intro h
    refine ⟨fun a ha => ?_, fun e he hexcused t _ hnowt hbefore _ hready => ?_⟩
    · obtain ⟨e, hin⟩ :=
        List.exists_mem_of_ne_nil _ (h.offers a ((R.announced_first W hnow).mpr ha))
      obtain ⟨he, hready⟩ := hoffered.mp hin
      obtain ⟨first, -, hrecovers⟩ := ha.1
      have hnowa : now ≤ a := (hrecovers.lifts.later).le
      cases hexcused : R.excused now e with
      | true => exact .inr ⟨e, he, .inl hexcused, hready⟩
      | false =>
        rcases R.ready_later W hexpiring hnow hnowa (hnot e he) hready hexcused with
          ⟨b, hb, hle⟩ | ⟨u, -, -, hle, hlapses, -⟩
        · obtain rfl : b = a := le_antisymm hle (ha.2 e he b hb)
          refine .inl ⟨e, he, hb, fun hbegins => ?_, hready.supported, hready.configured⟩
          have hblocked := (R.refresh_begins hnowa hb.free.2.1).mpr hbegins
          rw [hready.refresh] at hblocked
          cases hblocked
        · obtain ⟨hdeny, state, hstate, w, hw, happlies, at_, hat, hlt, hle', hold⟩ := hlapses
          exact .inr ⟨e, he, .inr ⟨hdeny, state, hstate, w, hw, happlies, at_, hat, hlt,
            hle'.trans hle, hold⟩, hready⟩
    · have hthen := h.before t hnowt.le
        (fun a ha => hbefore a ((R.announced_first W hnow).mp ha)) e (hoffered.mpr ⟨he, hready⟩)
      rw [hexcused] at hthen
      cases hthen
  · intro h
    refine ⟨fun a ha => ?_, fun t ht hbefore e hin => ?_⟩
    · rcases h.dispatches a ((R.announced_first W hnow).mp ha) with
        ⟨e, he, hrecovers, hbegins, hsupported, hconfigured⟩ | ⟨e, he, -, hready⟩
      · have hnowa : now ≤ a := (hrecovers.lifts.later).le
        refine List.ne_nil_of_mem (hoffered.mpr ⟨he, ⟨hrecovers.free.1, ?_, hsupported,
          hconfigured, hrecovers.fresh, (hrecovers.lifts.clear_iff hnowa).mpr le_rfl⟩⟩)
        exact Bool.eq_false_iff.mpr fun hblocked =>
          hbegins ((R.refresh_begins hnowa hrecovers.free.2.1).mp hblocked)
      · exact List.ne_nil_of_mem (hoffered.mpr ⟨he, hready⟩)
    · obtain ⟨he, hready⟩ := hoffered.mp hin
      have hahead : ∀ a, R.FirstRecovery W now a → t < a :=
        fun a ha => hbefore a ((R.announced_first W hnow).mpr ha)
      by_contra hexcused
      have hexcused := Bool.eq_false_iff.mpr hexcused
      rcases R.ready_later W hexpiring hnow ht (hnot e he) hready hexcused with
        ⟨b, hb, hle⟩ | ⟨u, hturns, hnowu, hle, hlapses, hready⟩
      · cases hann : R.announced W now with
        | none => exact (R.announced_none W hnow).mp hann e he b hb
        | some a =>
          have hfirst := (R.announced_first W hnow).mp hann
          exact absurd (hbefore a hann) (not_lt.mpr ((hfirst.2 e he b hb).trans hle))
      · exact h.readmits e he hexcused u hturns hnowu (fun a ha => hle.trans_lt (hahead a ha))
          hlapses hready

end PoolRequest

end Recovery

section Example

def plainSurroundings : Surroundings Unit where
  localeCompare :=
  fun _ _ => .eq
  toLowerCase := id
  providers := []
  grantSupports := fun _ _ _ => true
  operationConfigured := fun _ _ _ => true

def keptGrant : PoolGrant Unit where
  enabled :=
  none
  provider := none
  kind := "api_key"
  priority := none
  weight := none
  durable := false
  reauthRequired := false
  hasCredential := false
  hasAccessToken := false
  hasRefreshToken := false
  signs := false
  refreshBlock := .ready
  expiresAt := none
  credential := .text "secret"
  accessToken := .absent
  refreshToken := .absent
  credentials := none
  updatedAt := none
  createdAt := none
  bindings := ()

def requestOf (denyStale : Bool) (state : GrantRuntimeState) : PoolRequest Unit where
  requirement :=
  ⟨⟨"anthropic", []⟩, ⟨"messages", "anthropic.messages"⟩, .http, none, false⟩
  candidates := [(⟨"oauth/default/key", some keptGrant⟩, some state)]
  excludedKeys := []
  routing :=
    { strategy := .priority
      stickiness := .none
      includedQuotaReservePercent := 0
      denyStale := denyStale
      staleAfterSeconds := 300
      switchAtUsedPercent := 90
      hysteresisPercent := 5
      eligibleGrants := fun _ => none
      sharedGrants := fun _ => [] }
  pinnedKey := .free

/-- An old window that is reset in a minute, and one just observed. -/
def oneOldWindow : GrantRuntimeState :=
  ⟨1000000, none, .quota, none, [⟨[], none, none, some 1060000, some 600000⟩,
    ⟨[], none, none, none, some 1000000⟩]⟩

def coolingState : GrantRuntimeState := ⟨1000000, some 1060000, .rateLimited, none, []⟩

/-- A cooldown of a minute is announced, and the announcement is honest. -/
theorem cooldown_honest :
    (requestOf false coolingState).announced plainSurroundings 1000000 = some 1060000 ∧
      (requestOf false coolingState).Honest plainSurroundings 1000000 := by
  refine ⟨by decide, (PoolRequest.announced_honest_iff plainSurroundings _
    ⟨fun _ h => h, fun _ h => h⟩ (by decide) (List.isEmpty_iff.mp (by decide))).mpr
      ⟨fun a ha => ?_, fun e _ _ t _ _ _ hlapses => ?_⟩⟩
  · obtain ⟨⟨e, he, hrecovers⟩, -⟩ := ha
    refine .inl ⟨e, he, hrecovers, fun hbegins => ?_, rfl, rfl⟩
    rw [List.mem_singleton.mp he] at hbegins
    cases hbegins.2.1
  · cases hlapses.1

/-- Nothing is announced of a stale grant, and a minute later it is offered. -/
theorem oldWindow_dishonest : (requestOf true oneOldWindow).offered plainSurroundings 1000000 = [] ∧
    (requestOf true oneOldWindow).announced plainSurroundings 1000000 = none ∧
    ¬ (requestOf true oneOldWindow).Honest plainSurroundings 1000000 := by
  have hnone : (requestOf true oneOldWindow).announced plainSurroundings 1000000 = none := by decide
  refine ⟨List.isEmpty_iff.mp (by decide), hnone, fun h => ?_⟩
  have hexcused := h.before 1060000 (by decide) (fun a ha => by rw [hnone] at ha; cases ha)
    ⟨"oauth/default/key", keptGrant, some oneOldWindow⟩
      ((PoolRequest.mem_offered _ _).mpr ⟨List.mem_singleton.mpr rfl, by decide⟩)
  revert hexcused
  decide

end Example

end ClawRouter.Selection
