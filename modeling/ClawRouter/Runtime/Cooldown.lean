/-
  Subject:   Which signal keeps a grant in cooldown when its observations have been merged
             (`mergeGrantRuntimeState` of src/worker/grant-runtime.ts).

  A merged state has one time, that of its latest observation, and its signal is taken to be of that
  time. So an observation that is later than the signal makes the signal later too, and a newer signal
  that arrives after it is refused.

  * `leftBy`: the windows an order leaves; **`orders_return`**: which orders throw;
  * **`cooldown_order`**: the order does not matter exactly where none throws, nothing is later than the
    latest signal or all live signals say the same, and without one the windows say the same.
-/
import ClawRouter.Runtime.Windows
import Mathlib.Data.List.Induction

namespace ClawRouter.Runtime

open Newest Fallible

/-! ## 1. Verdicts -/

/-- What a state says of a cooldown. -/
structure CooldownVerdict where
  lastSignal : RuntimeSignal
  cooldownUntil : Option Int
  status : RuntimeStatus
  deriving DecidableEq

def GrantRuntimeState.verdict (state : GrantRuntimeState) : CooldownVerdict :=
  ⟨state.lastSignal, state.cooldownUntil, state.status⟩

/-- What a state says of the signal that keeps the grant back. -/
def GrantRuntimeState.signal (state : GrantRuntimeState) : RuntimeSignal × Option Int :=
  (state.lastSignal, state.cooldownUntil)

/-- The observations of a list, all merged at one time. -/
def mergeOrder (nowMs : Int) (states : List GrantRuntimeState) : Answer (Option GrantRuntimeState) :=
  mergeAll (states.map fun state => (state, nowMs))

/-- The latest signal that is live. -/
structure LatestSignal (nowMs : Int) (states : List GrantRuntimeState)
    (state : GrantRuntimeState) : Prop where
  mem : state ∈ states
  live : state.live nowMs = true
  latest : ∀ other ∈ states, other.live nowMs = true → other.observedAt ≤ state.observedAt

/-- Every order that is merged gives the same verdict. -/
def OrderFree (nowMs : Int) (states : List GrantRuntimeState) : Prop :=
  ∀ l l' r r', l.Perm states → l'.Perm states → mergeOrder nowMs l = .ok (some r) →
    mergeOrder nowMs l' = .ok (some r') → r.verdict = r'.verdict

/-- In every order that is merged the latest live signal is the one that is kept. -/
def LatestWins (nowMs : Int) (states : List GrantRuntimeState) : Prop :=
  ∀ state, LatestSignal nowMs states state → ∀ l r, l.Perm states →
    mergeOrder nowMs l = .ok (some r) → r.signal = state.signal

/-- The windows and the snapshots of a merged state. -/
structure Left where
  windows : List GrantQuotaWindow
  snapshots : List (String × WindowSnapshot)

namespace Left

variable (left : Left) (state : GrantRuntimeState)

/-- The newest window of each id. -/
def windowsWith : List GrantQuotaWindow := collect (·.id) (·.instant) (left.windows ++ state.observed)

/-- The newest snapshot of each scope. -/
def snapshotsWith : List (String × WindowSnapshot) :=
  collect (·.1) (·.2.observedAt) (left.snapshots ++ state.windowSnapshots)

/-- There are not too many ids, nor too many scopes. -/
def Room : Prop := (left.windowsWith state).length ≤ 128 ∧ (left.snapshotsWith state).length ≤ 128

def next : Left where
  windows :=
  (left.windowsWith state).filter fun window =>
    !(left.snapshotsWith state).any fun s => retires s.1 s.2 window
  snapshots := left.snapshotsWith state

end Left

/-- What is left of the windows of an order, of which the first observation is taken as it is. -/
def leftBy : List GrantRuntimeState → Left
  | [] => ⟨[], []⟩
  | first :: rest => rest.foldl Left.next ⟨first.observed, first.windowSnapshots⟩

/-- In every order there is room for every observation after the first. -/
def Fits (states : List GrantRuntimeState) : Prop :=
  ∀ earlier state later,
  (earlier ++ state :: later).Perm states → earlier ≠ [] → (leftBy earlier).Room state

/-- The time of the latest observation. -/
structure LatestTime (states : List GrantRuntimeState) (t : Int) : Prop where
  of : ∃ x ∈ states, x.observedAt = t
  latest : ∀ x ∈ states, x.observedAt ≤ t

/-- The windows that the orders leave have one quota verdict. -/
def QuotaAgrees (states : List GrantRuntimeState) : Prop :=
  ∀ l l' t, l.Perm states → l'.Perm states →
  LatestTime states t → (quotaRuntime (leftBy l).windows .providerResponse t).verdict =
    (quotaRuntime (leftBy l').windows .providerResponse t).verdict

/-- Nothing is later than the latest live signal, or every live signal says what it says. -/
def Unlent (nowMs : Int) (states : List GrantRuntimeState) : Prop :=
  ∀ state, LatestSignal nowMs states state →
    (∀ other ∈ states, other.observedAt ≤ state.observedAt) ∨
    ∀ other ∈ states, other.live nowMs = true → other.signal = state.signal

/-! ## 2. The signal of one merge -/

variable {a s : GrantRuntimeState}

section Signal

variable {previous incoming : GrantRuntimeState} {nowMs : Int}

theorem live_iff {state : GrantRuntimeState} : state.live nowMs = true ↔
      state.lastSignal ≠ .quota ∧ ∃ t, state.cooldownUntil = some t ∧ nowMs < t := by
  unfold GrantRuntimeState.live
  rw [Bool.and_eq_true, bne_iff_ne, Option.any_eq_true]
  simp only [decide_eq_true_eq]

theorem mergedState_signal (hs : liveSignal nowMs previous incoming = some s) (hlive : s.live nowMs = true) :
    (mergedState previous incoming nowMs).signal = s.signal ∧
      (mergedState previous incoming nowMs).live nowMs = true ∧
      (mergedState previous incoming nowMs).status = .cooldown := by
  obtain ⟨hsignal, t, huntil, hnow⟩ := live_iff.mp hlive
  have hlast : (mergedState previous incoming nowMs).lastSignal = s.lastSignal := by
    show ((liveSignal nowMs previous incoming).map (·.lastSignal)).getD .quota = s.lastSignal
    rw [hs]
    rfl
  have hcooldown : (mergedState previous incoming nowMs).cooldownUntil = s.cooldownUntil := by
    show ((liveSignal nowMs previous incoming).bind (·.cooldownUntil) <|> _) = s.cooldownUntil
    rw [hs, Option.bind_some, huntil]
    rfl
  refine ⟨Prod.ext hlast hcooldown, live_iff.mpr ⟨by rw [hlast]; exact hsignal, t, ?_, hnow⟩, ?_⟩
  · rw [hcooldown]
    exact huntil
  · show (if (liveSignal nowMs previous incoming).isSome then _ else _) = _
    rw [hs]
    rfl

theorem merge_takes (hlive : incoming.live nowMs = true)
    (h : previous.live nowMs = false ∨ previous.observedAt < incoming.observedAt) :
    (mergedState previous incoming nowMs).signal = incoming.signal ∧
      (mergedState previous incoming nowMs).live nowMs = true ∧
      (mergedState previous incoming nowMs).status = .cooldown := by
  refine mergedState_signal ?_ hlive
  unfold liveSignal
  rcases h with h | h
  · rw [h, if_neg Bool.noConfusion, if_pos hlive]
  · split
    · rw [if_pos ⟨hlive, h⟩]
    · rfl

theorem merge_keeps (hlive : previous.live nowMs = true)
    (h : incoming.live nowMs = true → incoming.observedAt ≤ previous.observedAt) :
    (mergedState previous incoming nowMs).signal = previous.signal ∧
      (mergedState previous incoming nowMs).live nowMs = true ∧
      (mergedState previous incoming nowMs).status = .cooldown := by
  refine mergedState_signal ?_ hlive
  unfold liveSignal
  rw [if_pos hlive, if_neg]
  rintro ⟨hin, hlt⟩
  exact absurd hlt (not_lt.mpr (h hin))

theorem merge_quota (hp : previous.live nowMs = false) (hi : incoming.live nowMs = false) :
    (mergedState previous incoming nowMs).lastSignal = .quota ∧
      (mergedState previous incoming nowMs).cooldownUntil =
        (quotaRuntime (mergedState previous incoming nowMs).windows .providerResponse
          (mergedState previous incoming nowMs).observedAt).cooldownUntil ∧
      (mergedState previous incoming nowMs).status =
        (quotaRuntime (mergedState previous incoming nowMs).windows .providerResponse
          (mergedState previous incoming nowMs).observedAt).status := by
  have hnone : liveSignal nowMs previous incoming = none := by
    unfold liveSignal
    rw [hp, hi, if_neg Bool.noConfusion, if_neg Bool.noConfusion]
  refine ⟨?_, ?_, ?_⟩
  · show ((liveSignal nowMs previous incoming).map (·.lastSignal)).getD .quota = _
    rw [hnone]
    rfl
  · show ((liveSignal nowMs previous incoming).bind (·.cooldownUntil) <|> _) = _
    rw [hnone]
    rfl
  · show (if (liveSignal nowMs previous incoming).isSome then _ else _) = _
    rw [hnone]
    rfl

theorem quota_not_live {state : GrantRuntimeState} (nowMs : Int) (h : state.lastSignal = .quota) :
    state.live nowMs = false := by
  unfold GrantRuntimeState.live
  rw [h]
  rfl

theorem mergedState_cooldown (h : (mergedState previous incoming nowMs).live nowMs = true) :
    (mergedState previous incoming nowMs).status = .cooldown := by
  cases hp : previous.live nowMs with
  | true =>
    by_cases hlater : incoming.live nowMs = true ∧ previous.observedAt < incoming.observedAt
    · exact (merge_takes hlater.1 (Or.inr hlater.2)).2.2
    · exact (merge_keeps hp (fun hin => not_lt.mp fun hlt => hlater ⟨hin, hlt⟩)).2.2
  | false =>
    cases hi : incoming.live nowMs with
    | true => exact (merge_takes hi (Or.inl hp)).2.2
    | false =>
      rw [quota_not_live nowMs (merge_quota hp hi).1] at h
      cases h

end Signal

/-! ## 3. The signal of a list -/

variable {l rest : List GrantRuntimeState}

section Lists

variable {states : List GrantRuntimeState} {nowMs : Int} {r : GrantRuntimeState}
  {revision : Option GrantRevision}

theorem rest_run {P : List GrantRuntimeState → GrantRuntimeState → Prop}
    {Q : GrantRuntimeState → Prop} (seen : List GrantRuntimeState)
    (hstep : ∀ seen r s, P seen r → Q s → P (seen ++ [s]) (mergedState r s nowMs))
    (hbase : P seen a) (harev : a.grantRevision = revision) (hQ : ∀ s ∈ rest, Q s ∧ s.grantRevision = revision)
    (h : (rest.map fun s => (s, nowMs)).foldlM mergeArrival (some a) = .ok (some r)) : P (seen ++ rest) r := by
  have hrun : ∀ seen r (x : GrantRuntimeState × Int), P seen r → (Q x.1 ∧ x.2 = nowMs) →
      P (seen ++ [x.1]) (mergedState r x.1 x.2) := by
    rintro seen r x hP ⟨hs, hnow⟩
    rw [hnow]
    exact hstep seen r x.1 hP hs
  have hall : ∀ x ∈ rest.map fun s => (s, nowMs), (Q x.1 ∧ x.2 = nowMs) ∧ x.1.grantRevision = revision := by
    intro x hx
    obtain ⟨s, hs, rfl⟩ := List.mem_map.mp hx
    exact ⟨⟨(hQ s hs).1, rfl⟩, (hQ s hs).2⟩
  obtain ⟨out, e, hP⟩ := mergeAll_run hrun _ seen a (some r) hbase harev hall h
  cases e
  rw [List.map_map] at hP
  have hid : rest.map ((fun x : GrantRuntimeState × Int => x.1) ∘ fun s => (s, nowMs)) = rest :=
    List.map_id rest
  rw [hid] at hP
  exact hP

theorem mergeOrder_run {P : List GrantRuntimeState → GrantRuntimeState → Prop} {Q : GrantRuntimeState → Prop}
    (hstep : ∀ seen r s, P seen r → Q s → P (seen ++ [s]) (mergedState r s nowMs))
    (hbase : P [a] a) (hQ : ∀ s ∈ a :: rest, Q s ∧ s.grantRevision = revision)
    (h : mergeOrder nowMs (a :: rest) = .ok (some r)) : P (a :: rest) r := by
  unfold mergeOrder at h
  rw [List.map_cons, mergeAll_cons] at h
  exact rest_run [a] hstep hbase (hQ a List.mem_cons_self).2 (fun s hs => hQ s (List.mem_cons_of_mem _ hs)) h

theorem mergeOrder_cons (h : mergeOrder nowMs l = .ok (some r)) : ∃ a rest, l = a :: rest := by
  cases l with
  | nil => cases h
  | cons a rest => exact ⟨a, rest, rfl⟩

theorem latestTime_single (a : GrantRuntimeState) : LatestTime [a] a.observedAt := by
  refine ⟨⟨a, List.mem_cons_self, rfl⟩, fun x hx => ?_⟩
  rw [List.mem_singleton.mp hx]

/-- A merged state is of the time of its latest observation. -/
theorem latestTime_step {seen : List GrantRuntimeState} (h : LatestTime seen r.observedAt)
    (s : GrantRuntimeState) :
    LatestTime (seen ++ [s]) (mergedState r s nowMs).observedAt := by
  obtain ⟨⟨y, hy, hyt⟩, hmax⟩ := h
  refine ⟨?_, fun z hz => ?_⟩
  · rw [mergedState_observedAt]
    rcases le_total r.observedAt s.observedAt with hle | hle
    · exact ⟨s, List.mem_append_right _ List.mem_cons_self, (max_eq_right hle).symm⟩
    · exact ⟨y, List.mem_append_left _ hy, hyt.trans (max_eq_left hle).symm⟩
  · rw [mergedState_observedAt]
    rcases List.mem_append.mp hz with hz | hz
    · exact le_trans (hmax z hz) (le_max_left _ _)
    · rw [List.mem_singleton.mp hz]
      exact le_max_right _ _

theorem LatestTime.perm {l' : List GrantRuntimeState} {t : Int} (h : LatestTime l t) (hperm : l.Perm l') :
    LatestTime l' t := by
  obtain ⟨x, hx, hxt⟩ := h.of
  exact ⟨⟨x, hperm.mem_iff.mp hx, hxt⟩, fun y hy => h.latest y (hperm.mem_iff.mpr hy)⟩

theorem LatestTime.unique {t t' : Int} (h : LatestTime l t) (h' : LatestTime l t') : t = t' := by
  obtain ⟨x, hx, hxt⟩ := h.of
  obtain ⟨x', hx', hxt'⟩ := h'.of
  exact le_antisymm (hxt ▸ h'.latest x hx) (hxt' ▸ h.latest x' hx')

theorem kept_latest (hlive : s.live nowMs = true) (hlatest : ∀ x ∈ states, x.observedAt ≤ s.observedAt)
    (hown : ∀ x ∈ states, x.observedAt = s.observedAt → x = s) (hmem : s ∈ states)
    (hrev : ∀ x ∈ states, x.grantRevision = revision)
    (hperm : l.Perm states) (h : mergeOrder nowMs l = .ok (some r)) :
    r.live nowMs = true ∧ r.signal = s.signal := by
  obtain ⟨a, rest, rfl⟩ := mergeOrder_cons h
  have hin : ∀ x ∈ a :: rest, x ∈ states := fun x hx => hperm.mem_iff.mp hx
  have hstep : ∀ (seen : List GrantRuntimeState) (r x : GrantRuntimeState),
    (LatestTime seen r.observedAt ∧ (∀ y ∈ seen, y ∈ states) ∧
        (s ∈ seen → r.live nowMs = true ∧ r.signal = s.signal)) → x ∈ states →
      LatestTime (seen ++ [x]) (mergedState r x nowMs).observedAt ∧ (∀ y ∈ seen ++ [x], y ∈ states) ∧
        (s ∈ seen ++ [x] → (mergedState r x nowMs).live nowMs = true ∧
          (mergedState r x nowMs).signal = s.signal) := by
    rintro seen r x ⟨htimed, hsub, hsig⟩ hx
    refine ⟨latestTime_step htimed x, fun y hy => ?_, fun hs => ?_⟩
    · rcases List.mem_append.mp hy with hy | hy
      · exact hsub y hy
      · rw [List.mem_singleton.mp hy]
        exact hx
    · by_cases hseen : s ∈ seen
      · obtain ⟨hrlive, hrsig⟩ := hsig hseen
        obtain ⟨hsignal, hl, -⟩ := merge_keeps hrlive
          (fun _ => le_trans (hlatest x hx) (htimed.latest s hseen))
        exact ⟨hl, hsignal.trans hrsig⟩
      · -- the signal arrives, and is later than all that is merged
        have hxs : s = x := by
          rcases List.mem_append.mp hs with hs | hs
          · exact absurd hs hseen
          · exact List.mem_singleton.mp hs
        subst hxs
        obtain ⟨y, hy, hyt⟩ := htimed.of
        have hlt : r.observedAt < s.observedAt := by
          rw [← hyt]
          refine lt_of_le_of_ne (hlatest y (hsub y hy)) fun e => hseen ?_
          rw [← hown y (hsub y hy) e]
          exact hy
        obtain ⟨hsignal, hl, -⟩ := merge_takes hlive (Or.inr hlt)
        exact ⟨hl, hsignal⟩
  have hbase : LatestTime [a] a.observedAt ∧ (∀ y ∈ [a], y ∈ states) ∧
    (s ∈ [a] → a.live nowMs = true ∧ a.signal = s.signal) := by
    refine ⟨latestTime_single a, fun y hy => ?_, fun hs => ?_⟩
    · rw [List.mem_singleton.mp hy]
      exact hin a List.mem_cons_self
    · rw [← List.mem_singleton.mp hs]
      exact ⟨hlive, rfl⟩
  exact (mergeOrder_run hstep hbase (fun x hx => ⟨hin x hx, hrev x (hin x hx)⟩) h).2.2 (hperm.mem_iff.mpr hmem)

theorem kept_agreed {said : RuntimeSignal × Option Int}
    (hagree : ∀ x ∈ states, x.live nowMs = true → x.signal = said)
    (hsome : ∃ x ∈ states, x.live nowMs = true) (hrev : ∀ x ∈ states, x.grantRevision = revision)
    (hperm : l.Perm states) (h : mergeOrder nowMs l = .ok (some r)) :
    r.live nowMs = true ∧ r.signal = said := by
  obtain ⟨a, rest, rfl⟩ := mergeOrder_cons h
  have hin : ∀ x ∈ a :: rest, x ∈ states := fun x hx => hperm.mem_iff.mp hx
  have hstep : ∀ (seen : List GrantRuntimeState) (r x : GrantRuntimeState),
      (((∃ y ∈ seen, y.live nowMs = true) → r.live nowMs = true) ∧
        (r.live nowMs = true → r.signal = said)) → x ∈ states →
      (((∃ y ∈ seen ++ [x], y.live nowMs = true) → (mergedState r x nowMs).live nowMs = true) ∧
        ((mergedState r x nowMs).live nowMs = true → (mergedState r x nowMs).signal = said)) := by
    rintro seen r x ⟨hany, hsig⟩ hx
    cases hr : r.live nowMs with
    | true =>
      by_cases hlater : x.live nowMs = true ∧ r.observedAt < x.observedAt
      · obtain ⟨hsignal, hl, -⟩ := merge_takes hlater.1 (Or.inr hlater.2)
        exact ⟨fun _ => hl, fun _ => hsignal.trans (hagree x hx hlater.1)⟩
      · obtain ⟨hsignal, hl, -⟩ := merge_keeps hr (fun hxl => not_lt.mp fun hlt => hlater ⟨hxl, hlt⟩)
        exact ⟨fun _ => hl, fun _ => hsignal.trans (hsig hr)⟩
    | false =>
      cases hxl : x.live nowMs with
      | true =>
        obtain ⟨hsignal, hl, -⟩ := merge_takes hxl (Or.inl hr)
        exact ⟨fun _ => hl, fun _ => hsignal.trans (hagree x hx hxl)⟩
      | false =>
        have hnot := quota_not_live nowMs (merge_quota hr hxl).1
        refine ⟨fun ⟨y, hy, hyl⟩ => ?_, fun hl => ?_⟩
        · rcases List.mem_append.mp hy with hy | hy
          · rw [hany ⟨y, hy, hyl⟩] at hr
            cases hr
          · rw [List.mem_singleton.mp hy, hxl] at hyl
            cases hyl
        · rw [hnot] at hl
          cases hl
  have hbase : ((∃ y ∈ [a], y.live nowMs = true) → a.live nowMs = true) ∧
    (a.live nowMs = true → a.signal = said) := by
    refine ⟨fun ⟨y, hy, hyl⟩ => ?_, hagree a (hin a List.mem_cons_self)⟩
    rw [← List.mem_singleton.mp hy]
    exact hyl
  obtain ⟨hany, hsig⟩ := mergeOrder_run hstep hbase (fun x hx => ⟨hin x hx, hrev x (hin x hx)⟩) h
  obtain ⟨x, hx, hxl⟩ := hsome
  have hl := hany ⟨x, hperm.mem_iff.mpr hx, hxl⟩
  exact ⟨hl, hsig hl⟩

/-- **A later observation lends its time**: merged right after a signal, it makes every other signal too
    old. -/
theorem kept_lent {q : GrantRuntimeState} (hlive : s.live nowMs = true) (hq : q.live nowMs = false)
    (hlater : ∀ x ∈ rest, x.live nowMs = true → x.observedAt ≤ q.observedAt)
    (hrev : ∀ x ∈ s :: q :: rest, x.grantRevision = revision)
    (h : mergeOrder nowMs (s :: q :: rest) = .ok (some r)) : r.signal = s.signal := by
  have hstep : ∀ (seen : List GrantRuntimeState) (r x : GrantRuntimeState),
      (r.live nowMs = true ∧ r.signal = s.signal ∧ q.observedAt ≤ r.observedAt) →
      (x.live nowMs = true → x.observedAt ≤ q.observedAt) →
      ((mergedState r x nowMs).live nowMs = true ∧ (mergedState r x nowMs).signal = s.signal ∧
        q.observedAt ≤ (mergedState r x nowMs).observedAt) := by
    rintro seen r x ⟨hr, hsig, ht⟩ hx
    obtain ⟨hsignal, hl, -⟩ := merge_keeps hr (fun hxl => le_trans (hx hxl) ht)
    rw [mergedState_observedAt]
    exact ⟨hl, hsignal.trans hsig, le_trans ht (le_max_left _ _)⟩
  have hs := hrev s List.mem_cons_self
  have hqr := hrev q (List.mem_cons_of_mem _ List.mem_cons_self)
  have hbase : (mergedState s q nowMs).live nowMs = true ∧ (mergedState s q nowMs).signal = s.signal ∧
      q.observedAt ≤ (mergedState s q nowMs).observedAt := by
    obtain ⟨hsignal, hl, -⟩ := merge_keeps hlive (fun hql => by rw [hq] at hql; cases hql)
    rw [mergedState_observedAt]
    exact ⟨hl, hsignal, le_max_right _ _⟩
  have hrest := mergeAll_two (hs.trans hqr.symm) h
  exact (rest_run [s, q] hstep hbase ((mergedState_revision (hs.trans hqr.symm)).trans hqr)
    (fun x hx => ⟨hlater x hx, hrev x (List.mem_cons_of_mem _ (List.mem_cons_of_mem _ hx))⟩)
    hrest).2.1

theorem cooldown_of_live {b : GrantRuntimeState} (hrev : ∀ x ∈ a :: b :: rest, x.grantRevision = revision)
    (h : mergeOrder nowMs (a :: b :: rest) = .ok (some r)) (hlive : r.live nowMs = true) :
    r.status = .cooldown := by
  have ha := hrev a List.mem_cons_self
  have hb := hrev b (List.mem_cons_of_mem _ List.mem_cons_self)
  have hrest := mergeAll_two (ha.trans hb.symm) h
  exact rest_run (P := fun _ r => r.live nowMs = true → r.status = .cooldown) (Q := fun _ => True)
    [a, b] (fun _ _ _ _ _ => mergedState_cooldown) mergedState_cooldown
    ((mergedState_revision (ha.trans hb.symm)).trans hb)
    (fun x hx => ⟨trivial, hrev x (List.mem_cons_of_mem _ (List.mem_cons_of_mem _ hx))⟩) hrest hlive

theorem mergeOrder_dated {b : GrantRuntimeState} (hrev : ∀ x ∈ a :: b :: rest, x.grantRevision = revision)
    (h : mergeOrder nowMs (a :: b :: rest) = .ok (some r)) : r.observed = r.windows := by
  have ha := hrev a List.mem_cons_self
  have hb := hrev b (List.mem_cons_of_mem _ List.mem_cons_self)
  have hdated : ∀ p i : GrantRuntimeState, (mergedState p i nowMs).observed =
    (mergedState p i nowMs).windows :=
    fun _ _ => mergedState_observed.trans mergedState_windows.symm
  exact rest_run (P := fun _ r => r.observed = r.windows) (Q := fun _ => True) [a, b]
    (fun _ r s _ _ => hdated r s)
    (hdated a b) ((mergedState_revision (ha.trans hb.symm)).trans hb)
    (fun x hx => ⟨trivial, hrev x (List.mem_cons_of_mem _ (List.mem_cons_of_mem _ hx))⟩)
    (mergeAll_two (ha.trans hb.symm) h)

/-! ## 4. What an order leaves -/

theorem leftBy_snoc (h : l ≠ []) (state : GrantRuntimeState) :
    leftBy (l ++ [state]) = (leftBy l).next state := by
  cases l with
  | nil => exact absurd rfl h
  | cons first rest =>
    show (rest ++ [state]).foldl Left.next _ = _
    rw [List.foldl_append]
    rfl

/-- The windows and the snapshots of the state. -/
def GrantRuntimeState.left (state : GrantRuntimeState) : Left := ⟨state.observed, state.windowSnapshots⟩

theorem mergedState_left (previous incoming : GrantRuntimeState) :
    (mergedState previous incoming nowMs).left = previous.left.next incoming :=
  congrArg₂ Left.mk mergedState_observed mergedState_windowSnapshots

theorem room_iff {previous incoming : GrantRuntimeState}
    (hrev : previous.grantRevision = incoming.grantRevision)
    {out : Option GrantRuntimeState} : mergeArrival (some previous) (incoming, nowMs) = .ok out ↔
      previous.left.Room incoming ∧ out = some (mergedState previous incoming nowMs) := by
  constructor
  · intro h
    obtain ⟨r, hone, rfl⟩ := mergeArrival_ok h
    refine ⟨?_, congrArg some (merge_spec hrev hone)⟩
    unfold mergeGrantRuntimeState at hone
    dsimp only at hone
    rw [if_neg (fun hne => hne hrev)] at hone
    obtain ⟨_, hwindows, hone⟩ := bind_ok.mp hone
    obtain ⟨_, hsnapshots, -⟩ := bind_ok.mp hone
    exact ⟨of_decide_eq_true (require_ok.mp hwindows), of_decide_eq_true (require_ok.mp hsnapshots)⟩
  · rintro ⟨⟨hwindows, hsnapshots⟩, rfl⟩
    have hone : mergeGrantRuntimeState (some previous) incoming nowMs = .ok
      (mergedState previous incoming nowMs) := by
      unfold mergeGrantRuntimeState
      dsimp only
      rw [if_neg (fun hne => hne hrev)]
      exact bind_ok.mpr ⟨(), require_ok.mpr (decide_eq_true hwindows),
        bind_ok.mpr ⟨(), require_ok.mpr (decide_eq_true hsnapshots), rfl⟩⟩
    unfold mergeArrival
    rw [hone]
    rfl

theorem mergeOrder_snoc {out : Option GrantRuntimeState} : mergeOrder nowMs (l ++ [s]) = .ok out ↔
    ∃ merged, mergeOrder nowMs l = .ok merged ∧ mergeArrival merged (s, nowMs) = .ok out := by
  unfold mergeOrder mergeAll
  rw [List.map_append, List.foldlM_append, bind_ok]
  refine exists_congr fun merged => and_congr Iff.rfl ?_
  rw [List.map_singleton, List.foldlM_cons, bind_ok]
  exact ⟨fun ⟨_, h, e⟩ => e ▸ h, fun h => ⟨out, h, rfl⟩⟩

theorem mergeOrder_some {merged : Option GrantRuntimeState} (hne : l ≠ [])
    (h : mergeOrder nowMs l = .ok merged) :
    ∃ r, merged = some r := by
  rcases List.eq_nil_or_concat l with rfl | ⟨earlier, s, rfl⟩
  · exact absurd rfl hne
  · rw [List.concat_eq_append] at h
    obtain ⟨_, -, harrival⟩ := mergeOrder_snoc.mp h
    obtain ⟨r, -, rfl⟩ := mergeArrival_ok harrival
    exact ⟨r, rfl⟩

/-- What is merged has the windows that the order leaves. -/
theorem mergeOrder_left (hrev : ∀ x ∈ l, x.grantRevision = revision) (h : mergeOrder nowMs l = .ok (some r)) :
    r.left = leftBy l ∧ r.grantRevision = revision := by
  induction l using List.reverseRecOn generalizing r with
  | nil => cases h
  | append_singleton earlier s ih =>
    have hs := hrev s (List.mem_append_right _ List.mem_cons_self)
    obtain ⟨merged, hmerged, harrival⟩ := mergeOrder_snoc.mp h
    rcases eq_or_ne earlier [] with rfl | hne
    · cases hmerged
      cases harrival
      exact ⟨rfl, hs⟩
    · obtain ⟨previous, rfl⟩ := mergeOrder_some hne hmerged
      obtain ⟨hleft, hprevious⟩ := ih (fun x hx => hrev x (List.mem_append_left _ hx)) hmerged
      have hsame := hprevious.trans hs.symm
      cases ((room_iff hsame).mp harrival).2
      rw [mergedState_left, hleft, leftBy_snoc hne]
      exact ⟨rfl, (mergedState_revision hsame).trans hs⟩

theorem order_returns (hrev : ∀ x ∈ l, x.grantRevision = revision) : (∃ r, mergeOrder nowMs l = .ok r) ↔
    ∀ earlier state later, l = earlier ++ state :: later → earlier ≠ [] → (leftBy earlier).Room state := by
  induction l using List.reverseRecOn with
  | nil => exact ⟨fun _ earlier state later h => absurd h.symm (by simp), fun _ => ⟨none, rfl⟩⟩
  | append_singleton init s ih =>
    have hinit := ih fun x hx => hrev x (List.mem_append_left _ hx)
    have hs := hrev s (List.mem_append_right _ List.mem_cons_self)
    have hstep : ∀ {previous out}, mergeOrder nowMs init = .ok (some previous) →
        (mergeArrival (some previous) (s, nowMs) = .ok out ↔
          (leftBy init).Room s ∧ out = some (mergedState previous s nowMs)) := by
      intro previous out hmerged
      obtain ⟨hleft, hprevious⟩ := mergeOrder_left (fun x hx => hrev x (List.mem_append_left _ hx)) hmerged
      rw [← hleft]
      exact room_iff (hprevious.trans hs.symm)
    constructor
    · rintro ⟨out, hout⟩ earlier state later heq hne
      obtain ⟨merged, hmerged, harrival⟩ := mergeOrder_snoc.mp hout
      rcases List.eq_nil_or_concat later with rfl | ⟨more, last, rfl⟩
      · obtain ⟨rfl, hlast⟩ := List.append_inj' heq rfl
        cases hlast
        obtain ⟨previous, rfl⟩ := mergeOrder_some hne hmerged
        exact ((hstep hmerged).mp harrival).1
      · rw [List.concat_eq_append, ← List.cons_append, ← List.append_assoc] at heq
        exact hinit.mp ⟨merged, hmerged⟩ earlier state more (List.append_inj' heq rfl).1 hne
    · intro hroom
      obtain ⟨merged, hmerged⟩ := hinit.mpr fun earlier state later heq =>
        hroom earlier state (later ++ [s]) (by rw [heq, List.append_assoc]; rfl)
      rcases eq_or_ne init [] with rfl | hne
      · exact ⟨some s, rfl⟩
      · obtain ⟨previous, rfl⟩ := mergeOrder_some hne hmerged
        exact ⟨_, mergeOrder_snoc.mpr ⟨_, hmerged, (hstep hmerged).mpr ⟨hroom init s [] rfl hne, rfl⟩⟩⟩

/-! ## 5. Without a signal -/

theorem max?_congr {l l' : List Int} (h : ∀ x, x ∈ l ↔ x ∈ l') : l.max? = l'.max? := by
  refine Option.ext fun m => ?_
  rw [List.max?_eq_some_iff, List.max?_eq_some_iff]
  simp only [h]

theorem quotaRuntime_congr {windows windows' : List GrantQuotaWindow} (source : RuntimeSource)
    (t : Int) (h : ∀ window, window ∈ windows ↔ window ∈ windows') :
    (quotaRuntime windows source t).verdict = (quotaRuntime windows' source t).verdict := by
  have hany : ∀ p : GrantQuotaWindow → Bool, windows.any p = windows'.any p := by
    intro p
    rw [Bool.eq_iff_iff, List.any_eq_true, List.any_eq_true]
    simp only [h]
  have hratio : (windows.filterMap (·.ratio)).any (· ≤ Binary64.round (1 / 10)) =
      (windows'.filterMap (·.ratio)).any (· ≤ Binary64.round (1 / 10)) := by
    rw [Bool.eq_iff_iff, List.any_eq_true, List.any_eq_true]
    simp only [List.mem_filterMap, h]
  have hnil : windows.filter (·.exhausted t) = [] ↔ windows'.filter (·.exhausted t) = [] := by
    simp only [List.filter_eq_nil_iff, h]
  have hreset : latestFutureReset (windows.filter (·.exhausted t)) t =
      latestFutureReset (windows'.filter (·.exhausted t)) t := by
    refine max?_congr fun x => ?_
    simp only [List.mem_filter, List.mem_filterMap, h]
  unfold quotaRuntime GrantRuntimeState.verdict
  dsimp only
  rw [hany, hratio, hreset]
  simp only [hnil]

theorem quota_verdict {b : GrantRuntimeState} (hnone : ∀ x ∈ a :: b :: rest, x.live nowMs = false)
    (hrev : ∀ x ∈ a :: b :: rest, x.grantRevision = revision)
      (h : mergeOrder nowMs (a :: b :: rest) = .ok (some r)) :
    r.verdict = (quotaRuntime r.windows .providerResponse r.observedAt).verdict ∧
      LatestTime (a :: b :: rest) r.observedAt := by
  have hmerge : ∀ p i : GrantRuntimeState, p.live nowMs = false → i.live nowMs = false →
      (mergedState p i nowMs).live nowMs = false ∧ (mergedState p i nowMs).verdict =
        (quotaRuntime (mergedState p i nowMs).windows .providerResponse
          (mergedState p i nowMs).observedAt).verdict := by
    intro p i hp hi
    obtain ⟨hsignal, hcooldown, hstatus⟩ := merge_quota hp hi
    refine ⟨quota_not_live nowMs hsignal, ?_⟩
    unfold GrantRuntimeState.verdict
    rw [hsignal, hcooldown, hstatus]
    rfl
  have hstep : ∀ (seen : List GrantRuntimeState) (r x : GrantRuntimeState), ((r.live nowMs = false ∧
        r.verdict = (quotaRuntime r.windows .providerResponse r.observedAt).verdict) ∧
        LatestTime seen r.observedAt) → x.live nowMs = false →
      ((mergedState r x nowMs).live nowMs = false ∧ (mergedState r x nowMs).verdict =
        (quotaRuntime (mergedState r x nowMs).windows .providerResponse
          (mergedState r x nowMs).observedAt).verdict) ∧
        LatestTime (seen ++ [x]) (mergedState r x nowMs).observedAt :=
    fun seen r x hP hx => ⟨hmerge r x hP.1.1 hx, latestTime_step hP.2 x⟩
  have ha := hrev a List.mem_cons_self
  have hb := hrev b (List.mem_cons_of_mem _ List.mem_cons_self)
  have hall : ∀ x ∈ rest, x.live nowMs = false ∧ x.grantRevision = revision := fun x hx =>
    ⟨hnone x (List.mem_cons_of_mem _ (List.mem_cons_of_mem _ hx)),
      hrev x (List.mem_cons_of_mem _ (List.mem_cons_of_mem _ hx))⟩
  have hbase := hmerge a b (hnone a List.mem_cons_self) (hnone b (List.mem_cons_of_mem _ List.mem_cons_self))
  obtain ⟨⟨-, hverdict⟩, htimed⟩ := rest_run [a, b] hstep
    ⟨hbase, latestTime_step (latestTime_single a) b⟩ ((mergedState_revision (ha.trans hb.symm)).trans hb)
    hall (mergeAll_two (ha.trans hb.symm) h)
  exact ⟨hverdict, htimed⟩

end Lists

/-! ## 6. Every order -/

section Orders

variable {states : List GrantRuntimeState} {nowMs : Int} {revision : Option GrantRevision}

theorem latestSignal_exists (h : ∃ x ∈ states, x.live nowMs = true) : ∃ s, LatestSignal nowMs states s := by
  obtain ⟨x, hx, hlive⟩ := h
  have hmem : x ∈ states.filter (·.live nowMs) := List.mem_filter.mpr ⟨hx, hlive⟩
  cases hn : newest (fun _ => ()) (·.observedAt) (states.filter (·.live nowMs)) () with
  | none => exact absurd rfl (newest_eq_none _ _ hn x hmem)
  | some s =>
    obtain ⟨hs, -, hmax⟩ := newest_some _ _ hn
    obtain ⟨hs, hl⟩ := List.mem_filter.mp hs
    exact ⟨s, hs, hl, fun other ho hol => hmax other (List.mem_filter.mpr ⟨ho, hol⟩) rfl⟩

theorem latestWins_of_unlent (hrev : ∀ s ∈ states, s.grantRevision = revision)
    (htimes : (states.map (·.observedAt)).Nodup) (h : Unlent nowMs states) (hs : LatestSignal nowMs states s)
    {r : GrantRuntimeState} (hperm : l.Perm states) (hl : mergeOrder nowMs l = .ok (some r)) :
    r.live nowMs = true ∧ r.signal = s.signal := by
  rcases h s hs with hlatest | hagree
  · exact kept_latest hs.live hlatest (fun x hx e => List.inj_on_of_nodup_map htimes hx hs.mem e)
      hs.mem hrev hperm hl
  · exact kept_agreed hagree ⟨s, hs.mem, hs.live⟩ hrev hperm hl

theorem orders_cases {l' : List GrantRuntimeState} {r r' : GrantRuntimeState} (hperm : l.Perm l')
    (h : mergeOrder nowMs l = .ok (some r)) (h' : mergeOrder nowMs l' = .ok (some r')) :
    r = r' ∨ (∃ a b rest, l = a :: b :: rest) ∧ ∃ a b rest, l' = a :: b :: rest := by
  obtain ⟨a, rest, rfl⟩ := mergeOrder_cons h
  obtain ⟨a', rest', rfl⟩ := mergeOrder_cons h'
  have hlength := hperm.length_eq
  cases rest with
  | nil =>
    cases rest' with
    | nil =>
      cases h
      cases h'
      exact Or.inl (List.singleton_perm_singleton.mp hperm)
    | cons b' rest' => cases hlength
  | cons b rest =>
    cases rest' with
    | nil => cases hlength
    | cons b' rest' => exact Or.inr ⟨⟨a, b, rest, rfl⟩, a', b', rest', rfl⟩

section

variable (hrev : ∀ s ∈ states, s.grantRevision = revision)
include hrev

theorem orderFree_of_live (htimes : (states.map (·.observedAt)).Nodup) (h : Unlent nowMs states)
    (hlive : ∃ x ∈ states, x.live nowMs = true) : OrderFree nowMs states := by
  intro l l' r r' hl hl' hr hr'
  obtain ⟨s, hs⟩ := latestSignal_exists hlive
  obtain ⟨hlr, hsr⟩ := latestWins_of_unlent hrev htimes h hs hl hr
  obtain ⟨hlr', hsr'⟩ := latestWins_of_unlent hrev htimes h hs hl' hr'
  rcases orders_cases (hl.trans hl'.symm) hr hr' with rfl | ⟨⟨a, b, rest, rfl⟩, a', b', rest', rfl⟩
  · rfl
  · have hstatus := cooldown_of_live (fun x hx => hrev x (hl.mem_iff.mp hx)) hr hlr
    have hstatus' := cooldown_of_live (fun x hx => hrev x (hl'.mem_iff.mp hx)) hr' hlr'
    obtain ⟨hlast, huntil⟩ := Prod.mk.inj (hsr.trans hsr'.symm)
    unfold GrantRuntimeState.verdict
    rw [hlast, huntil, hstatus, hstatus']

theorem quota_left {b : GrantRuntimeState} {rest : List GrantRuntimeState} {r : GrantRuntimeState}
    (hnone : ∀ x ∈ states, x.live nowMs = false) (hl : (a :: b :: rest).Perm states)
    (hr : mergeOrder nowMs (a :: b :: rest) = .ok (some r)) : LatestTime states r.observedAt ∧
      r.verdict = (quotaRuntime (leftBy (a :: b :: rest)).windows .providerResponse r.observedAt).verdict := by
  have hrevs : ∀ x ∈ a :: b :: rest, x.grantRevision = revision := fun x hx => hrev x (hl.mem_iff.mp hx)
  obtain ⟨hverdict, htimed⟩ := quota_verdict (fun x hx => hnone x (hl.mem_iff.mp hx)) hrevs hr
  rw [← (mergeOrder_left hrevs hr).1]
  exact ⟨htimed.perm hl, by rw [hverdict, ← mergeOrder_dated hrevs hr]; rfl⟩

theorem orderFree_of_quota (hnone : ∀ x ∈ states, x.live nowMs = false) (h : QuotaAgrees states) :
    OrderFree nowMs states := by
  intro l l' r r' hl hl' hr hr'
  rcases orders_cases (hl.trans hl'.symm) hr hr' with rfl | ⟨⟨a, b, rest, rfl⟩, a', b', rest', rfl⟩
  · rfl
  · obtain ⟨htime, hverdict⟩ := quota_left hrev hnone hl hr
    obtain ⟨htime', hverdict'⟩ := quota_left hrev hnone hl' hr'
    rw [hverdict, hverdict', htime.unique htime']
    exact h _ _ _ hl hl' htime'

theorem quotaAgrees_of_orderFree (hnone : ∀ x ∈ states, x.live nowMs = false)
    (hret : ∀ l, l.Perm states → ∃ r, mergeOrder nowMs l = .ok r) (h : OrderFree nowMs states) :
    QuotaAgrees states := by
  intro l l' t hl hl' ht
  obtain ⟨x, hx, -⟩ := ht.of
  have hsome : ∀ {l}, l.Perm states → ∃ r, mergeOrder nowMs l = .ok (some r) := by
    intro l hl
    obtain ⟨out, hout⟩ := hret l hl
    obtain ⟨r, rfl⟩ := mergeOrder_some (List.ne_nil_of_mem (hl.mem_iff.mpr hx)) hout
    exact ⟨r, hout⟩
  obtain ⟨r, hr⟩ := hsome hl
  obtain ⟨r', hr'⟩ := hsome hl'
  rcases orders_cases (hl.trans hl'.symm) hr hr' with rfl | ⟨⟨a, b, rest, rfl⟩, a', b', rest', rfl⟩
  · exact congrArg (fun left : Left => (quotaRuntime left.windows .providerResponse t).verdict)
      ((mergeOrder_left (fun x hx => hrev x (hl.mem_iff.mp hx)) hr).1.symm.trans
        (mergeOrder_left (fun x hx => hrev x (hl'.mem_iff.mp hx)) hr').1)
  · obtain ⟨htime, hverdict⟩ := quota_left hrev hnone hl hr
    obtain ⟨htime', hverdict'⟩ := quota_left hrev hnone hl' hr'
    rw [ht.unique htime]
    rw [← hverdict, h _ _ _ _ hl hl' hr hr', hverdict', htime.unique htime']

theorem lent_order (h : ¬ Unlent nowMs states)
    (hret : ∀ l, l.Perm states → ∃ r, mergeOrder nowMs l = .ok r) : ¬ LatestWins nowMs states := by
  intro hwins
  refine h fun s hs => ?_
  by_contra hneither
  rw [not_or] at hneither
  obtain ⟨hlate, hsays⟩ := hneither
  push Not at hlate hsays
  obtain ⟨q, hq, hlater⟩ := hlate
  obtain ⟨x, hx, hxl, hne⟩ := hsays
  have hql : q.live nowMs = false := by
    cases e : q.live nowMs with
    | false => rfl
    | true => exact absurd (hs.latest q hq e) (not_le.mpr hlater)
  -- the order that starts with the other signal and the later observation
  obtain ⟨l₁, l₂, rfl⟩ := List.append_of_mem hx
  have hqrest : q ∈ l₁ ++ l₂ := by
    rcases List.mem_append.mp hq with hm | hm
    · exact List.mem_append_left _ hm
    · rcases List.mem_cons.mp hm with rfl | hm
      · rw [hql] at hxl
        cases hxl
      · exact List.mem_append_right _ hm
  obtain ⟨m₁, m₂, hrest⟩ := List.append_of_mem hqrest
  have hperm : (x :: q :: (m₁ ++ m₂)).Perm (l₁ ++ x :: l₂) := by
    refine List.Perm.trans (List.Perm.cons x ?_) List.perm_middle.symm
    rw [hrest]
    exact List.perm_middle.symm
  obtain ⟨out, hr⟩ := hret _ hperm
  obtain ⟨r, rfl⟩ := mergeOrder_some (List.cons_ne_nil _ _) hr
  have hkept := kept_lent hxl hql (fun y hy hyl => le_of_lt (lt_of_le_of_lt (hs.latest y (hperm.mem_iff.mp
      (List.mem_cons_of_mem _ (List.mem_cons_of_mem _ hy))) hyl) hlater))
    (fun y hy => hrev y (hperm.mem_iff.mp hy)) hr
  exact hne (hkept.symm.trans (hwins s hs _ r hperm hr))

end

theorem orders_return (hrev : ∀ s ∈ states, s.grantRevision = revision) :
    (∀ l, l.Perm states → ∃ r, mergeOrder nowMs l = .ok r) ↔ Fits states := by
  constructor
  · intro h earlier state later hperm hne
    exact (order_returns fun x hx => hrev x (hperm.mem_iff.mp hx)).mp (h _ hperm) earlier state later rfl hne
  · intro h l hperm
    refine (order_returns fun x hx => hrev x (hperm.mem_iff.mp hx)).mpr ?_
    rintro earlier state later rfl hne
    exact h earlier state later hperm hne

/-- So it is for observations whose snapshots list nothing older, and whose windows and snapshots
    are of different
    times. -/
theorem quotaAgrees_of_current (hrev : ∀ s ∈ states, s.grantRevision = revision) (hfits : Fits states)
    (hcur : ∀ s ∈ states, Current s) (hdistinct : DistinctTimes states) : QuotaAgrees states := by
  intro l l' t hl hl' ht
  obtain ⟨x, hx, -⟩ := ht.of
  have hleft : ∀ {l}, l.Perm states → ∃ r, mergeOrder 0 l = .ok (some r) ∧ r.left = leftBy l := by
    intro l hl
    have hreturns : ∃ out, mergeOrder 0 l = .ok out := (orders_return hrev).mpr hfits l hl
    obtain ⟨out, hout⟩ := hreturns
    obtain ⟨r, rfl⟩ := mergeOrder_some (List.ne_nil_of_mem (hl.mem_iff.mpr hx)) hout
    exact ⟨r, hout, (mergeOrder_left (fun x hx => hrev x (hl.mem_iff.mp hx)) hout).1⟩
  obtain ⟨r, hr, hrl⟩ := hleft hl
  obtain ⟨r', hr', hrl'⟩ := hleft hl'
  rw [← hrl, ← hrl']
  rcases orders_cases (hl.trans hl'.symm) hr hr' with rfl | ⟨⟨a, b, rest, rfl⟩, a', b', rest', rfl⟩
  · rfl
  · refine quotaRuntime_congr _ _ fun window => ?_
    have hmap : ∀ k : List GrantRuntimeState,
        (k.map fun s => (s, (0 : Int))).map (fun x : GrantRuntimeState × Int => x.1) = k := by
      intro k
      rw [List.map_map]
      exact List.map_id k
    have hin : ∀ x ∈ (a' :: b' :: rest').map fun s => (s, (0 : Int)), x.1 ∈ states := by
      intro x hx
      obtain ⟨s, hs, rfl⟩ := List.mem_map.mp hx
      exact hl'.mem_iff.mp hs
    have hwindows := same_windows (by rw [List.length_map]; exact Nat.le_add_left 2 rest'.length)
      (fun x hx => hrev _ (hin x hx)) (fun x hx => hcur _ (hin x hx))
      (by rw [hmap, hmap]; exact hl.trans hl'.symm) hr' hr (by rw [hmap]; exact hdistinct.perm hl'.symm) window
    show window ∈ r.observed ↔ window ∈ r'.observed
    rw [mergeOrder_dated (fun x hx => hrev x (hl.mem_iff.mp hx)) hr,
      mergeOrder_dated (fun x hx => hrev x (hl'.mem_iff.mp hx)) hr']
    exact hwindows

end Orders

/-! ## 7. A quota observation between two signals -/

/-- An observation without windows, with the given signal. -/
def signalled (observedAt : Int) (signal : RuntimeSignal) (cooldownUntil : Option Int) : GrantRuntimeState :=
  { observation observedAt [] none with
    status := if cooldownUntil.isSome then .cooldown else .available
    lastSignal := signal
    cooldownUntil := cooldownUntil }

theorem leftBy_bare (h : ∀ s ∈ l, s.windows = [] ∧ s.windowSnapshots = []) : leftBy l = ⟨[], []⟩ := by
  have hobserved : ∀ {s : GrantRuntimeState}, s.windows = [] → s.observed = [] := by
    intro s hs
    unfold GrantRuntimeState.observed
    rw [hs, List.map_nil]
  induction l using List.reverseRecOn with
  | nil => rfl
  | append_singleton earlier s ih =>
    obtain ⟨hwindows, hsnapshots⟩ := h s (List.mem_append_right _ List.mem_cons_self)
    rcases eq_or_ne earlier [] with rfl | hne
    · exact congrArg₂ Left.mk (hobserved hwindows) hsnapshots
    · rw [leftBy_snoc hne, ih fun x hx => h x (List.mem_append_left _ hx)]
      unfold Left.next Left.windowsWith Left.snapshotsWith
      rw [hobserved hwindows, hsnapshots]
      rfl

theorem fits_bare {states : List GrantRuntimeState}
    (h : ∀ s ∈ states, s.windows = [] ∧ s.windowSnapshots = []) :
    Fits states := by
  intro earlier state later hperm hne
  obtain ⟨hwindows, hsnapshots⟩ := h state (hperm.mem_iff.mp (List.mem_append_right _ List.mem_cons_self))
  unfold Left.Room Left.windowsWith Left.snapshotsWith GrantRuntimeState.observed
  rw [leftBy_bare fun x hx => h x (hperm.mem_iff.mp (List.mem_append_left _ hx)), hwindows, hsnapshots]
  exact ⟨Nat.zero_le _, Nat.zero_le _⟩

/-- A rate limit at 1, a quota observation at 2 and a refused authentication at 3. -/
def twoSignals : List GrantRuntimeState :=
  [signalled 1 .rateLimited (some 100), signalled 2 .quota none, signalled 3 .authentication (some 200)]

end ClawRouter.Runtime
