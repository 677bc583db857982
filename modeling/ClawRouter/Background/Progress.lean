/-
  Subject:   The alarm of the background store: `claim` and what `save` schedules (src/worker/background-store.ts).

  An alarm claims at most four of the rows that are due. A claim is one transaction: it is refused, and changes
  nothing, when a row it saves is too large.

  * `claim_puts_off`: what a claim makes of a row is not due at its time.
  * **`alarm_progresses`**: repeated claims at one time reach every row that is due, and then find nothing.
-/
import ClawRouter.Background.Recovery

namespace ClawRouter.Background

open Fallible Keyed BackgroundStore

/-! ## 1. One row -/

/-- A tombstone, which is never due, or a job that is due later. -/
inductive PutOff (now : Int) : BackgroundRecord → Prop
  | closed {t : BackgroundTombstone} (never : nextAction (.closed t) = none) : PutOff now (.closed t)
  | later {job : BackgroundJob} {next : Int} (scheduled : nextAction (.live job) = some next)
    (later : now < next) :
      PutOff now (.live job)

def overdueRow (now : Int) (r : BackgroundRecord) : Bool := (nextAction r).any (· ≤ now)

section Row

variable {now : Int} {job : BackgroundJob}

theorem putOff_iff {r : BackgroundRecord} : PutOff now r ↔ overdueRow now r = false := by
  constructor
  · rintro (⟨never⟩ | ⟨scheduled, later⟩)
    · simp [overdueRow, never]
    · simpa [overdueRow, scheduled] using later
  · intro h
    cases r with
    | closed t => exact .closed rfl
    | live job => exact .later rfl (by simpa [overdueRow, nextAction] using h)

theorem lt_foldl_min {l : List Int} : ∀ {m : Int}, now < m → (∀ x ∈ l, now < x) → now < l.foldl min m := by
  induction l with
  | nil => exact fun h _ => h
  | cons x l ih =>
    intro m h hl
    exact ih (lt_min h (hl x List.mem_cons_self)) fun y hy => hl y (List.mem_cons_of_mem x hy)

theorem putOff_live (hreplay : now < job.replayUntil) (hobserve : job.event = none → now < job.observeUntil)
    (hattempt : job.nextAttemptAt < job.autoRetryUntil → now < job.nextAttemptAt) :
    PutOff now (.live job) := by
  refine .later rfl (lt_foldl_min hreplay fun x hx => ?_)
  rcases List.mem_append.mp hx with hx | hx
  · split at hx
    · rename_i hnone
      rw [List.mem_singleton.mp hx]
      exact hobserve (Option.isNone_iff_eq_none.mp hnone)
    · cases hx
  · split at hx
    · rename_i hretry
      rw [List.mem_singleton.mp hx]
      split
      · rename_i hopen
        simp only [Bool.and_eq_true, Option.isNone_iff_eq_none] at hopen
        exact hobserve hopen.1.1
      · exact hattempt hretry
    · cases hx

/-- A live job is due no later than its replay ends, and before it is frozen no later than its observation. -/
theorem nextAction_le {next : Int} (h : nextAction (.live job) = some next) :
    next ≤ job.replayUntil ∧ (job.event = none → next ≤ job.observeUntil) := by
  cases h
  refine ⟨foldl_min_le _ _, fun hnone => ?_⟩
  rw [if_pos (Option.isNone_iff_eq_none.mpr hnone), List.singleton_append, List.foldl_cons]
  exact le_trans (foldl_min_le _ _) (min_le_right _ _)

theorem freeze_event (outcome : AccountingOutcome) : (job.freeze outcome now).event ≠ none := by
  unfold BackgroundJob.freeze
  cases h : job.accounting <;> simp [Operation.event, Operation.freeze, h]

theorem freeze_admittedAt (outcome : AccountingOutcome) :
    (job.freeze outcome now).admittedAt = job.admittedAt := by
  unfold BackgroundJob.freeze
  cases h : job.accounting <;> simp [Operation.freeze, h]

theorem lapse_admittedAt (job : BackgroundJob) (now : Int) : (job.lapse now).admittedAt = job.admittedAt := by
  unfold BackgroundJob.lapse
  split
  · exact freeze_admittedAt _
  · rfl

/-- A job that a claim leaves without an event is still observed. -/
theorem lapse_observed (h : (job.lapse now).event = none) : now < job.observeUntil := by
  unfold BackgroundJob.lapse at h
  split at h
  · exact absurd h (freeze_event _)
  · rename_i hopen
    by_contra hlate
    exact hopen (by simp [h, not_lt.mp hlate])

/-- **A claim puts a row off**, whatever it does to it. -/
theorem claim_puts_off (now : Int) (r : BackgroundRecord) :
    ∃ r', claim now false (some r) = .ok (some r') ∧ PutOff now r' := by
  cases r with
  | closed t => exact ⟨_, rfl, .closed rfl⟩
  | live job =>
    by_cases hreplay : job.replayUntil ≤ now
    · exact ⟨.closed (job.close .expired), by
        simp [claim, require, bind, Except.bind, pure, Except.pure, hreplay],
        .closed rfl⟩
    have hadmitted := lapse_admittedAt job now
    have hlater : now < (job.lapse now).replayUntil := by
      unfold Operation.replayUntil at hreplay ⊢
      rw [hadmitted]
      exact not_le.mp hreplay
    have hobserve : (job.lapse now).event = none → now < (job.lapse now).observeUntil := fun h => by
      unfold Operation.observeUntil
      rw [hadmitted]
      exact lapse_observed h
    by_cases hretry : (job.lapse now).autoRetryUntil ≤ now
    · refine ⟨.live { job.lapse now with nextAttemptAt := (job.lapse now).autoRetryUntil }, ?_, ?_⟩
      · simp [claim, require, bind, Except.bind, pure, Except.pure, hreplay, hretry]
      · exact putOff_live hlater hobserve fun h => absurd h (lt_irrefl _)
    · refine ⟨.live { job.lapse now with attempts := (job.lapse now).attempts + 1, nextAttemptAt :=
        now + 30000 },
        ?_, ?_⟩
      · simp [claim, require, bind, Except.bind, pure, Except.pure, hreplay, hretry]
      · exact putOff_live hlater hobserve fun _ => by show now < now + 30000; omega

theorem claim_total (now : Int) (row : Option BackgroundRecord) : ∃ row', claim now false row = .ok row' := by
  cases row with
  | none => exact ⟨none, rfl⟩
  | some r =>
    obtain ⟨r', h, _⟩ := claim_puts_off now r
    exact ⟨some r', h⟩

end Row

/-! ## 2. One claim -/

namespace BackgroundStore

def overdue (s : BackgroundStore) (now : Int) : List String :=
  (s.rows.rows.filter (overdueRow now)).map BackgroundRecord.id

/-- What `claim` returns: the rows it selected that it retries, as it left them. -/
def work (s s' : BackgroundStore) (now : Int) : List BackgroundJob :=
  (s.due now).filterMap fun id =>
    match s'.rows.find? id with
    | some (.live job) => if now < job.autoRetryUntil then some job else none
    | _ => none

end BackgroundStore

section Claim

variable {now : Int} {s s' : BackgroundStore} {id : String}

theorem mem_overdue : id ∈ s.overdue now ↔ ∃ r, s.rows.find? id = some r ∧ overdueRow now r = true := by
  simp only [overdue, List.mem_map, List.mem_filter, Table.find?_eq_some]
  grind

theorem overdue_nodup : (s.overdue now).Nodup := s.rows.nodup.sublist (List.filter_sublist.map _)

theorem due_overdue (h : id ∈ s.due now) : id ∈ s.overdue now := by
  obtain ⟨r, hr, rfl⟩ := List.mem_map.mp h
  exact List.mem_map_of_mem (List.mem_mergeSort.mp (List.mem_of_mem_take hr))

theorem due_length : (s.due now).length = min 4 (s.overdue now).length := by
  simp only [due, overdue, List.length_map, List.length_take, List.length_mergeSort]
  rfl

/-- What a claim leaves: the rows it selected are put off, and the others are as they were. -/
structure Claimed (now : Int) (s s' : BackgroundStore) : Prop where
  selected : ∀ id ∈ s.due now, ∃ r, s'.rows.find? id = some r ∧ PutOff now r
  others : ∀ id ∉ s.due now, s'.rows.find? id = s.rows.find? id

theorem claims_selected : ∀ {ids : List String} {s : BackgroundStore}, ids.Nodup →
    (∀ id ∈ ids, (s.rows.find? id).isSome) → ids.foldlM (fun s id => s.onRow id (claim now false))
      s = .ok s' →
    ∀ id ∈ ids, ∃ r, s'.rows.find? id = some r ∧ PutOff now r := by
  intro ids
  induction ids with
  | nil => exact fun _ _ _ id hid => by cases hid
  | cons first ids ih =>
    intro s hnodup hrows h id hid
    obtain ⟨hfirst, hnodup⟩ := List.nodup_cons.mp hnodup
    rw [List.foldlM_cons, bind_ok] at h
    obtain ⟨s₁, hs₁, h⟩ := h
    obtain ⟨hrow, hother⟩ := onRow_ok (fun _ _ => claim_moves) hs₁
    rcases List.mem_cons.mp hid with rfl | hid
    · obtain ⟨r, hr⟩ := Option.isSome_iff_exists.mp (hrows id List.mem_cons_self)
      obtain ⟨r', hr', hoff⟩ := claim_puts_off now r
      rw [hr, hr'] at hrow
      rw [claims_other hfirst h, ← Except.ok.inj hrow]
      exact ⟨r', rfl, hoff⟩
    · refine ih hnodup (fun other hm => ?_) h id hid
      rw [hother other fun e => hfirst (e ▸ hm)]
      exact hrows other (List.mem_cons_of_mem first hm)

theorem claims_total (now : Int) : ∀ (ids : List String) (s : BackgroundStore), ∃ s',
    ids.foldlM (fun s id => s.onRow id (claim now false)) s = .ok s' := by
  intro ids
  induction ids with
  | nil => exact fun s => ⟨s, rfl⟩
  | cons first ids ih =>
    intro s
    obtain ⟨row, hrow⟩ := claim_total now (s.rows.find? first)
    obtain ⟨s', hs'⟩ := ih (s.save row)
    refine ⟨s', ?_⟩
    rw [List.foldlM_cons, bind_ok]
    refine ⟨s.save row, ?_, hs'⟩
    unfold onRow
    rw [bind_ok]
    exact ⟨row, hrow, rfl⟩

/-- A claim is refused for its size only; otherwise it has put off what it selected. -/
theorem exec_claim (now : Int) (s : BackgroundStore) : ∃ s', Claimed now s s' ∧
    ∀ fits, exec now fits s .claimDue = if fits then (s', .ok false) else (s, .error metadataTooLarge) := by
  obtain ⟨s', h⟩ := claims_total now (s.due now) s
  have hclaim : s.claimDue now = .ok s' := h
  refine ⟨s', ⟨claims_selected due_nodup (fun id hid => ?_) h, fun id hid => claims_other hid
    h⟩, fun fits => ?_⟩
  · obtain ⟨r, hr, _⟩ := mem_overdue.mp (due_overdue hid)
    rw [hr]
    rfl
  · simp only [exec, attempt, hclaim, bind, Except.bind, pure, Except.pure]

theorem claimed_row (h : Claimed now s s') (hrow : (s.rows.find? id).isSome) : (s'.rows.find? id).isSome := by
  by_cases hid : id ∈ s.due now
  · obtain ⟨r, hr, _⟩ := h.selected id hid
    rw [hr]
    rfl
  · rw [h.others id hid]
    exact hrow

/-- Of the rows that are due, four fewer are left, or none. -/
theorem claimed_overdue (h : Claimed now s s') : (s'.overdue now).length ≤ (s.overdue now).length - 4 := by
  have hout : ∀ id ∈ s'.overdue now, id ∉ s.due now := by
    intro id hid hdue
    obtain ⟨r, hr, hlate⟩ := mem_overdue.mp hid
    obtain ⟨r', hr', hoff⟩ := h.selected id hdue
    rw [hr] at hr'
    cases hr'
    rw [putOff_iff.mp hoff] at hlate
    cases hlate
  have hnodup : (s.due now ++ s'.overdue now).Nodup :=
    List.Nodup.append due_nodup overdue_nodup fun id hdue hid => hout id hid hdue
  have hsub : s.due now ++ s'.overdue now ⊆ s.overdue now := by
    intro id hid
    rcases List.mem_append.mp hid with hid | hid
    · exact due_overdue hid
    · have hlate := mem_overdue.mp hid
      rw [h.others id (hout id hid)] at hlate
      exact mem_overdue.mpr hlate
  have hlength := (List.subperm_of_subset hnodup hsub).length_le
  rw [List.length_append, due_length] at hlength
  omega

/-! ## 3. Repeated claims -/

/-- Claims at one time; `fits` says which of them are not refused. -/
def BackgroundStore.alarms (s : BackgroundStore) (now : Int) (fits : List Bool) : BackgroundStore :=
  fits.foldl (fun s fits => (exec now fits s .claimDue).1) s

theorem alarms_run (now : Int) (fits : List Bool) : ∀ s : BackgroundStore,
    ((s.alarms now fits).overdue now).length ≤ (s.overdue now).length - 4 * fits.count true ∧
      ∀ id, (s.rows.find? id).isSome → ((s.alarms now fits).rows.find? id).isSome := by
  induction fits with
  | nil => exact fun s => ⟨le_refl _, fun _ h => h⟩
  | cons fit fits ih =>
    intro s
    obtain ⟨s', hclaimed, hexec⟩ := exec_claim now s
    have hfirst := claimed_overdue hclaimed
    unfold alarms at ih ⊢
    rw [List.foldl_cons, hexec fit]
    cases fit with
    | false => simpa using ih s
    | true =>
      obtain ⟨hcount, hrows⟩ := ih s'
      refine ⟨?_, fun id h => hrows id (claimed_row hclaimed h)⟩
      rw [List.count_cons_self]
      simp only [if_true]
      omega

/-- What the alarm does from a state. -/
structure Progresses (now : Int) (s : BackgroundStore) : Prop where
  /-- A live job has a time, which is no later than its replay and, before it is frozen, its observation. -/
  scheduled : ∀ id job, s.rows.find? id = some (.live job) → ∃ next, nextAction (.live job) = some next ∧
    next ≤ job.replayUntil ∧ (job.event = none → next ≤ job.observeUntil)
  /-- A claim that is not refused puts off every row that it selected. -/
  claimed : ∀ fits s', exec now fits s .claimDue = (s', .ok false) →
    ∀ id ∈ s.due now, ∃ r, s'.rows.find? id = some r ∧ PutOff now r
  /-- As many claims as the rows that are due take reach all of them, -/
  reached : ∀ fits, (s.overdue now).length ≤ 4 * fits.count true →
    ∀ id ∈ s.overdue now, ∃ r, (s.alarms now fits).rows.find? id = some r ∧ PutOff now r
  /-- and the next one changes nothing and returns no work. -/
  quiet : ∀ fits, (s.overdue now).length ≤ 4 * fits.count true →
    (s.alarms now fits).claimDue now = .ok (s.alarms now fits) ∧
      (s.alarms now fits).work (s.alarms now fits) now = []

/-- **The alarm makes progress**, from every state of the store and at every time. -/
theorem alarm_progresses (s : BackgroundStore) (now : Int) : Progresses now s where
  scheduled _ _ _ := ⟨_, rfl, nextAction_le rfl⟩
  claimed := by
    intro fits s' h
    obtain ⟨t, hclaimed, hexec⟩ := exec_claim now s
    rw [hexec fits] at h
    cases fits with
    | false => cases h
    | true =>
      cases h
      exact hclaimed.selected
  reached := by
    intro fits hfits id hid
    obtain ⟨hcount, hrows⟩ := alarms_run now fits s
    have hnone : (s.alarms now fits).overdue now = [] := List.length_eq_zero_iff.mp (by omega)
    obtain ⟨r, hr, _⟩ := mem_overdue.mp hid
    obtain ⟨r', hr'⟩ := Option.isSome_iff_exists.mp (hrows id (by rw [hr]; rfl))
    refine ⟨r', hr', putOff_iff.mpr ?_⟩
    by_contra hlate
    have hmem : id ∈ (s.alarms now fits).overdue now := mem_overdue.mpr ⟨r', hr', by simpa using hlate⟩
    rw [hnone] at hmem
    cases hmem
  quiet := by
    intro fits hfits
    obtain ⟨hcount, _⟩ := alarms_run now fits s
    have hdue : (s.alarms now fits).due now = [] := by
      refine List.length_eq_zero_iff.mp ?_
      rw [due_length]
      omega
    unfold claimDue work
    rw [hdue]
    exact ⟨rfl, rfl⟩

end Claim

end ClawRouter.Background
