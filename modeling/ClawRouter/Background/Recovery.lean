/-
  Subject:   The runs of the background store, in any order of its mutations.

  * **`permission_once`**: a job is sent at most once, and only when all of its legs are reserved
    and dispatched;
  * **`receipt_immutable`**: a frozen receipt does not change and is not dropped;
  * **`key_creates_once`**: an idempotency key creates one job in the time that it may be replayed.
-/
import ClawRouter.Background.Lifecycle
import ClawRouter.Lib.Timed

namespace ClawRouter.Background

open Fallible Keyed Trace Charging

/-! ## 1. What a job was admitted with -/

section Origin

variable {now : Int} {row row' : Option BackgroundRecord} {job : BackgroundJob}

/-- The admission of the managed job of a row. -/
def origin : Option BackgroundRecord → Option ManagedAdmission
  | some (.live job) => job.managed.map (·.admission)
  | some (.closed t) => t.managed.map (·.admission)
  | none => none

theorem freeze_origin (outcome : AccountingOutcome) :
    origin (some (.live (job.freeze outcome now))) = origin (some (.live job)) := by
  unfold BackgroundJob.freeze
  split <;> rfl

theorem lapse_origin : origin (some (.live (job.lapse now))) = origin (some (.live job)) := by
  unfold BackgroundJob.lapse
  split
  · exact freeze_origin _
  · rfl

theorem compact_origin : origin (some job.compact) = origin (some (.live job)) := by
  unfold BackgroundJob.compact
  split <;> rfl

theorem map_admission {f : ManagedState → ManagedState} (hf : ∀ m, (f m).admission = m.admission)
    (m : Option ManagedState) : (m.map f).map (·.admission) = m.map (·.admission) := by
  rw [Option.map_map]
  exact congrArg (m.map ·) (funext hf)

theorem claim_origin {manual : Bool} (h : claim now manual row = .ok row') : origin row' = origin row := by
  unfold claim at h
  grind [= bind_ok, = require_ok, = pure_ok, lapse_origin, origin, BackgroundJob.close]

/-- **Every mutation of a row keeps it.** -/
theorem run_origin {op : RowOp} (h : op.run now row = .ok row') : origin row' = origin row := by
  cases op with
  | claim => exact claim_origin h
  | observeManaged _ _ _ _ _ =>
    simp only [RowOp.run, Background.observeManaged] at h
    split at h
    · split at h
      · grind [= pure_ok]
      · simp only [bind_ok, demand_ok] at h
        obtain ⟨managed, hmanaged, _, -, _, -, _, -, h⟩ := h
        split at h <;> grind [= bind_ok, = pure_ok, freeze_origin, origin]
    · grind [= pure_ok]
  | _ =>
    simp only [RowOp.run, Background.beginReserve, Background.reserved, Background.dispatched, onOperation,
      Background.beginEgress, Background.beginDispatch, Background.identity, Background.bindManagedFiles,
      Background.freeze, Background.acknowledge, Background.retry, Background.claimInputUpload,
      Background.bindInputUpload, Background.claimInputCreate, bind_ok, demand_ok, require_ok, pure_ok] at h
    grind [= bind_ok, = demand_ok, = require_ok, = pure_ok, → job_ok, → upload_ok, →
      admitting_ok, freeze_origin,
      compact_origin, map_admission, origin, BackgroundJob.setUpload, BackgroundRecord.managed]

theorem evolves_admittedAt {a b : BackgroundRecord} (h : Evolves now a b) : b.admittedAt = a.admittedAt := by
  cases h with
  | live later _ | complete later _ _ _ _ _ | expired later _ _ => exact later.admittedAt
  | closed same _ => exact congrArg Tombstone.admittedAt same

/-- The row of a managed job is there as long as the job may be replayed. -/
def Stays (now : Int) (row row' : Option BackgroundRecord) : Prop :=
  ∀ r, row = some r → (origin row).isSome = true → now < r.replayUntil →
    ∃ r', row' = some r' ∧ origin row' = origin row ∧ r'.admittedAt = r.admittedAt

theorem Stays.same : Stays now row row := fun r hr _ _ => ⟨r, hr, rfl, rfl⟩

theorem Stays.evicted {t : BackgroundTombstone} (h : BackgroundStore.evictable now (.closed t) = true) :
    Stays now (some (.closed t)) row' := by
  rintro _ ⟨⟩ hmanaged hlive
  rw [origin, Option.isSome_map] at hmanaged
  rcases Bool.or_eq_true_iff.mp h with hnone | hlate
  · rw [Option.isNone_iff_eq_none.mp hnone] at hmanaged
    cases hmanaged
  · exact absurd hlive (Int.not_lt.mpr (of_decide_eq_true hlate))

end Origin

/-! ## 2. One step, one row -/

def Op.admits (id : String) : Op → Bool
  | .admitJob input => input.id = id
  | .allocateInput _ admission _ => admission.id = id
  | .admitManaged input => input.id = id
  | _ => false

def Op.admission : Op → Option BackgroundAdmission
  | .admitJob input => some input
  | .allocateInput _ admission _ => some admission
  | .admitManaged input => some input
  | _ => none

/-- A job is admitted: its row is new, and a closed one may make room for it. -/
structure Admitted (now : Int) (s s' : BackgroundStore) (input : BackgroundAdmission)
    (job : BackgroundJob) : Prop where
  checked : s.admitsManaged now input = .ok ()
  free : s.rows.find? input.id = none
  new : s'.rows.find? input.id = some (.live job)
  begins : { job with inputReceipt := none } = newBackgroundJob input
  sound : Sound (.live job)
  other : ∀ other, other ≠ input.id → s'.rows.find? other = s.rows.find? other ∨
    (∃ t, s.rows.find? other = some (.closed t) ∧ BackgroundStore.evictable now (.closed t) = true) ∧
      s'.rows.find? other = none

/-- What a mutation and its answer make of the row of an id. -/
inductive RowChange (now : Int) (id : String) (op : Op) (answer : Answer Bool) :
    Option BackgroundRecord → Option BackgroundRecord → Prop
  | same {row : Option BackgroundRecord} : RowChange now id op answer row row
  | moved {a b : BackgroundRecord} (moves : Moves now a b) :
      RowChange now id op answer (some a) (some b)
  | admitted {job : BackgroundJob} (admits : op.admits id = true) (answered : answer = .ok true)
      (sound : Sound (.live job)) : RowChange now id op answer none (some (.live job))
  | evicted {t : BackgroundTombstone} : RowChange now id op answer (some (.closed t)) none

section Step

variable {now : Int} {s s' : BackgroundStore} {id : String} {op : Op} {answer : Answer Bool}
  {row row' : Option BackgroundRecord}

theorem evolves_id {a b : BackgroundRecord} (h : Evolves now a b) : b.id = a.id := by
  cases h with
  | live later _ | complete later _ _ _ _ _ | expired later _ _ => exact later.id
  | closed same _ => exact congrArg Tombstone.id same

theorem onRow_ok {f : Option BackgroundRecord → Answer (Option BackgroundRecord)}
    (hf : ∀ row row', f row = .ok row' → RowMoves now row row') (h : s.onRow id f = .ok s') :
    f (s.rows.find? id) = .ok (s'.rows.find? id) ∧ ∀ other, other ≠ id →
      s'.rows.find? other = s.rows.find? other := by
  unfold BackgroundStore.onRow at h
  simp only [bind_ok, pure_ok] at h
  obtain ⟨row', hrow, rfl⟩ := h
  have hmoves := hf _ _ hrow
  cases row' with
  | none =>
    rcases hmoves with e | ⟨_, _, _, e, _⟩
    · rw [← e] at hrow
      refine ⟨?_, fun _ _ => rfl⟩
      show _ = Except.ok (s.rows.find? id)
      rw [← e]
      exact hrow
    · cases e
  | some record =>
    have hid : record.id = id := by
      rcases hmoves with e | ⟨a, b, ha, e, hmoves⟩
      · exact (Table.find?_eq_some.mp e.symm).2
      · cases e
        exact (evolves_id hmoves.evolves).trans (Table.find?_eq_some.mp ha).2
    unfold BackgroundStore.save
    rw [Table.find?_upsert, if_pos hid]
    refine ⟨hrow, fun other hne => ?_⟩
    rw [Table.find?_upsert, if_neg fun e => hne (e.symm.trans hid)]

theorem newOperation_sound {admittedAt : Int} {facts : AccountingFacts}
    {plan : BudgetReservationPlan} : (newOperation id admittedAt facts plan).Sound where
  settlements := by
    show _ = (plan.legs.map _).map _
    rw [List.map_map]
    rfl
  frozen := fun _ => nofun
  unfrozen := fun _ => nofun

theorem oldest_ok {record : BackgroundRecord} (h : s.oldest now = some record) :
    record ∈ s.rows.rows ∧ ∃ t, record = .closed t ∧ BackgroundStore.evictable now (.closed t) = true := by
  have hmem := List.mem_of_mem_head? h
  rw [List.mem_mergeSort, List.mem_filter] at hmem
  obtain ⟨hmem, hevict⟩ := hmem
  refine ⟨hmem, ?_⟩
  cases record with
  | live job => cases hevict
  | closed t => exact ⟨t, rfl, hevict⟩

theorem newBackgroundJob_sound {input : BackgroundAdmission} : Sound (.live (newBackgroundJob input)) :=
  .live newOperation_sound fun _ => nofun

theorem admit_ok {input : BackgroundAdmission} (h : s.admitJob now input = .ok s') :
    Admitted now s s' input (newBackgroundJob input) := by
  unfold BackgroundStore.admitJob at h
  simp only [bind_ok, require_ok] at h
  obtain ⟨_, -, _, hchecked, _, hfree, _, -, h⟩ := h
  have hfree : s.rows.find? input.id = none := Option.isNone_iff_eq_none.mp hfree
  have hid : (BackgroundRecord.live (newBackgroundJob input)).id = input.id := rfl
  split at h
  · cases h
    refine ⟨hchecked, hfree, ?_, rfl, newBackgroundJob_sound, fun other hne => .inl ?_⟩
    · rw [Table.find?_upsert, if_pos hid]
    · rw [Table.find?_upsert, if_neg fun e => hne (e.symm.trans hid)]
  · simp only [bind_ok, demand_ok, pure_ok] at h
    obtain ⟨old, hold, rfl⟩ := h
    obtain ⟨hmem, t, rfl, hevict⟩ := oldest_ok hold
    refine ⟨hchecked, hfree, ?_, rfl, newBackgroundJob_sound, fun other hne => ?_⟩
    · rw [Table.find?_upsert, if_pos hid]
    · rw [Table.find?_upsert, if_neg fun e => hne (e.symm.trans hid), Table.find?_delete]
      cases hother : s.rows.find? other with
      | none => exact .inl rfl
      | some record =>
        obtain ⟨hrecord, hkey⟩ := Table.find?_eq_some.mp hother
        by_cases e : record.id = t.id
        · -- the row of `other` is the one that makes room
          have := Table.eq_of_key hrecord hmem e
          subst this
          refine .inr ⟨⟨t, rfl, hevict⟩, ?_⟩
          rw [Option.filter_some_neg]
          simp
        · refine .inl ?_
          rw [Option.filter_some_pos]
          show (!(record.id == t.id)) = true
          rw [beq_false_of_ne e]
          rfl

theorem allocateInput_ok {binding : ManagedInputBinding} {admission : BackgroundAdmission}
    {upload : BackgroundStore.UploadAdmission} (h : s.allocateInput now binding admission upload = .ok s') :
    ∃ job, Admitted now s s' admission job := by
  unfold BackgroundStore.allocateInput at h
  simp only [bind_ok, pure_ok] at h
  obtain ⟨_, -, _, -, admitted, hadmit, rfl⟩ := h
  have hnew := admit_ok hadmit
  refine ⟨_, hnew.checked, hnew.free, by rw [Table.find?_upsert]; exact if_pos rfl, rfl,
    .live newOperation_sound ?_, fun other hne => ?_⟩
  · intro receipt hreceipt
    cases hreceipt
    refine ⟨fun op hop => ?_, fun _ h => by cases h⟩
    cases hop
    exact newOperation_sound
  · rw [Table.find?_upsert, if_neg]
    · exact hnew.other other hne
    · exact Ne.symm hne

/-- An admission finds its job, or makes it. -/
theorem attempt_admission {input : BackgroundAdmission} {created : Bool} (hop : op.admission = some input)
    (h : attempt now s op = .ok (s', created)) :
    created = false ∧ s' = s ∨ created = true ∧ ∃ job, Admitted now s s' input job := by
  cases op with
  | admitJob _ =>
    cases hop
    unfold attempt at h
    simp only [bind_ok, pure_ok, Prod.mk.injEq] at h
    obtain ⟨_, hadmit, rfl, rfl⟩ := h
    exact .inr ⟨rfl, _, admit_ok hadmit⟩
  | allocateInput _ _ _ =>
    cases hop
    unfold attempt at h
    simp only [bind_ok, pure_ok, Prod.mk.injEq] at h
    obtain ⟨_, hallocate, rfl, rfl⟩ := h
    exact .inr ⟨rfl, allocateInput_ok hallocate⟩
  | admitManaged _ =>
    cases hop
    unfold attempt BackgroundStore.admitManaged at h
    simp only [bind_ok, demand_ok] at h
    obtain ⟨managed, -, _, -, found, -, h⟩ := h
    cases found with
    | some _ =>
      cases h
      exact .inl ⟨rfl, rfl⟩
    | none =>
      simp only [bind_ok, pure_ok, Prod.mk.injEq] at h
      obtain ⟨_, hadmit, rfl, rfl⟩ := h
      exact .inr ⟨rfl, _, admit_ok hadmit⟩
  | row _ _ | claimDue | allocatePublishedInput => cases hop

theorem claims_other : ∀ {ids : List String} {s : BackgroundStore}, id ∉ ids →
    ids.foldlM (fun s id => s.onRow id (claim now false)) s = .ok s' →
      s'.rows.find? id = s.rows.find? id := by
  intro ids
  induction ids with
  | nil =>
    intro s _ h
    cases h
    rfl
  | cons first ids ih =>
    intro s hid h
    rw [List.foldlM_cons, bind_ok] at h
    obtain ⟨s₁, hs₁, h⟩ := h
    rw [ih (fun hm => hid (List.mem_cons_of_mem _ hm)) h]
    exact (onRow_ok (fun _ _ => claim_moves) hs₁).2 id fun e => hid (e ▸ List.mem_cons_self)

theorem claimDue_ok : ∀ {ids : List String} {s : BackgroundStore}, ids.Nodup →
    ids.foldlM (fun s id => s.onRow id (claim now false)) s = .ok s' →
      ∀ id, s'.rows.find? id = s.rows.find? id ∨
      claim now false (s.rows.find? id) = .ok (s'.rows.find? id) := by
  intro ids
  induction ids with
  | nil =>
    intro s _ h id
    cases h
    exact .inl rfl
  | cons first ids ih =>
    intro s hnodup h id
    obtain ⟨hfirst, hnodup⟩ := List.nodup_cons.mp hnodup
    rw [List.foldlM_cons, bind_ok] at h
    obtain ⟨s₁, hs₁, h⟩ := h
    obtain ⟨hrow, hother⟩ := onRow_ok (fun _ _ => claim_moves) hs₁
    by_cases e : id = first
    · subst e
      rw [claims_other hfirst h]
      exact .inr hrow
    · have hid := hother id e
      rw [← hid]
      exact ih hnodup h id

theorem due_nodup : (s.due now).Nodup := by
  have hsub : ((s.rows.rows.filter fun r => (BackgroundStore.nextAction r).any (· ≤ now)).map
      BackgroundRecord.id).Nodup := s.rows.nodup.sublist (List.filter_sublist.map _)
  have hperm := (List.mergeSort_perm
    (s.rows.rows.filter fun r => (BackgroundStore.nextAction r).any (· ≤ now)) fun a b =>
      ((BackgroundStore.nextAction a).getD 0) ≤ ((BackgroundStore.nextAction b).getD 0)).map
    BackgroundRecord.id
  exact (hperm.nodup_iff.mpr hsub).sublist ((List.take_sublist 4 _).map _)

theorem RowMoves.change (h : RowMoves now row row') (ho : origin row' = origin row) :
    RowChange now id op answer row row' ∧ Stays now row row' := by
  rcases h with rfl | ⟨a, b, rfl, rfl, hmoves⟩
  · exact ⟨.same, .same⟩
  · exact ⟨.moved hmoves, fun _ hr _ _ => ⟨b, rfl, ho, Option.some.inj hr ▸ evolves_admittedAt
      hmoves.evolves⟩⟩

theorem admission_change {input : BackgroundAdmission} {created : Bool} (hop : op.admission = some input)
    (h : attempt now s op = .ok (s', created)) (id : String) :
    RowChange now id op (.ok created) (s.rows.find? id) (s'.rows.find? id) ∧
      Stays now (s.rows.find? id) (s'.rows.find? id) := by
  rcases attempt_admission hop h with ⟨-, rfl⟩ | ⟨rfl, job, hnew⟩
  · exact ⟨.same, .same⟩
  · by_cases e : id = input.id
    · subst e
      rw [hnew.free, hnew.new]
      exact ⟨.admitted (by cases op <;> cases hop <;> exact decide_eq_true rfl) rfl
        hnew.sound, fun _ => nofun⟩
    · rcases hnew.other id e with h | ⟨⟨t, ht, hevict⟩, h⟩
      · rw [h]
        exact ⟨.same, .same⟩
      · rw [ht, h]
        exact ⟨.evicted, .evicted hevict⟩

theorem attempt_change {created : Bool} (h : attempt now s op = .ok (s', created)) (id : String) :
    RowChange now id op (.ok created) (s.rows.find? id) (s'.rows.find? id) ∧
      Stays now (s.rows.find? id) (s'.rows.find? id) := by
  cases op with
  | admitJob _ | allocateInput _ _ _ | admitManaged _ => exact admission_change rfl h id
  | row target r =>
    unfold attempt at h
    simp only [bind_ok, pure_ok, Prod.mk.injEq] at h
    obtain ⟨_, hrow, rfl, -⟩ := h
    obtain ⟨hrun, hother⟩ := onRow_ok (fun _ _ => run_moves) hrow
    by_cases e : id = target
    · subst e
      exact (run_moves hrun).change (run_origin hrun)
    · rw [hother id e]
      exact ⟨.same, .same⟩
  | claimDue =>
    unfold attempt at h
    simp only [bind_ok, pure_ok, Prod.mk.injEq] at h
    obtain ⟨_, hclaim, rfl, -⟩ := h
    rcases claimDue_ok due_nodup hclaim id with e | hrun
    · rw [e]
      exact ⟨.same, .same⟩
    · exact (claim_moves hrun).change (claim_origin hrun)
  | allocatePublishedInput =>
    unfold attempt at h
    simp only [bind_ok, pure_ok, Prod.mk.injEq] at h
    obtain ⟨_, -, rfl, -⟩ := h
    exact ⟨.same, .same⟩

/-- A mutation throws and changes nothing, or is done. -/
theorem step_attempt (h : Step s (now, (op, answer)) s') :
    (∃ error, answer = .error error) ∧ s' = s ∨ ∃ created, answer = .ok created ∧
      attempt now s op = .ok (s', created) := by
  obtain ⟨fits, h⟩ := h
  unfold exec at h
  split at h
  · cases fits with
    | false =>
      cases h
      exact .inl ⟨⟨_, rfl⟩, rfl⟩
    | true =>
      cases h
      exact .inr ⟨_, rfl, ‹_›⟩
  · cases h
    exact .inl ⟨⟨_, rfl⟩, rfl⟩

theorem step_row (h : Step s (now, (op, answer)) s') (id : String) :
    RowChange now id op answer (s.rows.find? id) (s'.rows.find? id) ∧
      Stays now (s.rows.find? id) (s'.rows.find? id) := by
  rcases step_attempt h with ⟨-, rfl⟩ | ⟨created, rfl, hattempt⟩
  · exact ⟨.same, .same⟩
  · exact attempt_change hattempt id

theorem step_change (h : Step s (now, (op, answer)) s') (id : String) :
    RowChange now id op answer (s.rows.find? id) (s'.rows.find? id) := (step_row h id).1

end Step

/-! ## 3. Permissions -/

/-- What a mutation may allow its caller to send, once for a job. -/
inductive Permission
  | egress
  | dispatch
  | upload
  | create
  deriving DecidableEq

/-- The permissions that a mutation gives; the creation with an upload is a dispatch too. -/
def RowOp.grants (p : Permission) : RowOp → Bool
  | .beginEgress => p = .egress
  | .beginDispatch _ _ => p = .dispatch
  | .claimInputUpload _ => p = .upload
  | .claimInputCreate _ => p = .create || p = .dispatch
  | _ => false

def Op.grants (p : Permission) (id : String) : Op → Bool
  | .row target r => target = id && r.grants p
  | _ => false

/-- How often a permission was given for an id since its last admission. -/
def granted (p : Permission) (id : String) (tr : List Event) : Nat :=
  tr.foldl (fun n e =>
    match e.2 with
    | (op, .ok created) =>
      if op.admits id && created then 0 else if op.grants p id then n + 1 else n
    | (_, .error _) => n) 0

/-- A permission that a row does not give any more. -/
def spent (p : Permission) : Option BackgroundRecord → Prop
  | some (.live job) =>
    match p with
    | .egress => job.phase ≠ .admitting
    | .dispatch => job.dispatchClaimed = true
    | .upload => ∀ receipt, job.inputReceipt = some receipt → receipt.state ≠ .pending
    | .create => ∀ receipt, job.inputReceipt = some receipt → receipt.createClaimed = true
  | _ => True

section Permissions

variable {now t : Int} {s s' : BackgroundStore} {id : String} {p : Permission}
  {row row' : Option BackgroundRecord} {tr : List Event}

theorem spent_moves {a b : BackgroundRecord} (h : Moves now a b) (hs : spent p (some a)) :
    spent p (some b) := by
  cases h.evolves with
  | complete _ _ _ _ _ _ | expired _ _ _ | closed _ _ => trivial
  | @live job job' later upload =>
    cases p with
    | egress => exact later.phase hs
    | dispatch => exact later.claimed hs
    | upload =>
      intro receipt' hreceipt'
      cases hr : job.inputReceipt with
      | none =>
        rw [hr] at upload
        rw [show job'.inputReceipt = none from upload] at hreceipt'
        cases hreceipt'
      | some receipt =>
        rw [hr] at upload
        obtain ⟨r, e, hlater⟩ := upload
        rw [hreceipt'] at e
        cases e
        exact hlater.state (hs receipt hr)
    | create =>
      intro receipt' hreceipt'
      cases hr : job.inputReceipt with
      | none =>
        rw [hr] at upload
        rw [show job'.inputReceipt = none from upload] at hreceipt'
        cases hreceipt'
      | some receipt =>
        rw [hr] at upload
        obtain ⟨r, e, hlater⟩ := upload
        rw [hreceipt'] at e
        cases e
        exact hlater.created (hs receipt hr)

theorem beginEgress_ok (h : beginEgress now row = .ok row') :
    ∃ job, row = some (.live job) ∧ job.phase = .admitting ∧
      (job.managed.isSome = true → job.dispatchClaimed = true) ∧
      (∀ leg ∈ job.legs, leg.reserve = .accepted ∧ leg.dispatched = true) ∧ spent .egress row' := by
  unfold beginEgress at h
  simp only [bind_ok, require_ok, pure_ok] at h
  obtain ⟨job, hjob, _, hmanaged, _, hlegs, rfl⟩ := h
  obtain ⟨rfl, hphase, -⟩ := admitting_ok hjob
  refine ⟨job, rfl, hphase, fun hm => ?_, fun leg hleg => ?_, nofun⟩
  · rcases Bool.or_eq_true_iff.mp hmanaged with hnone | hclaimed
    · rw [Option.isNone_iff_eq_none.mp hnone] at hm
      cases hm
    · exact hclaimed
  · obtain ⟨haccepted, hdispatched⟩ := Bool.and_eq_true_iff.mp (List.all_eq_true.mp hlegs leg hleg)
    exact ⟨of_decide_eq_true haccepted, hdispatched⟩

theorem beginDispatch_ok {contentRef : Option String} {input : Bool}
    (h : beginDispatch now contentRef input row = .ok row') :
    ¬spent .dispatch row ∧ spent .dispatch row' := by
  unfold beginDispatch at h
  simp only [bind_ok, require_ok, pure_ok] at h
  obtain ⟨job, hjob, _, -, _, hclaimed, rfl⟩ := h
  obtain ⟨rfl, -, -⟩ := admitting_ok hjob
  refine ⟨fun hs => ?_, rfl⟩
  rw [show job.dispatchClaimed = true from hs] at hclaimed
  cases hclaimed

theorem grants_spend {r : RowOp} (hg : r.grants p = true) (h : r.run now row = .ok row') :
    ¬spent p row ∧ spent p row' := by
  cases r with
  | beginEgress =>
    cases (of_decide_eq_true hg : p = .egress)
    obtain ⟨job, rfl, hphase, -, -, hspent⟩ := beginEgress_ok h
    exact ⟨fun hs => hs hphase, hspent⟩
  | beginDispatch contentRef input =>
    cases (of_decide_eq_true hg : p = .dispatch)
    exact beginDispatch_ok h
  | claimInputUpload binding =>
    cases (of_decide_eq_true hg : p = .upload)
    unfold RowOp.run claimInputUpload at h
    simp only [bind_ok, require_ok, pure_ok] at h
    obtain ⟨job, hjob, receipt, hreceipt, _, -, op, -, _, hstate, _, -, rfl⟩ := h
    obtain ⟨rfl, -, -⟩ := admitting_ok hjob
    refine ⟨fun hs => ?_, fun r hr => ?_⟩
    · have hpending := (Bool.and_eq_true_iff.mp (Bool.and_eq_true_iff.mp hstate).1).1
      exact hs receipt (inputReceipt_ok hreceipt) (of_decide_eq_true hpending)
    · cases hr
      exact nofun
  | claimInputCreate binding =>
    unfold RowOp.run claimInputCreate at h
    simp only [bind_ok, require_ok] at h
    obtain ⟨job, hjob, receipt, hreceipt, _, -, _, hfree, h⟩ := h
    obtain ⟨rfl, -, -⟩ := admitting_ok hjob
    obtain ⟨hnew, hundispatched⟩ := Bool.and_eq_true_iff.mp hfree
    have hnew := (Bool.and_eq_true_iff.mp hnew).2
    have hclaim := beginDispatch_ok h
    rcases Bool.or_eq_true_iff.mp hg with hp | hp
    · cases (of_decide_eq_true hp : p = .create)
      refine ⟨fun hs => ?_, ?_⟩
      · rw [hs receipt (inputReceipt_ok hreceipt)] at hnew
        cases hnew
      · rcases beginDispatch_moves h with rfl | ⟨a, b, e, rfl, hmoves⟩
        · intro r hr
          cases hr
          rfl
        · cases e
          refine spent_moves hmoves fun r hr => ?_
          cases hr
          rfl
    · cases (of_decide_eq_true hp : p = .dispatch)
      exact hclaim
  | beginReserve _ _ | reserved _ _ _ | dispatched _ _ | identity _ | observeManaged _ _ _ _ _ | bindManagedFiles _ _
  | freeze _ _ | acknowledge _ _ _ | claim | retry _ _ | bindInputUpload _ _ => cases hg

theorem sound_step {e : Event} (h : Step s e s')
    (hs : ∀ id record, s.rows.find? id = some record → Sound record) :
    ∀ id record, s'.rows.find? id = some record → Sound record := by
  intro id record hrecord
  have hchange := step_change h id
  rw [hrecord] at hchange
  generalize hrow : s.rows.find? id = row at hchange
  cases hchange with
  | same => exact hs id record hrow
  | moved moves => exact moves.sound (hs id _ hrow)
  | admitted _ _ sound => exact sound

theorem sound_run (h : Run Step .empty tr s) : ∀ id record, s.rows.find? id = some record → Sound record :=
  h.invariant (I := fun s => ∀ id record, s.rows.find? id = some record → Sound record)
    (fun _ _ => nofun) fun _ _ _ hs ha => sound_step ha hs

theorem row_run {r : RowOp} {created : Bool} (h : Step s (now, (.row id r, .ok created)) s') :
    r.run now (s.rows.find? id) = .ok (s'.rows.find? id) := by
  rcases step_attempt h with ⟨⟨_, he⟩, -⟩ | ⟨_, -, hattempt⟩
  · cases he
  · unfold attempt at hattempt
    simp only [bind_ok, pure_ok, Prod.mk.injEq] at hattempt
    obtain ⟨_, hrow, rfl, -⟩ := hattempt
    exact (onRow_ok (fun _ _ => run_moves) hrow).1

theorem grant_row {op : Op} (h : op.grants p id = true) :
    ∃ r : RowOp, op = .row id r ∧ r.grants p = true := by
  cases op with
  | row target r =>
    obtain ⟨htarget, hr⟩ := Bool.and_eq_true_iff.mp h
    cases (of_decide_eq_true htarget : target = id)
    exact ⟨r, rfl, hr⟩
  | admitJob _ | allocateInput _ _ _ | admitManaged _ | claimDue | allocatePublishedInput => cases h

theorem granted_snoc {e : Event} : granted p id (tr ++ [e]) = match e.2 with
    | (op, .ok created) =>
      if op.admits id && created then 0
      else if op.grants p id then granted p id tr + 1 else granted p id tr
    | (_, .error _) => granted p id tr := by
  unfold granted
  rw [List.foldl_append]
  rfl

theorem granted_step {e : Event} (h : Step s e s')
    (hI : granted p id tr ≤ 1 ∧ (¬spent p (s.rows.find? id) → granted p id tr = 0)) :
    granted p id (tr ++ [e]) ≤ 1 ∧
      (¬spent p (s'.rows.find? id) → granted p id (tr ++ [e]) = 0) := by
  obtain ⟨now, op, answer⟩ := e
  obtain ⟨hle, hfree⟩ := hI
  rw [granted_snoc]
  have hchange := step_change h id
  cases answer with
  | error error =>
    rcases step_attempt h with ⟨-, hsame⟩ | ⟨_, he, -⟩
    · rw [hsame]
      exact ⟨hle, hfree⟩
    · cases he
  | ok created =>
    dsimp only
    split
    · exact ⟨by omega, fun _ => rfl⟩
    · rename_i hadmits
      split
      · rename_i hgrants
        obtain ⟨r, rfl, hr⟩ := grant_row hgrants
        obtain ⟨hbefore, hafter⟩ := grants_spend hr (row_run h)
        rw [hfree hbefore]
        exact ⟨Nat.le_refl 1, fun hn => absurd hafter hn⟩
      · refine ⟨hle, fun hn => hfree fun hs => hn ?_⟩
        generalize s.rows.find? id = row at hchange hs
        generalize s'.rows.find? id = row' at hchange
        cases hchange with
        | same => exact hs
        | moved moves => exact spent_moves moves hs
        | admitted admits answered _ =>
          cases answered
          rw [admits] at hadmits
          exact absurd rfl hadmits
        | evicted => trivial

/-- The permissions of the jobs of a store, after its mutations `tr`. -/
structure PermissionOnce (tr : List Event) (s : BackgroundStore) : Prop where
  /-- No permission is given twice for a job. -/
  once : ∀ p id, granted p id tr ≤ 1
  /-- An egress is that of a job without an event, claimed and paid for. -/
  egress : ∀ now id created s', Step s (now, (.row id .beginEgress, .ok created)) s' →
    ∃ job, s.rows.find? id = some (.live job) ∧ job.event = none ∧
      (job.managed.isSome = true → job.dispatchClaimed = true) ∧
      ∀ leg ∈ job.legs, leg.reserve = .accepted ∧ leg.dispatched = true

/-- **A background job is sent at most once**, in every run of the store. -/
theorem permission_once (h : Run Step .empty tr s) : PermissionOnce tr s where
  once := fun p id => by
    refine (h.invariant_along (I := fun tr s => granted p id tr ≤ 1 ∧
      (¬spent p (s.rows.find? id) → granted p id tr = 0)) ⟨?_, fun _ => rfl⟩ ?_).1
    · exact Nat.zero_le 1
    · exact fun tr s e s' hI hs => granted_step hs hI
  egress := fun now id created s' hs => by
    obtain ⟨job, hjob, hphase, hmanaged, hlegs, -⟩ := beginEgress_ok (row_run hs)
    refine ⟨job, hjob, ?_, hmanaged, hlegs⟩
    cases hevent : job.event with
    | none => rfl
    | some event =>
      cases sound_run h id _ hjob with
      | live hop _ =>
        have e := (hop.frozen event hevent).1
        rw [hphase] at e
        cases e

/-- A job with one leg, from its admission to its egress. -/
theorem permission_once_sent : ∃ tr s id, Run Step .empty tr s ∧ granted .egress id tr = 1 ∧
    granted .dispatch id tr = 1 ∧ PermissionOnce tr s := by
  let id := "bg_" ++ String.ofList (List.replicate 32 'a')
  let leg : BudgetReservationIntent := ⟨"tenant",
    ⟨"policy", "2026-01", none, 100, 10, "leg", "llm.chat", false⟩⟩
  let facts : AccountingFacts :=
    ⟨"event", "request", "openai", none, none, "responses.create", none, "manifest_pricing", 10⟩
  let input : BackgroundAdmission := ⟨id, 0, ⟨"openai", "responses", none, none, id, "1"⟩, facts,
    ⟨10, [leg]⟩, ⟨[], none, none⟩, false, none⟩
  have h0 : Run Step .empty [] .empty := .start
  have h1 := h0.next (step_exec 0 (.admitJob input))
  have h2 := h1.next (step_exec 1 (.row id (.beginReserve 0 false)))
  have h3 := h2.next (step_exec 2 (.row id (.reserved 0 true false)))
  have h4 := h3.next (step_exec 3 (.row id (.beginDispatch none false)))
  have h5 := h4.next (step_exec 4 (.row id (.dispatched 0 false)))
  have h6 := h5.next (step_exec 5 (.row id .beginEgress))
  exact ⟨_, _, id, h6, by decide +kernel, by decide +kernel, permission_once h6⟩

end Permissions

/-! ## 4. Receipts -/

/-- Everything about a job and about its upload has been answered. -/
structure BackgroundJob.Settled (job : BackgroundJob) : Prop where
  event : job.event.isSome = true
  legs : ∀ leg ∈ job.legs, leg.settlement = .settled
  usage : job.usage.final = true
  upload : ∀ receipt, job.inputReceipt = some receipt →
    ∃ t, receipt.upload = .closed t ∧ t.Accounted

/-- **What a mutation leaves of a live job**: a later job, or a tombstone of one. -/
inductive Leaves (now : Int) (job : BackgroundJob) : Option BackgroundRecord → Prop
  | live {job' : BackgroundJob} (later : job.toOperation.Later job'.toOperation)
      (upload : UploadLater job.inputReceipt job'.inputReceipt) : Leaves now job (some (.live job'))
  | complete {job' : BackgroundJob} (later : job.toOperation.Later job'.toOperation)
      (upload : UploadLater job.inputReceipt job'.inputReceipt) (settled : job'.Settled) :
      Leaves now job (some (.closed (job'.close .complete)))
  | expired {job' : BackgroundJob} (later : job.toOperation.Later job'.toOperation)
      (upload : UploadLater job.inputReceipt job'.inputReceipt) (late : job.replayUntil ≤ now) :
      Leaves now job (some (.closed (job'.close .expired)))

/-- **What a run leaves of a live job**: a later job, unless a step of the run closed it. -/
inductive Fate (s : BackgroundStore) (tr : List Event) (id : String) (job : BackgroundJob) :
    Option BackgroundRecord → Prop
  | live {job' : BackgroundJob} (later : job.toOperation.Later job'.toOperation)
      (upload : UploadLater job.inputReceipt job'.inputReceipt) :
      Fate s tr id job (some (.live job'))
  | complete {row : Option BackgroundRecord} {tr₁ tr₂ : List Event} {e : Event}
      {s₁ s₂ : BackgroundStore} {job' : BackgroundJob} (split : tr = tr₁ ++ [e] ++ tr₂)
      (run : Run Step s tr₁ s₁) (step : Step s₁ e s₂)
      (closed : s₂.rows.find? id = some (.closed (job'.close .complete)))
      (later : job.toOperation.Later job'.toOperation)
      (upload : UploadLater job.inputReceipt job'.inputReceipt) (settled : job'.Settled) :
      Fate s tr id job row
  | expired {row : Option BackgroundRecord} {e : Event} (mem : e ∈ tr)
      (late : job.replayUntil ≤ e.1) : Fate s tr id job row

section Receipts

variable {t : Int} {s s' : BackgroundStore} {id : String} {job job' : BackgroundJob}
  {tr : List Event} {e : Event}

theorem settled_complete (hs : Sound (.live job))
    (hsound : Sound (.live job) → job'.toOperation.Sound) (hevent : job'.event.isSome = true)
    (haccounted : job'.accounted = true) (hdone : job'.inputReceipt.any
      ManagedInputReceipt.pendingUpload = false)
    (hclosed : Sound (.closed (job'.close .complete))) : job'.Settled where
  event := hevent
  legs := fun leg hleg => by
    refine (close_accounted haccounted).settled _ ?_
    show leg.settlement ∈ job'.settlements
    rw [(hsound hs).settlements]
    exact List.mem_map_of_mem hleg
  usage := (close_accounted haccounted).usage
  upload := fun receipt hreceipt => by
    have hupload : ReceiptSound receipt := by
      cases hclosed with
      | complete _ upload _ | expired _ upload => exact upload receipt hreceipt
    rw [hreceipt] at hdone
    cases hu : receipt.upload with
    | live op =>
      have hlive : receipt.pendingUpload = true := by
        unfold ManagedInputReceipt.pendingUpload
        rw [hu]
      rw [Option.any_some, hlive] at hdone
      cases hdone
    | closed t => exact ⟨t, rfl, hupload.2 t hu⟩

theorem live_step (h : Step s e s') (hjob : s.rows.find? id = some (.live job))
    (hsound : Sound (.live job)) : Leaves e.1 job (s'.rows.find? id) := by
  obtain ⟨now, op, answer⟩ := e
  have hchange := step_change h id
  rw [hjob] at hchange
  generalize s'.rows.find? id = row' at hchange
  cases hchange with
  | same => exact .live (.refl _) (.refl _)
  | moved moves =>
    cases hev : moves.evolves with
    | live later upload => exact .live later upload
    | complete later upload sound event accounted done =>
      exact .complete later upload (settled_complete hsound sound event accounted done (moves.sound hsound))
    | expired later upload late => exact .expired later upload late

theorem live_run (hsound : ∀ id record, s.rows.find? id = some record → Sound record)
    (hjob : s.rows.find? id = some (.live job)) (h : Run Step s tr s') :
    Fate s tr id job (s'.rows.find? id) := by
  suffices hI : (∀ id record, s'.rows.find? id = some record → Sound record) ∧
      Run Step s tr s' ∧ Fate s tr id job (s'.rows.find? id) from hI.2.2
  refine h.invariant_along (I := fun tr s' =>
    (∀ id record, s'.rows.find? id = some record → Sound record) ∧ Run Step s tr s' ∧
      Fate s tr id job (s'.rows.find? id)) ⟨hsound, .start, ?_⟩ ?_
  · rw [hjob]
    exact .live (.refl _) (.refl _)
  · rintro tr s₁ e s₂ ⟨hs₁, hrun, hfate⟩ hstep
    refine ⟨sound_step hstep hs₁, hrun.next hstep, ?_⟩
    generalize hrow : s₁.rows.find? id = row at hfate
    cases hfate with
    | @live job₁ later upload =>
      have hleaves := live_step hstep hrow (hs₁ id _ hrow)
      generalize hrow' : s₂.rows.find? id = row' at hleaves
      cases hleaves with
      | live later' upload' => exact .live (later.trans later') (upload.trans upload')
      | complete later' upload' settled =>
        exact .complete (List.append_nil _).symm hrun hstep hrow' (later.trans later')
          (upload.trans upload') settled
      | expired later' upload' late =>
        refine .expired (List.mem_append_right _ (List.mem_singleton_self e)) ?_
        unfold Operation.replayUntil at late ⊢
        rw [later.admittedAt] at late
        exact late
    | @complete _ tr₁ tr₂ e₁ _ _ _ split run step closed later upload settled =>
      have hsplit : tr ++ [e] = tr₁ ++ [e₁] ++ (tr₂ ++ [e]) := by
        rw [split, List.append_assoc]
      exact .complete hsplit run step closed later upload settled
    | expired mem late => exact .expired (List.mem_append_left _ mem) late

theorem foldl_min_le (l : List Int) : ∀ m : Int, l.foldl min m ≤ m := by
  induction l with
  | nil => exact fun m => le_refl m
  | cons x l ih => exact fun m => le_trans (ih (min m x)) (min_le_left m x)

/-- What no step and no run changes of a receipt. -/
structure ReceiptImmutable (s : BackgroundStore) : Prop where
  /-- A mutation leaves a live job live, with what is final of it, or closes it: as complete when
      everything is answered, as expired when it is too late. -/
  step : ∀ e s', Step s e s' → ∀ id job, s.rows.find? id = some (.live job) →
    Leaves e.1 job (s'.rows.find? id)
  /-- So does a run. -/
  run : ∀ tr s', Run Step s tr s' → ∀ id job, s.rows.find? id = some (.live job) →
    Fate s tr id job (s'.rows.find? id)
  /-- A frozen job has the amount and the basis of its event, and its legs are those counted. -/
  frozen : ∀ id job, s.rows.find? id = some (.live job) → job.toOperation.Sound ∧
    ∀ receipt, job.inputReceipt = some receipt → ReceiptSound receipt
  /-- A tombstone keeps what it says, until it makes room for an admission. -/
  tombstone : ∀ e s', Step s e s' → ∀ id t, s.rows.find? id = some (.closed t) →
    s'.rows.find? id = none ∨ ∃ t', s'.rows.find? id = some (.closed t') ∧
      t'.toTombstone = t.toTombstone ∧ t'.inputReceipt = t.inputReceipt
  /-- A job that is complete has been answered, and so has its upload. -/
  complete : ∀ id t, s.rows.find? id = some (.closed t) → t.phase = .complete →
    t.toTombstone.Accounted ∧ ∀ receipt, t.inputReceipt = some receipt →
      ∃ upload, receipt.upload = .closed upload ∧ upload.Accounted
  /-- The alarm looks at every live job again. -/
  recovery : ∀ id job, s.rows.find? id = some (.live job) →
    ∃ next, BackgroundStore.nextAction (.live job) = some next ∧ next ≤ job.replayUntil

/-- **A frozen receipt is kept until it is answered**, in every run of the store. -/
theorem receipt_immutable (h : Run Step .empty tr s) : ReceiptImmutable s := by
  have hsound := sound_run h
  refine ⟨fun e s' hs id job hjob => live_step hs hjob (hsound id _ hjob),
    fun tr s' hr id job hjob => live_run hsound hjob hr, fun id job hjob => ?_,
    fun e s' hs id t ht => ?_, fun id t ht hphase => ?_, fun id job hjob => ?_⟩
  · cases hsound id _ hjob with
    | live op upload => exact ⟨op, upload⟩
  · obtain ⟨now, op, answer⟩ := e
    have hchange := step_change hs id
    rw [ht] at hchange
    generalize s'.rows.find? id = row' at hchange
    cases hchange with
    | same => exact .inr ⟨t, rfl, rfl, rfl⟩
    | evicted => exact .inl rfl
    | moved moves =>
      cases hev : moves.evolves with
      | closed same upload => exact .inr ⟨_, rfl, same, upload⟩
  · cases hsound id _ ht with
    | complete accounted upload done =>
      refine ⟨accounted, fun receipt hreceipt => ?_⟩
      rw [hreceipt] at done
      cases hu : receipt.upload with
      | live op =>
        unfold ManagedInputReceipt.pendingUpload at done
        rw [Option.any_some, hu] at done
        cases done
      | closed t' => exact ⟨t', rfl, (upload receipt hreceipt).2 t' hu⟩
    | expired phase _ =>
      rw [hphase] at phase
      cases phase
  · exact ⟨_, rfl, foldl_min_le _ _⟩

/-- A job whose event is frozen and answered, and then its tombstone. -/
theorem receipt_immutable_complete : ∃ tr s id, Run Step .empty tr s ∧ ((s.rows.find? id).map fun record =>
      match record with
      | .live _ => none
      | .closed t => some (t.phase, t.amount)) = some (some (.complete, some 7)) ∧
    ReceiptImmutable s := by
  let id := "bg_" ++ String.ofList (List.replicate 32 'a')
  let facts : AccountingFacts :=
    ⟨"event", "request", "openai", none, none, "responses.create", none, "manifest_pricing", 10⟩
  let input : BackgroundAdmission := ⟨id, 0, ⟨"openai", "responses", none, none, id, "1"⟩, facts,
    ⟨0, []⟩, ⟨[], none, none⟩, false, none⟩
  have h0 : Run Step .empty [] .empty := .start
  have h1 := h0.next (step_exec 0 (.admitJob input))
  have h2 := h1.next (step_exec 1 (.row id .beginEgress))
  have h3 := h2.next (step_exec 2 (.row id
    (.freeze ⟨2, some 200, "success", true, some (7, "manifest_pricing"), none⟩ false)))
  have h4 := h3.next (step_exec 3 (.row id (.acknowledge "event" (.usage .stored) false)))
  exact ⟨_, _, id, h4, by decide +kernel, receipt_immutable h4⟩

end Receipts

/-! ## 5. Idempotency keys -/

section Keys

variable {now t t₀ : Int} {s s' : BackgroundStore} {input input' : BackgroundAdmission} {e : Op × Answer Bool}

/-- What finds a job again: its protocol, its key and its provider. -/
def BackgroundAdmission.replayKey (input : BackgroundAdmission) : Option (String × String × String) :=
  input.managed.bind fun managed => managed.idempotencyKey.map (managed.protocol, ·, input.owner.providerId)

/-- The admission of the job that a mutation created. -/
def created : Op × Answer Bool → Option BackgroundAdmission
  | (op, .ok true) => op.admission
  | _ => none

/-- The job of an admission is there as long as it may be replayed. -/
def Stands (t : Int) (s : BackgroundStore) (input : BackgroundAdmission) : Prop :=
  t < input.admittedAt + backgroundReplayMs → ∃ r, s.rows.find? input.id = some r ∧
    origin (some r) = origin (some (.live (newBackgroundJob input))) ∧ r.admittedAt = input.admittedAt

/-- The jobs that two steps create have different keys, or the first one cannot be replayed any more. -/
def Apart (e e' : Event) : Prop :=
  ∀ input input', created e.2 = some input → created e'.2 = some input' →
  input.replayKey.isSome = true → input'.replayKey = input.replayKey →
    input.admittedAt + backgroundReplayMs ≤ e'.1

theorem replayKey_some (hkey : input.replayKey.isSome = true) : ∃ managed key,
    input.managed = some managed ∧ managed.idempotencyKey = some key ∧
      input.replayKey = some (managed.protocol, key, input.owner.providerId) := by
  obtain ⟨k, hk⟩ := Option.isSome_iff_exists.mp hkey
  obtain ⟨managed, hmanaged, hk'⟩ := Option.bind_eq_some_iff.mp hk
  obtain ⟨key, hkey, rfl⟩ := Option.map_eq_some_iff.mp hk'
  exact ⟨managed, key, hmanaged, hkey, hk⟩

theorem created_admitted (hcreated : created e = some input) (h : Step s (now, e) s') :
    ∃ job, Admitted now s s' input job := by
  obtain ⟨op, answer⟩ := e
  rcases step_attempt h with ⟨⟨_, rfl⟩, -⟩ | ⟨b, rfl, hattempt⟩
  · cases hcreated
  · cases b with
    | false => cases hcreated
    | true =>
      rcases attempt_admission hcreated hattempt with ⟨hb, -⟩ | ⟨-, hnew⟩
      · cases hb
      · exact hnew

theorem Stands.step (hstands : Stands t s input) (ht : t ≤ now) (hkey : input.replayKey.isSome = true)
    (h : Step s (now, e) s') : Stands now s' input := by
  intro hlive
  obtain ⟨r, hr, horigin, hadmitted⟩ := hstands (by omega)
  obtain ⟨managed, -, hmanaged, -⟩ := replayKey_some hkey
  obtain ⟨r', hr', horigin', hadmitted'⟩ := (step_row h input.id).2 r hr
    (by rw [hr, horigin, origin, newBackgroundJob, hmanaged]; rfl)
      (by rw [BackgroundRecord.replayUntil, hadmitted]; exact hlive)
  rw [hr', hr] at horigin'
  exact ⟨r', hr', horigin'.trans horigin, hadmitted'.trans hadmitted⟩

/-- An admission checks the rows that there are for its key. -/
theorem Admitted.clear {job : BackgroundJob} (h : Admitted now s s' input' job) (hstands : Stands t s input)
    (ht : t ≤ now) (hkey : input.replayKey.isSome = true) (hsame : input'.replayKey = input.replayKey) :
    input.admittedAt + backgroundReplayMs ≤ now := by
  by_contra hlate
  obtain ⟨r, hr, horigin, hadmitted⟩ := hstands (by omega)
  obtain ⟨managed, key, hmanaged, hidem, hk⟩ := replayKey_some hkey
  obtain ⟨managed', key', hmanaged', hidem', hk'⟩ := replayKey_some (hsame ▸ hkey)
  obtain ⟨hprotocol, rfl, howner⟩ : managed'.protocol = managed.protocol ∧ key' = key ∧
    input'.owner.providerId =
    input.owner.providerId := by simpa using hk'.symm.trans (hsame.trans hk)
  have hchecked := h.checked
  unfold BackgroundStore.admitsManaged at hchecked
  rw [hmanaged'] at hchecked
  simp only [bind_ok, require_ok] at hchecked
  obtain ⟨_, hvalid, existing, hretry, hnone⟩ := hchecked
  unfold validateManagedAdmission at hvalid
  simp only [bind_ok, require_ok] at hvalid
  obtain ⟨_, -, _, hprovider, -⟩ := hvalid
  unfold BackgroundStore.managedRetry at hretry
  simp only [bind_ok, require_ok, hidem'] at hretry
  obtain ⟨_, -, hretry⟩ := hretry
  split at hretry
  · rename_i hfind
    refine List.find?_eq_none.mp hfind r (Table.find?_eq_some.mp hr).1 ?_
    have horigin : r.managed.map (·.admission) = some
      { managed with providerId := some input.owner.providerId } := by
      rw [origin, newBackgroundJob, hmanaged] at horigin
      cases r <;> exact horigin
    obtain ⟨m, hm, hadmission⟩ := Option.map_eq_some_iff.mp horigin
    have hprovider := of_decide_eq_true (Bool.and_eq_true_iff.mp hprovider).2
    rw [managedMatch, hm, Option.any_some, hadmission]
    simp [hprotocol, hidem, hprovider, howner, BackgroundRecord.replayUntil, hadmitted]
    omega
  · simp only [bind_ok, pure_ok] at hretry
    obtain ⟨_, -, _, -, rfl⟩ := hretry
    cases hnone

/-- **An idempotency key creates one job in the time that it may be replayed**, in every run of the store. -/
theorem key_creates_once {tr : List Event} (h : Timed.Run (fun now s e s' => Step s (now, e) s')
    .empty t₀ tr t s) :
    tr.Pairwise Apart := by
  refine (h.invariant_along (I := fun tr t s => tr.Pairwise Apart ∧ ∀ e ∈ tr, ∀ input, created e.2 =
    some input →
    input.replayKey.isSome = true → Stands t s input) ⟨.nil, fun _ => nofun⟩ ?_).1
  rintro tr t t' s e s' ht ⟨hapart, hstands⟩ hstep
  refine ⟨List.pairwise_append.mpr ⟨hapart, List.pairwise_singleton
    _ _, fun e₀ he₀ e₁ he₁ input input' hin hin' hkey hsame => ?_⟩,
    fun e₀ he₀ input hin hkey => ?_⟩
  · cases List.mem_singleton.mp he₁
    obtain ⟨job, hnew⟩ := created_admitted hin' hstep
    exact hnew.clear (hstands e₀ he₀ input hin hkey) ht hkey hsame
  · rcases List.mem_append.mp he₀ with he₀ | he₀
    · exact (hstands e₀ he₀ input hin hkey).step ht hkey hstep
    · cases List.mem_singleton.mp he₀
      obtain ⟨job, hnew⟩ := created_admitted hin hstep
      exact fun _ => ⟨_, hnew.new, congrArg (fun job => job.managed.map (·.admission)) hnew.begins,
        congrArg (·.admittedAt) hnew.begins⟩

/-- A job that is asked for twice. -/
theorem key_creates_once_twice : ∃ tr t s, Timed.Run (fun now s e s' => Step s (now, e) s') .empty 0 tr t s ∧
    (tr.map fun e => (created e.2).isSome) = [true, false] ∧ tr.Pairwise Apart := by
  let hex (n : Nat) := String.ofList (List.replicate n 'a')
  let facts : AccountingFacts := ⟨"event", "request", "replicate", none, none, "predictions",
    some 0, "policy_fixed", 0⟩
  let input : BackgroundAdmission := ⟨"bg_" ++ hex 32, 0,
    ⟨"replicate", "predictions", none, none, "", "1"⟩, facts,
    ⟨0, []⟩, ⟨[], none, none⟩, false, some ⟨"replicate.predictions", none, some (hex 64), hex 64, "1", none⟩⟩
  have h : Timed.Run (fun now s e s' => Step s (now, e) s') .empty 0 [] 0 .empty := .start
  have h := h.next (Int.le_refl 0) (step_exec 0 (.admitManaged input))
  have h := h.next (Int.le_of_lt Int.one_pos) (step_exec 1 (.admitManaged input))
  exact ⟨_, _, _, h, by decide +kernel, key_creates_once h⟩

end Keys

end ClawRouter.Background
