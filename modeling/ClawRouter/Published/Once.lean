/-
  Subject:   A published input is published once and forwarded once.

  The table holds one receipt for each idempotency digest, and nothing but the four operations on receipts
  touches one: the ids of jobs and of receipts never meet, and no statement about jobs selects a receipt.

  * **`jobOp_quiet`**: an operation on jobs is such a change;
  * `Moves`, **`publishedOp_effect`**: what an operation on receipts does to its receipt;
  * **`published_once`**: the states, both claims, the times, the jobs and the refusals.
-/
import ClawRouter.Background.Recovery
import ClawRouter.Published.Store

namespace ClawRouter.Published

open Fallible Keyed Background

/-! ## 1. The invariant -/

namespace SharedStore

def receipt? (s : SharedStore) (id : String) : Option PublishedInputReceipt :=
  (s.rows.find? id).bind Row.receipt?

end SharedStore

/-- What holds of every receipt in the table. -/
structure Sound (p : Platform) (receipt : PublishedInputReceipt) : Prop where
  binding : validatePublishedInput p receipt.binding = true
  object : receipt.object.isSome = true ↔ 2 ≤ receipt.state.rank
  attempt : receipt.attempt.isSome = true ↔ receipt.state = .forwardingUnknown

def JobIds (s : SharedStore) : Prop :=
  ∀ record, Row.job record ∈ s.rows.rows → isHexAfter "bg_" 32 record.id = true

/-- What every step keeps of the store. -/
structure Inv (p : Platform) (s : SharedStore) : Prop where
  jobs : JobIds s
  sound : ∀ id receipt, s.receipt? id = some receipt → Sound p receipt
  single : ∀ i j a b, s.receipt? i = some a → s.receipt? j = some b →
    a.binding.idempotencyDigest = b.binding.idempotencyDigest → i = j

structure Quiet (s s' : SharedStore) : Prop where
  receipts : ∀ id, s'.receipt? id = s.receipt? id
  jobs : JobIds s'

variable {id : String} {a b receipt : PublishedInputReceipt} {binding : PublishedInputBinding}

section Tables

variable {p : Platform} {s s' : SharedStore}

theorem receipt?_some :
    s.receipt? id = some receipt ↔ Row.asset receipt ∈ s.rows.rows ∧ receipt.binding.id = id := by
  unfold SharedStore.receipt?
  constructor
  · intro h
    obtain ⟨row, hrow, hreceipt⟩ := Option.bind_eq_some_iff.mp h
    obtain ⟨hmem, hid⟩ := Table.find?_eq_some.mp hrow
    cases row with
    | job record => cases hreceipt
    | asset receipt' =>
      cases hreceipt
      exact ⟨hmem, hid⟩
  · intro h
    have hfind : s.rows.find? id = some (.asset receipt) := Table.find?_eq_some.mpr h
    rw [hfind]
    rfl

theorem ids_differ (hasset : isHexAfter "asset_" 32 id = true)
    (hjob : isHexAfter "bg_" 32 id = true) : False := by
  unfold isHexAfter isHex at hasset hjob
  simp only [Bool.and_eq_true, decide_eq_true_eq] at hasset hjob
  have hlong : (id.toList.drop 6).length = 32 := by
    rw [← String.toList_copy_drop, String.length_toList]
    exact hasset.2.1
  have hshort : (id.toList.drop 3).length = 32 := by
    rw [← String.toList_copy_drop, String.length_toList]
    exact hjob.2.1
  rw [List.length_drop] at hlong hshort
  omega

theorem valid_id (h : validatePublishedInput p binding = true) : isHexAfter "asset_" 32 binding.id = true := by
  unfold validatePublishedInput at h
  simp only [Bool.and_eq_true] at h
  exact h.1.1.1.1.1.1.1.1.1.1.1.1.1.1.1.1.1.1.1.1.1.1.1.1.1.1.1.1.1.1.1.2

theorem Inv.quiet (h : Inv p s) (hq : Quiet s s') : Inv p s' where
  jobs := hq.jobs
  sound := fun id receipt hr => h.sound id receipt (hq.receipts id ▸ hr)
  single := fun i j a b ha hb => h.single i j a b (hq.receipts i ▸ ha) (hq.receipts j ▸ hb)

theorem Quiet.refl (h : JobIds s) : Quiet s s := ⟨fun _ => rfl, h⟩

theorem Quiet.trans {s'' : SharedStore} (h : Quiet s s') (h' : Quiet s' s'') : Quiet s s'' :=
  ⟨fun id => (h'.receipts id).trans (h.receipts id), h'.jobs⟩

theorem Inv.no_receipt (h : Inv p s) (hid : isHexAfter "bg_" 32 id = true) : s.receipt? id = none := by
  cases hr : s.receipt? id with
  | none => rfl
  | some receipt =>
    have hvalid := valid_id (h.sound id receipt hr).binding
    rw [(receipt?_some.mp hr).2] at hvalid
    exact (ids_differ hvalid hid).elim

theorem mem_upsert {row x : Row} (h : x ∈ (s.rows.upsert row).rows) : x = row ∨ x ∈ s.rows.rows := by
  have hfind : (s.rows.upsert row).find? x.id = some x := Table.find?_eq_some.mpr ⟨h, rfl⟩
  rw [Table.find?_upsert] at hfind
  split at hfind
  · exact .inl (Option.some.inj hfind).symm
  · exact .inr (Table.find?_eq_some.mp hfind).1

theorem save_quiet (h : Inv p s) {record : BackgroundRecord} (hid : isHexAfter "bg_" 32 record.id = true) :
    Quiet s (s.save record) where
  receipts := fun id => by
    by_cases e : record.id = id
    · rw [← e, h.no_receipt hid]
      show ((s.rows.upsert (.job record)).find? record.id).bind Row.receipt? = none
      rw [Table.find?_upsert, if_pos (show (Row.job record).id = record.id from rfl)]
      rfl
    · show ((s.rows.upsert (.job record)).find? id).bind Row.receipt? = _
      rw [Table.find?_upsert, if_neg (show (Row.job record).id ≠ id from e)]
      rfl
  jobs := fun other hother => by
    rcases mem_upsert hother with e | hmem
    · cases e
      exact hid
    · exact h.jobs other hmem

theorem delete_quiet (h : Inv p s) {q : Row → Bool} (hq : ∀ receipt, Row.asset receipt ∈ s.rows.rows →
    q (.asset receipt) = false) : Quiet s ⟨s.rows.delete q⟩ where
  receipts := fun id => by
    show ((s.rows.delete q).find? id).bind Row.receipt? = (s.rows.find? id).bind Row.receipt?
    rw [Table.find?_delete]
    cases hrow : s.rows.find? id with
    | none => rfl
    | some row =>
      cases row with
      | job record =>
        cases hdeleted : q (.job record) with
        | false => rw [Option.filter_some_pos (by rw [hdeleted]; rfl)]
        | true =>
          rw [Option.filter_some_neg (by rw [hdeleted]; decide)]
          rfl
      | asset receipt =>
        have hkept := hq receipt (Table.find?_eq_some.mp hrow).1
        rw [Option.filter_some_pos (by rw [hkept]; rfl)]
  jobs := fun record hrecord => h.jobs record (Table.mem_delete.mp hrecord).1

end Tables

/-! ## 2. Jobs leave receipts alone -/

section Jobs

variable {p : Platform} {s s' : SharedStore} {now : Int}

theorem like_asset (state : ReceiptState) : like "asset_%".toList ("asset_" ++ state.name).toList = true := by
  cases state <;> decide

theorem isAsset_asset (receipt : PublishedInputReceipt) : (Row.asset receipt).isAsset = true :=
  like_asset receipt.state

theorem not_closed (state : ReceiptState) :
    ("asset_" ++ state.name == "complete" || "asset_" ++ state.name == "expired") = false := by
  cases state <;> decide

theorem selectJob_job {row : Row} (h : s.selectJob id = some row) :
    ∃ record, row = .job record ∧ Row.job record ∈ s.rows.rows ∧ record.id = id := by
  obtain ⟨hfind, hnot⟩ := Option.filter_eq_some_iff.mp h
  obtain ⟨hmem, hid⟩ := Table.find?_eq_some.mp hfind
  cases row with
  | job record => exact ⟨record, rfl, hmem, hid⟩
  | asset receipt =>
    rw [isAsset_asset] at hnot
    cases hnot

theorem get_some {record : BackgroundRecord} (h : s.get id = some record) :
    Row.job record ∈ s.rows.rows ∧ record.id = id := by
  obtain ⟨row, hrow, hrecord⟩ := Option.bind_eq_some_iff.mp h
  obtain ⟨found, rfl, hmem, hid⟩ := selectJob_job hrow
  cases hrecord
  exact ⟨hmem, hid⟩

theorem selectList_job {after : String} : ∀ row ∈ s.selectList after, row.receipt? = none := by
  intro row hrow
  have hmem := List.mem_of_mem_take hrow
  rw [List.mem_mergeSort, List.mem_filter] at hmem
  cases row with
  | job record => rfl
  | asset receipt =>
    have hnot := (Bool.and_eq_true_iff.mp hmem.2).2
    rw [isAsset_asset] at hnot
    cases hnot

theorem selectDue_job : ∀ row ∈ s.selectDue now, row.receipt? = none := by
  intro row hrow
  have hmem := List.mem_of_mem_take hrow
  rw [List.mem_mergeSort, List.mem_filter] at hmem
  cases row with
  | job record => rfl
  | asset receipt => cases hmem.2

theorem oldest_job {row : Row} (h : s.oldest now = some row) : row ∈ s.rows.rows ∧ row.receipt? = none := by
  have hmem := List.mem_of_mem_head? h
  rw [List.mem_mergeSort, List.mem_filter] at hmem
  refine ⟨hmem.1, ?_⟩
  cases row with
  | job record => rfl
  | asset receipt =>
    have hphase : ("asset_" ++ receipt.state.name == "complete" || "asset_" ++ receipt.state.name ==
      "expired") =
        true := (Bool.and_eq_true_iff.mp hmem.2).1
    rw [not_closed] at hphase
    cases hphase

theorem onRow_quiet (h : Inv p s) {f : Option BackgroundRecord → Answer (Option BackgroundRecord)}
    (hf : ∀ row row', f row = .ok row' → RowMoves now row row') (hrun : s.onRow id f = .ok s') :
    Quiet s s' := by
  unfold SharedStore.onRow at hrun
  simp only [bind_ok] at hrun
  obtain ⟨row, hrow, hrun⟩ := hrun
  have hmoves := hf _ _ hrow
  cases row with
  | none =>
    cases hrun
    exact Quiet.refl h.jobs
  | some record =>
    cases hrun
    rcases hmoves with e | ⟨a, b, ha, e, hmoves⟩
    · obtain ⟨hmem, _⟩ := get_some e.symm
      exact save_quiet h (h.jobs record hmem)
    · cases e
      obtain ⟨hmem, _⟩ := get_some ha
      refine save_quiet h ?_
      rw [evolves_id hmoves.evolves]
      exact h.jobs a hmem

theorem admitJob_quiet (h : Inv p s) {input : BackgroundAdmission} (hrun : s.admitJob now input = .ok s') :
    Quiet s s' ∧ isHexAfter "bg_" 32 input.id = true := by
  unfold SharedStore.admitJob at hrun
  simp only [bind_ok, require_ok] at hrun
  obtain ⟨_, hvalid, _, -, _, -, _, -, hrun⟩ := hrun
  have hid : isHexAfter "bg_" 32 input.id = true :=
    (Bool.and_eq_true_iff.mp (Bool.and_eq_true_iff.mp hvalid).1).1
  refine ⟨?_, hid⟩
  split at hrun
  · cases hrun
    exact save_quiet h hid
  · simp only [bind_ok, demand_ok, pure_ok] at hrun
    obtain ⟨evicted, hevicted, rfl⟩ := hrun
    obtain ⟨hmem, hjob⟩ := oldest_job hevicted
    have hdelete : Quiet s ⟨s.rows.delete fun r => r.id == evicted.id⟩ := by
      refine delete_quiet h fun receipt hreceipt => ?_
      -- a receipt with the id of the evicted row would be that row
      refine Bool.eq_false_iff.mpr fun e => ?_
      have heq := Table.eq_of_key hreceipt hmem (beq_iff_eq.mp e)
      rw [← heq] at hjob
      cases hjob
    exact hdelete.trans (save_quiet (h.quiet hdelete) hid)

theorem allocateInput_quiet (h : Inv p s) {binding : ManagedInputBinding} {admission : BackgroundAdmission}
    {upload : BackgroundStore.UploadAdmission} (hrun : s.allocateInput now binding admission upload = .ok s') :
    Quiet s s' := by
  unfold SharedStore.allocateInput at hrun
  simp only [bind_ok, pure_ok] at hrun
  obtain ⟨_, -, _, -, admitted, hadmit, rfl⟩ := hrun
  obtain ⟨hquiet, hid⟩ := admitJob_quiet h hadmit
  exact hquiet.trans (save_quiet (h.quiet hquiet) hid)

theorem claims_quiet (h : Inv p s) {rows : List Row}
    (hrun : rows.foldlM (fun s row => s.onRow row.id (claim now false)) s = .ok s') : Quiet s s' := by
  induction rows generalizing s with
  | nil =>
    cases hrun
    exact Quiet.refl h.jobs
  | cons row rest ih =>
    rw [List.foldlM_cons, bind_ok] at hrun
    obtain ⟨s₁, hfirst, hrest⟩ := hrun
    have hquiet := onRow_quiet h (fun _ _ => claim_moves) hfirst
    exact hquiet.trans (ih (h.quiet hquiet) hrest)

/-- **An operation on jobs leaves every receipt as it is.** -/
theorem jobOp_quiet (h : Inv p s) {op : JobOp} (hrun : op.run now s = .ok s') : Quiet s s' := by
  cases op with
  | admitJob input => exact (admitJob_quiet h hrun).1
  | allocateInput binding admission upload => exact allocateInput_quiet h hrun
  | admitManaged input =>
    unfold JobOp.run SharedStore.admitManaged at hrun
    simp only [bind_ok, demand_ok, pure_ok] at hrun
    obtain ⟨_, ⟨managed, -, _, -, found, -, hfound⟩, rfl⟩ := hrun
    cases found with
    | some _ =>
      cases hfound
      exact Quiet.refl h.jobs
    | none =>
      simp only [bind_ok, pure_ok] at hfound
      obtain ⟨admitted, hadmit, rfl⟩ := hfound
      exact (admitJob_quiet h hadmit).1
  | row id op => exact onRow_quiet h (fun _ _ => run_moves) hrun
  | claimDue => exact claims_quiet h hrun

end Jobs

/-! ## 3. What is done to a receipt -/

def PublishedOp.binding? : PublishedOp → Option PublishedInputBinding
  | .allocate binding => some binding
  | .read _ => none
  | .claimPublication binding => some binding
  | .bindObject binding _ => some binding
  | .claimForward binding _ => some binding

def PublishedOp.claimsPublication : PublishedOp → Bool
  | .claimPublication _ => true
  | _ => false

def PublishedOp.claimsForward : PublishedOp → Bool
  | .claimForward _ _ => true
  | _ => false

/-- The receipt after an operation that found it. -/
inductive Moves : PublishedOp → PublishedInputReceipt → PublishedInputReceipt → Prop
  | same {op : PublishedOp} {a : PublishedInputReceipt} (publication : op.claimsPublication = false)
      (forward : op.claimsForward = false) : Moves op a a
  | publication {binding : PublishedInputBinding} {a : PublishedInputReceipt} (state : a.state = .pending) :
      Moves (.claimPublication binding) a { a with state := .publicationUnknown }
  | object {binding : PublishedInputBinding} {object : PublishedInputObject} {a : PublishedInputReceipt}
      (state : a.state = .publicationUnknown) (none_ : a.object = none) :
      Moves (.bindObject binding object) a { a with object := some object, state := .published }
  | forward {binding : PublishedInputBinding} {attempt : PublishedInputAttempt} {a : PublishedInputReceipt}
      (state : a.state = .published) (none_ : a.attempt = none) :
      Moves (.claimForward binding attempt) a { a with attempt := some attempt, state := .forwardingUnknown }

/-- An operation on receipts that ended well with `receipt`: the binding is live and the one it was called
with, its receipt was found and moved or is new, and no other receipt changed. -/
structure Effect (p : Platform) (now : Int) (op : PublishedOp) (s s' : SharedStore)
    (receipt : PublishedInputReceipt) :
    Prop where
  live : Live p now receipt.binding
  binding : ∀ binding, op.binding? = some binding → receipt.binding = binding
  stored : s'.receipt? receipt.binding.id = some receipt
  others : ∀ id, id ≠ receipt.binding.id → s'.receipt? id = s.receipt? id
  found : (∃ a, s.receipt? receipt.binding.id = some a ∧ Moves op a receipt) ∨
    (∃ binding, op = .allocate binding) ∧ s.receipt? receipt.binding.id = none ∧
      receipt = ⟨publishedInputVersion, receipt.binding, .pending, none, none⟩ ∧
      ∀ id other, s.receipt? id = some other →
        other.binding.idempotencyDigest ≠ receipt.binding.idempotencyDigest
  jobs : JobIds s → JobIds s'

variable {op : PublishedOp} {object : PublishedInputObject} {attempt : PublishedInputAttempt}

section Receipts

variable {p : Platform} {s s' : SharedStore} {now : Int} {fits : Bool} {receipt : PublishedInputReceipt}

theorem savePublishedInput_ok (h : s.savePublishedInput p fits receipt = .ok (s', receipt')) :
    receipt' = receipt ∧ (∀ id, s'.receipt? id = if receipt.binding.id = id then some receipt else
      s.receipt? id) ∧
      (JobIds s → JobIds s') := by
  unfold SharedStore.savePublishedInput at h
  simp only [bind_ok, pure_ok, Prod.mk.injEq] at h
  obtain ⟨_, -, _, -, rfl, rfl⟩ := h
  refine ⟨rfl, fun id => ?_, fun hjobs record hrecord => ?_⟩
  · show ((s.rows.upsert (.asset receipt)).find? id).bind Row.receipt? = _
    rw [Table.find?_upsert]
    by_cases e : receipt.binding.id = id
    · rw [if_pos (show (Row.asset receipt).id = id from e), if_pos e]
      rfl
    · rw [if_neg (show (Row.asset receipt).id ≠ id from e), if_neg e]
      rfl
  · rcases mem_upsert hrecord with e | hmem
    · cases e
    · exact hjobs record hmem

theorem publishedInput_ok (h : s.publishedInput p now id = .ok receipt) :
    s.receipt? id = some receipt ∧ receipt.binding.id = id ∧ Live p now receipt.binding := by
  unfold SharedStore.publishedInput at h
  simp only [bind_ok, demand_ok, pure_ok] at h
  obtain ⟨_, -, found, hfound, _, hlive, rfl⟩ := h
  obtain ⟨row, hrow, hreceipt⟩ := Option.bind_eq_some_iff.mp hfound
  obtain ⟨hfind, _⟩ := Option.filter_eq_some_iff.mp hrow
  obtain ⟨hmem, hid⟩ := Table.find?_eq_some.mp hfind
  cases row with
  | job record => cases hreceipt
  | asset found' =>
    cases hreceipt
    exact ⟨receipt?_some.mpr ⟨hmem, hid⟩, hid, assertPublishedInputLive_ok hlive⟩

theorem same_ok {a b : PublishedInputBinding} {same : Bool} (hsame : samePublishedInput p a b = .ok same)
    (h : same = true) : a = b := by
  rw [samePublishedInput_ok hsame] at h
  exact of_decide_eq_true h

theorem found_effect {receipt : PublishedInputReceipt} (hfound : s.receipt? a.binding.id = some a)
    (hlive : Live p now a.binding) (hbinding : ∀ binding, op.binding? = some binding → a.binding = binding)
    (hmoves : Moves op a receipt) (hsave : s.savePublishedInput p fits receipt = .ok (s', receipt'))
    (hsame : receipt.binding = a.binding) : Effect p now op s s' receipt' := by
  obtain ⟨rfl, hreceipts, hjobs⟩ := savePublishedInput_ok hsave
  refine ⟨hsame ▸ hlive, fun binding hb => hsame.trans (hbinding binding hb), ?_, fun id hne => ?_,
    .inl ⟨a, hsame ▸ hfound, hmoves⟩, hjobs⟩
  · rw [hreceipts, if_pos rfl]
  · rw [hreceipts, if_neg (Ne.symm hne)]

theorem read_effect (hfound : s.receipt? a.binding.id = some a)
    (hlive : Live p now a.binding) (hbinding : ∀ binding, op.binding? = some binding → a.binding = binding)
    (hpublication : op.claimsPublication = false) (hforward : op.claimsForward = false) :
    Effect p now op s s a :=
  ⟨hlive, hbinding, hfound, fun _ _ => rfl, .inl ⟨a, hfound, .same hpublication hforward⟩, id⟩

theorem allocate_effect (h : s.allocatePublishedInput p now fits binding = .ok (s', receipt)) :
    Effect p now (.allocate binding) s s' receipt := by
  unfold SharedStore.allocatePublishedInput at h
  simp only [bind_ok] at h
  obtain ⟨_, hassert, h⟩ := h
  have hlive := assertPublishedInputLive_ok hassert
  split at h
  · rename_i prior hprior
    simp only [bind_ok, pure_ok, Prod.mk.injEq] at h
    obtain ⟨same, hsame, _, hrequire, rfl, rfl⟩ := h
    have hbinding : prior.binding = binding := same_ok hsame (require_ok.mp hrequire)
    obtain ⟨row, hrow, hreceipt⟩ := Option.bind_eq_some_iff.mp hprior
    cases row with
    | job record => cases hreceipt
    | asset found =>
      cases hreceipt
      have hmem := List.mem_of_find?_eq_some hrow
      refine read_effect (receipt?_some.mpr ⟨hmem, rfl⟩) (hbinding ▸ hlive) (fun other hother => ?_) rfl rfl
      cases hother
      exact hbinding
  · rename_i hprior
    simp only [bind_ok, require_ok] at h
    obtain ⟨_, hfree, _, -, hsave⟩ := h
    obtain ⟨rfl, hreceipts, hjobs⟩ := savePublishedInput_ok hsave
    have hnone : s.receipt? binding.id = none := by
      unfold SharedStore.receipt?
      rw [Option.isNone_iff_eq_none.mp hfree]
      rfl
    refine ⟨hlive, fun other hother => ?_, ?_, fun id hne => ?_, .inr ⟨⟨binding, rfl⟩, hnone, rfl, ?_⟩, hjobs⟩
    · cases hother
      rfl
    · rw [hreceipts, if_pos rfl]
    · rw [hreceipts, if_neg (Ne.symm hne)]
    · -- a receipt with this digest would have been the prior one
      intro id other hother e
      obtain ⟨hmem, _⟩ := receipt?_some.mp hother
      have hno := Option.bind_eq_none_iff.mp hprior
      cases hfind : s.rows.rows.find? fun row =>
          row.isAsset && row.idempotencyDigest == some binding.idempotencyDigest with
      | none =>
        have hdiffers := List.find?_eq_none.mp hfind _ hmem
        rw [isAsset_asset] at hdiffers
        exact hdiffers (beq_iff_eq.mpr (congrArg some e))
      | some row =>
        have hrow := hno row hfind
        have hasset := List.find?_some hfind
        cases row with
        | job record => cases (Bool.and_eq_true_iff.mp hasset).2
        | asset found => cases hrow

theorem claimPublication_effect (h : s.claimPublishedInputPublication p now fits binding = .ok (s', receipt)) :
    Effect p now (.claimPublication binding) s s' receipt := by
  unfold SharedStore.claimPublishedInputPublication at h
  simp only [bind_ok, require_ok] at h
  obtain ⟨a, hread, same, hsame, _, hrequire, _, hstate, hsave⟩ := h
  obtain ⟨hfound, hid, hlive⟩ := publishedInput_ok hread
  have hbinding : a.binding = binding := same_ok hsame hrequire
  refine found_effect (hid.symm ▸ hfound) hlive (fun other hother => ?_)
    (.publication (of_decide_eq_true hstate)) hsave rfl
  cases hother
  exact hbinding

theorem bindObject_effect (h : s.bindPublishedInputObject p now fits binding object = .ok (s', receipt)) :
    Effect p now (.bindObject binding object) s s' receipt := by
  unfold SharedStore.bindPublishedInputObject at h
  simp only [bind_ok] at h
  obtain ⟨a, hread, _, -, same, hsame, _, hrequire, h⟩ := h
  obtain ⟨hfound, hid, hlive⟩ := publishedInput_ok hread
  have hbinding : a.binding = binding := same_ok hsame (require_ok.mp hrequire)
  have hcall : ∀ other, (PublishedOp.bindObject binding object).binding? = some other → a.binding = other := by
    intro other hother
    cases hother
    exact hbinding
  split at h
  · cases h
    exact read_effect (hid.symm ▸ hfound) hlive hcall rfl rfl
  · simp only [bind_ok, require_ok] at h
    obtain ⟨_, hstate, hsave⟩ := h
    obtain ⟨hstate, hnone⟩ := Bool.and_eq_true_iff.mp hstate
    exact found_effect (hid.symm ▸ hfound) hlive hcall
      (.object (of_decide_eq_true hstate) (Option.isNone_iff_eq_none.mp hnone)) hsave rfl

theorem claimForward_effect (h : s.claimPublishedInputForward p now fits binding attempt = .ok (s', receipt)) :
    Effect p now (.claimForward binding attempt) s s' receipt := by
  unfold SharedStore.claimPublishedInputForward at h
  simp only [bind_ok, require_ok] at h
  obtain ⟨a, hread, _, -, same, hsame, _, hrequire, _, hstate, hsave⟩ := h
  obtain ⟨hfound, hid, hlive⟩ := publishedInput_ok hread
  have hbinding : a.binding = binding := same_ok hsame hrequire
  obtain ⟨hstate, hnone⟩ := Bool.and_eq_true_iff.mp hstate
  obtain ⟨hstate, _⟩ := Bool.and_eq_true_iff.mp hstate
  refine found_effect (hid.symm ▸ hfound) hlive (fun other hother => ?_)
    (.forward (of_decide_eq_true hstate) (Option.isNone_iff_eq_none.mp hnone)) hsave rfl
  cases hother
  exact hbinding

/-- **Every operation on receipts.** -/
theorem publishedOp_effect (h : op.run p now fits s = .ok (s', receipt)) : Effect p now op s s' receipt := by
  cases op with
  | allocate binding => exact allocate_effect h
  | read id =>
    unfold PublishedOp.run at h
    simp only [bind_ok, pure_ok, Prod.mk.injEq] at h
    obtain ⟨found, hread, rfl, rfl⟩ := h
    obtain ⟨hfound, hid, hlive⟩ := publishedInput_ok hread
    exact read_effect (hid.symm ▸ hfound) hlive (fun _ => nofun) rfl rfl
  | claimPublication binding => exact claimPublication_effect h
  | bindObject binding object => exact bindObject_effect h
  | claimForward binding attempt => exact claimForward_effect h

end Receipts

/-! ## 4. Runs -/

/-- What a receipt keeps: its binding, how far it is, its object and its attempt. -/
structure Later (a b : PublishedInputReceipt) : Prop where
  binding : b.binding = a.binding
  state : a.state.rank ≤ b.state.rank
  object : ∀ object, a.object = some object → b.object = some object
  attempt : ∀ attempt, a.attempt = some attempt → b.attempt = some attempt

theorem Later.refl (a : PublishedInputReceipt) : Later a a := ⟨rfl, Nat.le_refl _, fun _ h => h, fun _ h => h⟩

theorem Later.trans {c : PublishedInputReceipt} (h : Later a b) (h' : Later b c) : Later a c where
  binding := h'.binding.trans h.binding
  state := Nat.le_trans h.state h'.state
  object := fun object ho => h'.object object (h.object object ho)
  attempt := fun attempt ha => h'.attempt attempt (h.attempt attempt ha)

variable {e : Event}

section Runs

variable {p : Platform} {s s' : SharedStore}

theorem Moves.later (h : Moves op a b) :
    Later a b ∧ (b.state = a.state ∨ b.state.rank = a.state.rank + 1) := by
  cases h with
  | same => exact ⟨Later.refl _, .inl rfl⟩
  | publication state =>
    refine ⟨⟨rfl, ?_, fun _ h => h, fun _ h => h⟩, .inr ?_⟩
    · rw [state]
      exact Nat.le_succ 0
    · rw [state]
      rfl
  | object state none_ =>
    refine ⟨⟨rfl, ?_, fun o ho => ?_, fun _ h => h⟩, .inr ?_⟩
    · rw [state]
      exact Nat.le_succ 1
    · rw [none_] at ho
      cases ho
    · rw [state]
      rfl
  | forward state none_ =>
    refine ⟨⟨rfl, ?_, fun _ h => h, fun o ho => ?_⟩, .inr ?_⟩
    · rw [state]
      exact Nat.le_succ 2
    · rw [none_] at ho
      cases ho
    · rw [state]
      rfl

theorem Moves.sound (h : Moves op a b) (ha : Sound p a) : Sound p b := by
  cases h with
  | same => exact ha
  | publication state =>
    have hobject : ¬a.object.isSome = true := fun h => by
      have hle := ha.object.mp h
      rw [state] at hle
      exact absurd hle (by decide)
    have hattempt : ¬a.attempt.isSome = true := fun h => by
      have hlast := ha.attempt.mp h
      rw [state] at hlast
      cases hlast
    exact ⟨ha.binding, ⟨fun h => absurd h hobject, fun h => absurd h (Nat.not_succ_le_self 1)⟩,
      ⟨fun h => absurd h hattempt, fun h => by cases h⟩⟩
  | object state none_ =>
    have hattempt : ¬a.attempt.isSome = true := fun h => by
      have hlast := ha.attempt.mp h
      rw [state] at hlast
      cases hlast
    exact ⟨ha.binding, ⟨fun _ => Nat.le_refl 2, fun _ => rfl⟩,
      ⟨fun h => absurd h hattempt, fun h => by cases h⟩⟩
  | forward state none_ =>
    have hobject : a.object.isSome = true := ha.object.mpr (by rw [state]; decide)
    exact ⟨ha.binding, ⟨fun _ => Nat.le_succ 2, fun _ => hobject⟩, ⟨fun _ => rfl, fun _ => rfl⟩⟩

theorem Effect.sound {now : Int} (he : Effect p now op s s' receipt) (h : Inv p s) : Sound p receipt := by
  obtain ⟨a, ha, hmoves⟩ | ⟨_, _, hnew, _⟩ := he.found
  · exact hmoves.sound (h.sound _ a ha)
  · have hstate : receipt.state = .pending := by rw [hnew]
    have hobject : receipt.object = none := by rw [hnew]
    have hattempt : receipt.attempt = none := by rw [hnew]
    refine ⟨he.live.valid, ?_, ?_⟩
    · rw [hobject, hstate]
      decide
    · rw [hattempt, hstate]
      decide

theorem Effect.single {now : Int} {other : PublishedInputReceipt}
    (he : Effect p now op s s' receipt) (h : Inv p s) (hother : s'.receipt? id = some other)
    (e : other.binding.idempotencyDigest = receipt.binding.idempotencyDigest) : id = receipt.binding.id := by
  by_contra hne
  rw [he.others id hne] at hother
  obtain ⟨a, ha, hmoves⟩ | ⟨_, _, _, hfresh⟩ := he.found
  · have hsame := hmoves.later.1.binding
    exact hne (h.single id receipt.binding.id other a hother ha (by rw [e, hsame]))
  · exact hfresh id other hother e

theorem Effect.inv {now : Int} (he : Effect p now op s s' receipt) (h : Inv p s) : Inv p s' where
  jobs := he.jobs h.jobs
  sound := fun id other hother => by
    by_cases e : id = receipt.binding.id
    · rw [e, he.stored] at hother
      cases hother
      exact he.sound h
    · rw [he.others id e] at hother
      exact h.sound id other hother
  single := fun i j a b ha hb hdigest => by
    by_cases ei : i = receipt.binding.id
    · rw [ei, he.stored] at ha
      cases ha
      exact ei.trans (he.single h hb hdigest.symm).symm
    · by_cases ej : j = receipt.binding.id
      · rw [ej, he.stored] at hb
        cases hb
        exact (he.single h ha hdigest).trans ej.symm
      · rw [he.others i ei] at ha
        rw [he.others j ej] at hb
        exact h.single i j a b ha hb hdigest

theorem exec_effect (h : Inv p s) (e : Event) :
    (∃ op receipt, e.op = .published op ∧ (exec p s e).2 = .ok (some receipt) ∧
      Effect p e.now op s (exec p s e).1 receipt) ∨
    (Quiet s (exec p s e).1 ∧ ∀ receipt, (exec p s e).2 ≠ .ok (some receipt)) := by
  unfold exec
  split
  · rename_i op hop
    split
    · rename_i s' receipt hrun
      exact .inl ⟨op, receipt, hop, rfl, publishedOp_effect hrun⟩
    · exact .inr ⟨Quiet.refl h.jobs, fun _ => nofun⟩
  · rename_i op hop
    split
    · rename_i s' hrun
      split
      · exact .inr ⟨jobOp_quiet h hrun, fun _ => nofun⟩
      · exact .inr ⟨Quiet.refl h.jobs, fun _ => nofun⟩
    · exact .inr ⟨Quiet.refl h.jobs, fun _ => nofun⟩

theorem Inv.exec (h : Inv p s) (e : Event) : Inv p (exec p s e).1 := by
  obtain ⟨op, receipt, _, _, he⟩ | ⟨hquiet, _⟩ := exec_effect h e
  · exact he.inv h
  · exact h.quiet hquiet

theorem Inv.empty : Inv p SharedStore.empty where
  jobs := fun _ h => by cases h
  sound := fun _ _ h => by cases h
  single := fun _ _ _ _ h => by cases h

section

variable (h : Inv p s)
include h

theorem Inv.run (events : List Event) : Inv p (run p s events) := by
  induction events generalizing s with
  | nil => exact h
  | cons e rest ih => exact ih (h.exec e)

theorem later_exec (e : Event) (ha : s.receipt? id = some a) :
    ∃ b, (exec p s e).1.receipt? id = some b ∧ Later a b ∧
      (b.state = a.state ∨ b.state.rank = a.state.rank + 1) := by
  obtain ⟨op, receipt, _, _, he⟩ | ⟨hquiet, _⟩ := exec_effect h e
  · by_cases eid : id = receipt.binding.id
    · subst eid
      refine ⟨receipt, he.stored, ?_⟩
      obtain ⟨found, hfound, hmoves⟩ | ⟨_, hnone, _, _⟩ := he.found
      · rw [ha] at hfound
        cases hfound
        exact hmoves.later
      · rw [ha] at hnone
        cases hnone
    · exact ⟨a, by rw [he.others id eid, ha], Later.refl a, .inl rfl⟩
  · exact ⟨a, by rw [hquiet.receipts, ha], Later.refl a, .inl rfl⟩

theorem later_run (events : List Event)
    (ha : s.receipt? id = some a) : ∃ b, (run p s events).receipt? id = some b ∧ Later a b := by
  induction events generalizing s a with
  | nil => exact ⟨a, ha, Later.refl a⟩
  | cons e rest ih =>
    obtain ⟨b, hb, hlater, _⟩ := later_exec h e ha
    obtain ⟨c, hc, hlater'⟩ := ih (h.exec e) hb
    exact ⟨c, hc, hlater.trans hlater'⟩

theorem exec_published (hop : e.op = .published op) (hanswer : (exec p s e).2 = .ok (some receipt)) :
    Effect p e.now op s (exec p s e).1 receipt := by
  obtain ⟨op', receipt', hop', hanswer', he⟩ | ⟨_, hno⟩ := exec_effect h e
  · rw [hop] at hop'
    cases hop'
    rw [hanswer] at hanswer'
    cases hanswer'
    exact he
  · exact absurd hanswer (hno receipt)

theorem stays_ahead {between : List Event} (hop : e.op = .published op)
    (hanswer : (exec p s e).2 = .ok (some receipt))
    (ha : (run p (exec p s e).1 between).receipt? id = some a)
    (hdigest : receipt.binding.idempotencyDigest = a.binding.idempotencyDigest) :
    receipt.state.rank ≤ a.state.rank := by
  have he := exec_published h hop hanswer
  obtain ⟨b, hb, hlater⟩ := later_run (h.exec e) between he.stored
  have hinv := (h.exec e).run between
  have hid := hinv.single receipt.binding.id id b a hb ha (by rw [hlater.binding, hdigest])
  rw [hid, ha] at hb
  cases hb
  exact hlater.state

theorem claimed_publication (hop : e.op = .published (.claimPublication binding))
    (hanswer : (exec p s e).2 = .ok (some receipt)) :
    receipt.binding = binding ∧ receipt.state = .publicationUnknown ∧
      ∃ a, s.receipt? binding.id = some a ∧ a.binding = binding ∧ a.state = .pending := by
  have he := exec_published h hop hanswer
  have hbinding := he.binding binding rfl
  obtain ⟨a, ha, hmoves⟩ | ⟨⟨other, hother⟩, _⟩ := he.found
  · rw [hbinding] at ha
    have hsame := hmoves.later.1.binding
    cases hmoves with
    | same publication => cases publication
    | publication state => exact ⟨hbinding, rfl, a, ha, hbinding, state⟩
  · cases hother

theorem claimed_forward
        (hop : e.op = .published (.claimForward binding attempt))
          (hanswer : (exec p s e).2 = .ok (some receipt)) :
    receipt.binding = binding ∧ receipt.state = .forwardingUnknown ∧
      ∃ a, s.receipt? binding.id = some a ∧ a.binding = binding ∧ a.state = .published := by
  have he := exec_published h hop hanswer
  have hbinding := he.binding binding rfl
  obtain ⟨a, ha, hmoves⟩ | ⟨⟨other, hother⟩, _⟩ := he.found
  · rw [hbinding] at ha
    cases hmoves with
    | same publication forward => cases forward
    | forward state => exact ⟨hbinding, rfl, a, ha, hbinding, state⟩
  · cases hother

theorem publication_once {e₁ e₂ : Event} {b₁ b₂ : PublishedInputBinding}
    {r₁ r₂ : PublishedInputReceipt} {between : List Event} (hop₁ : e₁.op = .published (.claimPublication b₁))
    (hanswer₁ : (exec p s e₁).2 = .ok (some r₁)) (hop₂ : e₂.op = .published (.claimPublication b₂))
    (hanswer₂ : (exec p (run p (exec p s e₁).1 between) e₂).2 = .ok (some r₂)) :
    b₁.idempotencyDigest ≠ b₂.idempotencyDigest := by
  intro hdigest
  obtain ⟨hb₁, hstate₁, _⟩ := claimed_publication h hop₁ hanswer₁
  obtain ⟨_, _, a, ha, hb₂, hpending⟩ := claimed_publication ((h.exec e₁).run between) hop₂ hanswer₂
  have hahead := stays_ahead h hop₁ hanswer₁ ha (by rw [hb₁, hb₂, hdigest])
  rw [hstate₁, hpending] at hahead
  exact absurd hahead (by decide)

theorem forward_once {e₁ e₂ : Event} {b₁ b₂ : PublishedInputBinding}
    {attempt₁ attempt₂ : PublishedInputAttempt} {r₁ r₂ : PublishedInputReceipt} {between : List Event}
    (hop₁ : e₁.op = .published (.claimForward b₁ attempt₁)) (hanswer₁ : (exec p s e₁).2 = .ok (some r₁))
    (hop₂ : e₂.op = .published (.claimForward b₂ attempt₂))
    (hanswer₂ : (exec p (run p (exec p s e₁).1 between) e₂).2 = .ok (some r₂)) :
    b₁.idempotencyDigest ≠ b₂.idempotencyDigest := by
  intro hdigest
  obtain ⟨hb₁, hstate₁, _⟩ := claimed_forward h hop₁ hanswer₁
  obtain ⟨_, _, a, ha, hb₂, hpublished⟩ := claimed_forward ((h.exec e₁).run between) hop₂ hanswer₂
  have hahead := stays_ahead h hop₁ hanswer₁ ha (by rw [hb₁, hb₂, hdigest])
  rw [hstate₁, hpublished] at hahead
  exact absurd hahead (by decide)

end

theorem exec_error {error : HttpError} (hanswer : (exec p s e).2 = .error error) : (exec p s e).1 = s := by
  unfold exec at hanswer ⊢
  split at hanswer
  · split at hanswer
    · cases hanswer
    · rfl
  · split at hanswer
    · split at hanswer
      · cases hanswer
      · rename_i hfits
        exact congrArg Prod.fst (if_neg hfits)
    · rfl

theorem exec_job (h : Inv p s) {op : JobOp} (hop : e.op = .job op) : Quiet s (exec p s e).1 := by
  obtain ⟨op', _, hop', _, _⟩ | ⟨hquiet, _⟩ := exec_effect h e
  · rw [hop] at hop'
    cases hop'
  · exact hquiet

theorem run_append (s : SharedStore) (before after : List Event) :
    run p s (before ++ after) = run p (run p s before) after := List.foldl_append

end Runs

/-! ## 5. In its turn each call succeeds -/

section Progress

variable {p : Platform} {s : SharedStore} {now : Int} {binding : PublishedInputBinding}
  {receipt : PublishedInputReceipt}

theorem exec_ok {fits : Bool} {s' : SharedStore} (h : op.run p now fits s = .ok (s', receipt)) :
    exec p s ⟨now, fits, .published op⟩ = (s', .ok (some receipt)) := by
  unfold exec
  simp only [h]

theorem save_stored (hvalid : validatePublishedInput p receipt.binding = true) :
    ∃ s', s.savePublishedInput p true receipt = .ok (s', receipt) ∧ s'.receipt? receipt.binding.id =
      some receipt := by
  refine ⟨⟨s.rows.upsert (.asset receipt)⟩, ?_, ?_⟩
  · unfold SharedStore.savePublishedInput
    simp only [bind_ok, require_ok]
    exact ⟨(), hvalid, (), trivial, rfl⟩
  · show ((s.rows.upsert (.asset receipt)).find? receipt.binding.id).bind Row.receipt? = _
    rw [Table.find?_upsert, if_pos (show (Row.asset receipt).id = receipt.binding.id from rfl)]
    rfl

theorem samePublishedInput_self (hvalid : validatePublishedInput p binding = true) :
    samePublishedInput p binding binding = .ok true := by
  unfold samePublishedInput
  simp only [bind_ok, require_ok]
  exact ⟨(), hvalid, (), hvalid, congrArg Except.ok (decide_eq_true trivial)⟩

theorem Live.asserted (h : Live p now binding) (hnow : date now = true) :
    assertPublishedInputLive p now binding = .ok () := by
  unfold assertPublishedInputLive
  simp only [bind_ok, require_ok, hnow, h.allocated, h.unexpired]
  exact ⟨(), h.valid, (), rfl, h.proved⟩

theorem publishedInput_found (hlive : Live p now receipt.binding) (hnow : date now = true)
    (hfound : s.receipt? receipt.binding.id = some receipt) :
    s.publishedInput p now receipt.binding.id = .ok receipt := by
  obtain ⟨row, hrow, hreceipt⟩ := Option.bind_eq_some_iff.mp hfound
  cases row with
  | job record => cases hreceipt
  | asset found =>
    cases hreceipt
    unfold SharedStore.publishedInput
    rw [hrow, Option.filter_some_pos (isAsset_asset receipt)]
    simp only [bind_ok, require_ok, demand_ok]
    exact ⟨(), valid_id hlive.valid, receipt, rfl, (), hlive.asserted hnow, rfl⟩

section

variable (hlive : Live p now binding)
include hlive

theorem allocate_succeeds (hnow : date now = true) :
    ∃ s', exec p .empty ⟨now, true, .published (.allocate binding)⟩ =
        (s', .ok (some ⟨publishedInputVersion, binding, .pending, none, none⟩)) ∧
      s'.receipt? binding.id = some ⟨publishedInputVersion, binding, .pending, none, none⟩ := by
  obtain ⟨s', hsave, hstored⟩ := @save_stored p .empty
    ⟨publishedInputVersion, binding, .pending, none, none⟩ hlive.valid
  refine ⟨s', exec_ok ?_, hstored⟩
  unfold PublishedOp.run SharedStore.allocatePublishedInput
  simp only [bind_ok]
  refine ⟨(), hlive.asserted hnow, ?_⟩
  simp only [SharedStore.empty, Table.empty, List.find?_nil, Option.bind_none, bind_ok, require_ok]
  exact ⟨(), rfl, (), rfl, hsave⟩

theorem claimPublication_succeeds (hnow : date now = true)
    (hfound : s.receipt? binding.id = some ⟨publishedInputVersion, binding, .pending, none, none⟩) :
    ∃ s', exec p s ⟨now, true, .published (.claimPublication binding)⟩ =
        (s', .ok (some ⟨publishedInputVersion, binding, .publicationUnknown, none, none⟩)) ∧
      s'.receipt? binding.id = some ⟨publishedInputVersion, binding, .publicationUnknown, none, none⟩ := by
  obtain ⟨s', hsave, hstored⟩ :=
    @save_stored p s ⟨publishedInputVersion, binding, .publicationUnknown, none, none⟩ hlive.valid
  refine ⟨s', exec_ok ?_, hstored⟩
  have hread := @publishedInput_found p s now ⟨publishedInputVersion, binding, .pending, none, none⟩
    hlive hnow hfound
  unfold PublishedOp.run SharedStore.claimPublishedInputPublication
  simp only [bind_ok, require_ok]
  exact ⟨_, hread, true, samePublishedInput_self hlive.valid, (), rfl, (), rfl, hsave⟩

theorem bindObject_succeeds (hnow : date now = true)
    (hobject : validatePublishedObject object binding = .ok ())
    (hfound : s.receipt? binding.id = some ⟨publishedInputVersion, binding, .publicationUnknown, none, none⟩) :
    ∃ s', exec p s ⟨now, true, .published (.bindObject binding object)⟩ =
        (s', .ok (some ⟨publishedInputVersion, binding, .published, some object, none⟩)) ∧
      s'.receipt? binding.id = some ⟨publishedInputVersion, binding, .published, some object, none⟩ := by
  obtain ⟨s', hsave, hstored⟩ :=
    @save_stored p s ⟨publishedInputVersion, binding, .published, some object, none⟩ hlive.valid
  refine ⟨s', exec_ok ?_, hstored⟩
  have hread := @publishedInput_found p s now
    ⟨publishedInputVersion, binding, .publicationUnknown, none, none⟩ hlive hnow hfound
  unfold PublishedOp.run SharedStore.bindPublishedInputObject
  simp only [bind_ok]
  refine ⟨_, hread, (), hobject, true, samePublishedInput_self hlive.valid, (), rfl, ?_⟩
  rw [if_neg (by simp)]
  simp only [bind_ok, require_ok]
  exact ⟨(), rfl, hsave⟩

theorem claimForward_succeeds (hnow : date now = true) (hattempt : validatePublishedAttempt attempt = .ok ())
    (hfound : s.receipt? binding.id = some ⟨publishedInputVersion, binding, .published, some object, none⟩) :
    ∃ s', exec p s ⟨now, true, .published (.claimForward binding attempt)⟩ =
        (s', .ok (some ⟨publishedInputVersion, binding, .forwardingUnknown, some object, some attempt⟩)) ∧
      s'.receipt? binding.id =
        some ⟨publishedInputVersion, binding, .forwardingUnknown, some object, some attempt⟩ := by
  obtain ⟨s', hsave, hstored⟩ :=
    @save_stored p s ⟨publishedInputVersion, binding, .forwardingUnknown, some object, some attempt⟩
      hlive.valid
  refine ⟨s', exec_ok ?_, hstored⟩
  have hread := @publishedInput_found p s now
    ⟨publishedInputVersion, binding, .published, some object, none⟩ hlive hnow hfound
  unfold PublishedOp.run SharedStore.claimPublishedInputForward
  simp only [bind_ok, require_ok]
  exact ⟨_, hread, (), hattempt, true, samePublishedInput_self hlive.valid, (), rfl, (), rfl, hsave⟩

end

/-- The calls that publish an input, and the one that forwards it. -/
def publishing (binding : PublishedInputBinding) (object : PublishedInputObject) (now : Int) : List Event :=
  [⟨now, true, .published (.allocate binding)⟩, ⟨now, true, .published (.claimPublication binding)⟩,
    ⟨now, true, .published (.bindObject binding object)⟩]

def forwarding (binding : PublishedInputBinding) (attempt : PublishedInputAttempt) (now : Int) : Event :=
  ⟨now, true, .published (.claimForward binding attempt)⟩

theorem forwarded (hlive : Live p now binding)
    (hnow : date now = true) (hobject : validatePublishedObject object binding = .ok ())
    (hattempt : validatePublishedAttempt attempt = .ok ()) :
    (exec p (run p .empty (publishing binding object now)) (forwarding binding attempt now)).2 =
      .ok (some ⟨publishedInputVersion, binding, .forwardingUnknown, some object, some attempt⟩) := by
  obtain ⟨s₁, h₁, hs₁⟩ := allocate_succeeds hlive hnow
  obtain ⟨s₂, h₂, hs₂⟩ := claimPublication_succeeds hlive hnow hs₁
  obtain ⟨s₃, h₃, hs₃⟩ := bindObject_succeeds hlive hnow hobject hs₂
  obtain ⟨s₄, h₄, _⟩ := claimForward_succeeds hlive hnow hattempt hs₃
  have hrun : run p .empty (publishing binding object now) = s₃ := by
    unfold run publishing
    simp only [List.foldl_cons, List.foldl_nil, h₁, h₂, h₃]
  rw [hrun, forwarding, h₄]

end Progress

/-! ## 6. Once -/

/-- No statement about jobs selects a receipt. -/
structure Unseen (s : SharedStore) (now : Int) : Prop where
  lookup : ∀ id row, s.selectJob id = some row → row.receipt? = none
  retry : ∀ managed key row, s.rows.rows.find? (SharedStore.managedRow now managed key) = some row →
    row.receipt? = none
  list : ∀ after, ∀ row ∈ s.selectList after, row.receipt? = none
  alarm : ∀ row ∈ s.selectDue now, row.receipt? = none
  eviction : ∀ row, s.oldest now = some row → row.receipt? = none

theorem unseen (s : SharedStore) (now : Int) : Unseen s now where
  lookup := fun id row h => by
    obtain ⟨record, rfl, _⟩ := selectJob_job h
    rfl
  retry := fun managed key row h => by
    have hrow := List.find?_some h
    cases row with
    | job record => rfl
    | asset receipt => cases hrow
  list := fun _ => selectList_job
  alarm := selectDue_job
  eviction := fun _ h => (oldest_job h).2

/-- **A published input is published once and forwarded once.** In every run from an empty table: a call
leaves the state of a receipt or moves it to the next one; a receipt stays with its binding, its object and
its attempt, and has an object exactly from `published` on; neither claim succeeds twice for one idempotency
digest; a call about a receipt that ends well is within its time, with a proof that has not expired and the
binding it has; calls about jobs leave every receipt and select none; a refused call changes nothing. -/
theorem published_once (p : Platform) (before after : List Event) (e : Event) :
    (∀ id a, (run p .empty before).receipt? id = some a →
      ((∃ b, (run p .empty (before ++ after)).receipt? id = some b ∧ Later a b) ∧
        (∃ b, (run p .empty (before ++ [e])).receipt? id = some b ∧
          (b.state = a.state ∨ b.state.rank = a.state.rank + 1)) ∧
        (a.object.isSome = true ↔ 2 ≤ a.state.rank) ∧
          (a.attempt.isSome = true ↔ a.state = .forwardingUnknown))) ∧
    (∀ binding receipt, e.op = .published (.claimPublication binding) →
      (exec p (run p .empty before) e).2 = .ok (some receipt) →
      ∀ e' binding' receipt', e'.op = .published (.claimPublication binding') →
      (exec p (run p .empty (before ++ e :: after)) e').2 = .ok (some receipt') →
      binding.idempotencyDigest ≠ binding'.idempotencyDigest) ∧
    (∀ binding attempt receipt, e.op = .published (.claimForward binding attempt) →
      (exec p (run p .empty before) e).2 = .ok (some receipt) →
      ∀ e' binding' attempt' receipt', e'.op = .published (.claimForward binding' attempt') →
      (exec p (run p .empty (before ++ e :: after)) e').2 = .ok (some receipt') →
      binding.idempotencyDigest ≠ binding'.idempotencyDigest) ∧
    (∀ op receipt, e.op = .published op → (exec p (run p .empty before) e).2 = .ok (some receipt) →
      Live p e.now receipt.binding ∧ ∀ binding, op.binding? = some binding → receipt.binding = binding) ∧
    (∀ op, e.op = .job op → ∀ id, (run p .empty (before ++ [e])).receipt? id =
      (run p .empty before).receipt? id) ∧
    (∀ now, Unseen (run p .empty before) now) ∧ ∀ error, (exec p (run p .empty before) e).2 = .error error →
      run p .empty (before ++ [e]) = run p .empty before := by
  have hinv : Inv p (run p .empty before) := Inv.empty.run before
  refine ⟨fun id a ha => ⟨?_, ?_, ?_⟩, ?_, ?_, ?_, ?_, ?_, ?_⟩
  · rw [run_append]
    exact later_run hinv after ha
  · obtain ⟨b, hb, _, hstep⟩ := later_exec hinv e ha
    rw [run_append]
    exact ⟨b, hb, hstep⟩
  · have hsound := hinv.sound id a ha
    exact ⟨hsound.object, hsound.attempt⟩
  · intro binding receipt hop hanswer e' binding' receipt' hop' hanswer'
    rw [run_append] at hanswer'
    exact publication_once hinv hop hanswer hop' hanswer'
  · intro binding attempt receipt hop hanswer e' binding' attempt' receipt' hop' hanswer'
    rw [run_append] at hanswer'
    exact forward_once hinv hop hanswer hop' hanswer'
  · intro op receipt hop hanswer
    have heffect := exec_published hinv hop hanswer
    exact ⟨heffect.live, heffect.binding⟩
  · intro op hop id
    rw [run_append]
    exact (exec_job hinv hop).receipts id
  · exact fun now => unseen _ now
  · intro error hanswer
    rw [run_append]
    exact exec_error hanswer

/-- A platform that knows one date and one address. -/
def onePlatform : Platform where
  parseDate :=
  fun text => if text = "2030-01-01T00:00:00.000Z" then some 1893456000000 else none
  parseUrl := fun text => if text = "https://router.example" then some ⟨"https:", text, "", ""⟩ else none

def oneDigest : String := String.ofList (List.replicate 64 'a')

def oneBinding : PublishedInputBinding where
  version :=
  publishedInputVersion
  id := "asset_0123456789abcdef0123456789abcdef"
  scope := "http-continuations:" ++ oneDigest
  issuer := ⟨some "credential", some "ada@example.com", "policy", "7", "tenant",
    .proxyKey (some "credential") (some "ada@example.com") oneDigest (some (some "2030-01-01T00:00:00.000Z"))⟩
  owner := ⟨"openrouter", "music_generate", some "oauth/openrouter/main", some "lineage", oneDigest, "7"⟩
  generation := 1
  publicOrigin := "https://router.example"
  origin := "https://openrouter.ai"
  path := "/api/v1/chat/completions"
  modelId := "openrouter/google/lyria-3-pro-preview"
  upstreamModel := "google/lyria-3-pro-preview"
  slot := publishedInputSlot
  requestDigest := oneDigest
  permissionDigest := oneDigest
  digest := oneDigest
  mime := "image/png"
  size := 1024
  idempotencyDigest := oneDigest
  verifierDigest := oneDigest
  allocatedAt := 1700000000000
  expiresAt := 1700000900000

def oneObject : PublishedInputObject :=
  ⟨publishedInputKey oneBinding, "version", "etag", oneDigest, "image/png", 1024⟩

def oneAttempt : PublishedInputAttempt := ⟨oneDigest, "request", "event", 10, [⟨"budget", "reservation"⟩]⟩

theorem oneDigest_digest : digest oneDigest = true := by decide +kernel

theorem oneBinding_valid : validatePublishedInput onePlatform oneBinding = true := by
  have hissuer : validatePublishedIssuer onePlatform oneBinding.issuer = true := by
    simp only [validatePublishedIssuer, oneBinding, oneDigest_digest, Bool.and_eq_true]
    repeat' refine And.intro ?_ ?_
    all_goals decide +kernel
  unfold validatePublishedInput
  rw [hissuer]
  simp only [oneBinding, oneDigest_digest, Bool.and_eq_true]
  repeat' refine And.intro ?_ ?_
  all_goals decide +kernel

/-- An input that is published and forwarded, and not forwarded again. -/
theorem published_once_music :
    (exec onePlatform (run onePlatform .empty (publishing oneBinding oneObject 1700000000001))
      (forwarding oneBinding oneAttempt 1700000000001)).2 =
        .ok (some ⟨publishedInputVersion, oneBinding, .forwardingUnknown, some oneObject, some oneAttempt⟩) ∧
    ∀ receipt', (exec onePlatform (run onePlatform .empty (publishing oneBinding oneObject 1700000000001 ++
      forwarding oneBinding oneAttempt 1700000000001 :: []))
        (forwarding oneBinding oneAttempt 1700000000002)).2 ≠
        .ok (some receipt') := by
  have hlive : Live onePlatform 1700000000001 oneBinding :=
    ⟨oneBinding_valid, by decide, by decide, by decide +kernel⟩
  have hanswer := forwarded hlive rfl (show validatePublishedObject oneObject oneBinding = .ok () by
    decide +kernel)
    (show validatePublishedAttempt oneAttempt = .ok () by decide +kernel)
  refine ⟨hanswer, fun receipt' hagain => ?_⟩
  exact (published_once onePlatform _ [] _).2.2.1 oneBinding oneAttempt _ rfl hanswer _ oneBinding
    oneAttempt receipt'
    rfl hagain rfl

end ClawRouter.Published
