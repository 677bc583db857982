/-
  Subject:   What a background job keeps through every mutation of its store.

  A record only moves on: an event that is frozen stays, an answer that is final stays, and a
  permission that was given is not given again. One relation, `Evolves`, says so for one mutation;
  the statements about runs are read off it.

  * `run_moves`: every mutation of a row, one after the other.
-/
import ClawRouter.Background.Store

namespace ClawRouter.Background

open Fallible Keyed Charging

/-! ## 1. One record after another -/

/-- A leg later on: its intent stays, and a settlement that was made. -/
structure LegLater (a b : BackgroundLeg) : Prop where
  intent : b.intent = a.intent
  settled : a.settlement = .settled → b.settlement = .settled

theorem LegLater.refl (a : BackgroundLeg) : LegLater a a := ⟨rfl, id⟩

/-- An operation later on. -/
structure Operation.Later (a b : Operation) : Prop where
  id : b.id = a.id
  admittedAt : b.admittedAt = a.admittedAt
  legs : List.Forall₂ LegLater a.legs b.legs
  frozen : ∀ event, a.event = some event →
    b.event = some event ∧ b.amount = a.amount ∧ b.basis = a.basis
  usage : a.usage.final = true → b.usage = a.usage
  claimed : a.dispatchClaimed = true → b.dispatchClaimed = true
  phase : a.phase ≠ .admitting → b.phase ≠ .admitting

/-- A receipt later on. -/
structure ReceiptLater (a b : ManagedInputReceipt) : Prop where
  binding : b.binding = a.binding
  state : a.state ≠ .pending → b.state ≠ .pending
  created : a.createClaimed = true → b.createClaimed = true
  live : ∀ op, b.upload = .live op → ∃ op₀, a.upload = .live op₀ ∧ op₀.Later op
  closed : ∀ t, a.upload = .closed t → b.upload = .closed t
  complete : ∀ op t, a.upload = .live op → b.upload = .closed t →
    ∃ op', op.Later op' ∧ op'.event.isSome = true ∧ op'.accounted = true ∧ t = op'.close .complete

/-- What the upload of a job keeps; a job gets none after its admission. -/
def UploadLater : Option ManagedInputReceipt → Option ManagedInputReceipt → Prop
  | none, b => b = none
  | some a, b => ∃ b', b = some b' ∧ ReceiptLater a b'

/-- What holds of every operation the store has saved. -/
structure Operation.Sound (op : Operation) : Prop where
  settlements : op.settlements = op.legs.map BackgroundLeg.settlement
  frozen : ∀ event, op.event = some event → op.phase = .outbox ∧
    op.amount = some event.actualCostMicros ∧ op.basis = some event.costBasis
  unfrozen : op.event = none → op.phase ≠ .outbox

/-- Everything about the event of a tombstone has been answered. -/
structure Tombstone.Accounted (t : Tombstone) : Prop where
  phase : t.phase = .complete
  settled : ∀ s ∈ t.settlements, s = .settled
  usage : t.usage.final = true

def ReceiptSound (receipt : ManagedInputReceipt) : Prop :=
  (∀ op, receipt.upload = .live op → op.Sound) ∧
    ∀ t, receipt.upload = .closed t → t.Accounted

/-- A record that operations alone have made. -/
inductive Sound : BackgroundRecord → Prop
  | live {job : BackgroundJob} (op : job.toOperation.Sound)
      (upload : ∀ receipt, job.inputReceipt = some receipt → ReceiptSound receipt) :
      Sound (.live job)
  | complete {t : BackgroundTombstone} (accounted : t.toTombstone.Accounted)
      (upload : ∀ receipt, t.inputReceipt = some receipt → ReceiptSound receipt)
      (done : t.inputReceipt.any ManagedInputReceipt.pendingUpload = false) : Sound (.closed t)
  | expired {t : BackgroundTombstone} (phase : t.phase = .expired)
      (upload : ∀ receipt, t.inputReceipt = some receipt → ReceiptSound receipt) :
      Sound (.closed t)

/-- **One mutation of a row**: a job stays a job, or is closed for one of two reasons. -/
inductive Evolves (now : Int) : BackgroundRecord → BackgroundRecord → Prop
  | live {job job' : BackgroundJob} (later : job.toOperation.Later job'.toOperation)
      (upload : UploadLater job.inputReceipt job'.inputReceipt) :
      Evolves now (.live job) (.live job')
  | complete {job job' : BackgroundJob} (later : job.toOperation.Later job'.toOperation)
      (upload : UploadLater job.inputReceipt job'.inputReceipt)
      (sound : Sound (.live job) → job'.toOperation.Sound)
      (event : job'.event.isSome = true) (accounted : job'.accounted = true)
      (done : job'.inputReceipt.any ManagedInputReceipt.pendingUpload = false) :
      Evolves now (.live job) (.closed (job'.close .complete))
  | expired {job job' : BackgroundJob} (later : job.toOperation.Later job'.toOperation)
      (upload : UploadLater job.inputReceipt job'.inputReceipt) (late : job.replayUntil ≤ now) :
      Evolves now (.live job) (.closed (job'.close .expired))
  | closed {t t' : BackgroundTombstone} (same : t'.toTombstone = t.toTombstone)
      (upload : t'.inputReceipt = t.inputReceipt) : Evolves now (.closed t) (.closed t')

/-- One operation after another, both of them sound if the first is. -/
structure Operation.Moves (a b : Operation) : Prop where
  later : a.Later b
  sound : a.Sound → b.Sound

/-- One row after another, both of them sound if the first is. -/
structure Moves (now : Int) (a b : BackgroundRecord) : Prop where
  evolves : Evolves now a b
  sound : Sound a → Sound b

/-! ## 2. Operations -/

section Operations

variable {op op' : Operation} {index : Nat} {leg leg' : BackgroundLeg}

theorem LegLater.trans {a b c : BackgroundLeg} (h : LegLater a b) (h' : LegLater b c) : LegLater a c :=
  ⟨h'.intent.trans h.intent, fun hs => h'.settled (h.settled hs)⟩

theorem forall₂_later_trans {l₁ l₂ l₃ : List BackgroundLeg} (h : List.Forall₂ LegLater l₁ l₂)
    (h' : List.Forall₂ LegLater l₂ l₃) : List.Forall₂ LegLater l₁ l₃ := by
  induction h generalizing l₃ with
  | nil => exact h'
  | cons hleg _ ih =>
    cases h' with
    | cons hleg' htail => exact .cons (hleg.trans hleg') (ih htail)

theorem Operation.Later.refl (op : Operation) : op.Later op :=
  ⟨rfl, rfl, List.forall₂_same.mpr fun leg _ => .refl leg, fun _ h => ⟨h, rfl, rfl⟩, fun _ => rfl,
    fun h => h, fun h => h⟩

theorem Operation.Later.trans {a b c : Operation} (h : a.Later b) (h' : b.Later c) : a.Later c where
  id := h'.id.trans h.id
  admittedAt := h'.admittedAt.trans h.admittedAt
  legs := forall₂_later_trans h.legs h'.legs
  frozen := fun event he => by
    obtain ⟨hb, hamount, hbasis⟩ := h.frozen event he
    obtain ⟨hc, hamount', hbasis'⟩ := h'.frozen event hb
    exact ⟨hc, hamount'.trans hamount, hbasis'.trans hbasis⟩
  usage := fun hf => by
    have e := h.usage hf
    exact (h'.usage (e.symm ▸ hf)).trans e
  claimed := fun hc => h'.claimed (h.claimed hc)
  phase := fun hp => h'.phase (h.phase hp)

theorem Operation.Moves.refl (op : Operation) : op.Moves op := ⟨.refl op, fun h => h⟩

theorem forall₂_set {legs : List BackgroundLeg} {index : Nat} {leg leg' : BackgroundLeg}
    (h : legs[index]? = some leg) (hlater : LegLater leg leg') :
    List.Forall₂ LegLater legs (legs.set index leg') := by
  induction legs generalizing index with
  | nil => cases h
  | cons x legs ih =>
    cases index with
    | zero =>
      cases h
      exact .cons hlater (List.forall₂_same.mpr fun leg _ => .refl leg)
    | succ index => exact .cons (.refl x) (ih h)

theorem map_set_settlement {legs : List BackgroundLeg} {index : Nat} {leg leg' : BackgroundLeg}
    (h : legs[index]? = some leg) (e : leg'.settlement = leg.settlement) :
    (legs.set index leg').map BackgroundLeg.settlement = legs.map BackgroundLeg.settlement := by
  rw [List.map_set, e]
  refine List.ext_getElem? fun i => ?_
  rw [List.getElem?_set]
  split
  · rename_i hi
    subst hi
    split
    · rw [List.getElem?_map, h]
      rfl
    · rename_i hlength
      rw [List.getElem?_eq_none]
      exact Nat.not_lt.mp hlength
  · rfl

theorem setLeg_moves (h : op.legs[index]? = some leg) (hintent : leg'.intent = leg.intent)
    (hsettlement : leg'.settlement = leg.settlement) : op.Moves (op.setLeg index leg') where
  later := ⟨rfl, rfl, forall₂_set h ⟨hintent, fun hs => hsettlement.trans hs⟩,
    fun _ he => ⟨he, rfl, rfl⟩, fun _ => rfl, fun hc => hc, fun hp => hp⟩
  sound := fun hs => ⟨hs.settlements.trans (map_set_settlement h hsettlement).symm, hs.frozen, hs.unfrozen⟩

theorem beginReserve_moves (h : op.beginReserve index = .ok op') : op.Moves op' := by
  unfold Operation.beginReserve at h
  simp only [bind_ok, demand_ok, pure_ok] at h
  obtain ⟨leg, hleg, _, -, rfl⟩ := h
  exact setLeg_moves hleg rfl rfl

theorem reserved_moves {allowed : Bool} (h : op.reserved index allowed = .ok op') : op.Moves op' := by
  unfold Operation.reserved at h
  simp only [bind_ok, demand_ok, pure_ok] at h
  obtain ⟨leg, hleg, _, -, rfl⟩ := h
  exact setLeg_moves hleg rfl rfl

theorem dispatched_moves (h : op.dispatched index = .ok op') : op.Moves op' := by
  unfold Operation.dispatched at h
  simp only [bind_ok, demand_ok, pure_ok] at h
  obtain ⟨leg, hleg, _, -, rfl⟩ := h
  exact setLeg_moves hleg rfl rfl

theorem untracked_moves {error : Option LastError} {responseId contentRef : Option String}
    {egress : Bool} {next : Int} {attempts : Nat} : op.Moves { op with
      lastError := error, responseId := responseId, contentRef := contentRef, egress := egress
      nextAttemptAt := next, attempts := attempts } where
  later := ⟨rfl, rfl, List.forall₂_same.mpr fun leg _ => .refl leg, fun _ he => ⟨he, rfl, rfl⟩,
    fun _ => rfl, fun hc => hc, fun hp => hp⟩
  sound := fun hs => ⟨hs.settlements, hs.frozen, hs.unfrozen⟩

variable {outcome : AccountingOutcome} {now : Int}

theorem freeze_moves : op.Moves (op.freeze outcome now) := by
  unfold Operation.freeze
  split
  · exact .refl op
  · rename_i facts e
    have hopen : op.event = none := by
      unfold Operation.event
      rw [e]
    refine ⟨⟨rfl, rfl, ?_, fun event he => ?_, fun _ => rfl, fun h => h, fun _ => nofun⟩,
      fun hs => ⟨rfl, fun event he => ?_, fun he => by cases he⟩⟩
    · refine List.forall₂_map_right_iff.mpr (List.forall₂_same.mpr fun leg _ => ?_)
      split
      · exact ⟨rfl, fun _ => rfl⟩
      · exact .refl leg
    · rw [hopen] at he
      cases he
    · cases he
      exact ⟨rfl, rfl, rfl⟩

theorem acknowledge_moves {ack : Acknowledgement} (h : op.acknowledge ack = .ok op') :
    op.Moves op' ∧ op'.event = op.event := by
  cases ack with
  | usage disposition =>
    unfold Operation.acknowledge at h
    dsimp only at h
    split at h
    · cases h
      exact ⟨.refl _, rfl⟩
    · rename_i hfinal
      simp only [bind_ok, pure_ok] at h
      obtain ⟨_, -, rfl⟩ := h
      refine ⟨⟨⟨rfl, rfl, List.forall₂_same.mpr fun leg _ => .refl leg,
        fun _ he => ⟨he, rfl, rfl⟩, fun hf => absurd hf hfinal, fun h => h, fun h => h⟩,
        fun hs => ⟨hs.settlements, hs.frozen, hs.unfrozen⟩⟩, rfl⟩
  | leg index disposition =>
    unfold Operation.acknowledge at h
    simp only [bind_ok, demand_ok] at h
    obtain ⟨leg, hleg, _, -, h⟩ := h
    split at h
    · cases h
      exact ⟨.refl _, rfl⟩
    · rename_i hsettled
      rw [pure_ok] at h
      subst h
      refine ⟨⟨⟨rfl, rfl, forall₂_set hleg ⟨rfl, fun hs => absurd hs hsettled⟩,
        fun _ he => ⟨he, rfl, rfl⟩, fun _ => rfl, fun h => h, fun h => h⟩,
        fun hs => ⟨rfl, hs.frozen, hs.unfrozen⟩⟩, rfl⟩

theorem close_accounted (h : op.accounted = true) : (op.close .complete).Accounted := by
  obtain ⟨hsettled, husage⟩ := Bool.and_eq_true_iff.mp h
  exact ⟨rfl, fun s hs => of_decide_eq_true (List.all_eq_true.mp hsettled s hs), husage⟩

theorem event_of_open {eventId : String}
    (h : ¬(op.event.all (fun event => event.id ≠ eventId) || op.replayUntil ≤ now) = true) :
    op.event.isSome = true := by
  cases he : op.event with
  | some event => rfl
  | none =>
    rw [he] at h
    exact absurd rfl h

end Operations

/-! ## 3. Rows -/

variable {row : Option BackgroundRecord} {binding : ManagedInputBinding}

section Rows

variable {now : Int} {job job' : BackgroundJob} {receipt : ManagedInputReceipt}

theorem ReceiptLater.refl (receipt : ManagedInputReceipt) : ReceiptLater receipt receipt where
  binding := rfl
  state := fun h => h
  created := fun h => h
  live := fun op h => ⟨op, h, .refl op⟩
  closed := fun _ h => h
  complete := fun op t h h' => by
    rw [h] at h'
    cases h'

theorem UploadLater.refl : ∀ receipt : Option ManagedInputReceipt, UploadLater receipt receipt
  | none => rfl
  | some receipt => ⟨receipt, rfl, .refl receipt⟩

theorem ReceiptLater.trans {a b c : ManagedInputReceipt} (h : ReceiptLater a b)
    (h' : ReceiptLater b c) : ReceiptLater a c where
  binding := h'.binding.trans h.binding
  state := fun hs => h'.state (h.state hs)
  created := fun hc => h'.created (h.created hc)
  live := fun op hop => by
    obtain ⟨op₁, hop₁, hlater'⟩ := h'.live op hop
    obtain ⟨op₀, hop₀, hlater⟩ := h.live op₁ hop₁
    exact ⟨op₀, hop₀, hlater.trans hlater'⟩
  closed := fun t ht => h'.closed t (h.closed t ht)
  complete := fun op t hop ht => by
    cases hb : b.upload with
    | live op₁ =>
      obtain ⟨op₀, hop₀, hlater⟩ := h.live op₁ hb
      rw [hop] at hop₀
      cases hop₀
      obtain ⟨op', hlater', hevent, haccounted, e⟩ := h'.complete op₁ t hb ht
      exact ⟨op', hlater.trans hlater', hevent, haccounted, e⟩
    | closed t₁ =>
      have e := h'.closed t₁ hb
      rw [ht] at e
      cases e
      exact h.complete op t hop hb

theorem UploadLater.trans {a b c : Option ManagedInputReceipt} (h : UploadLater a b)
    (h' : UploadLater b c) : UploadLater a c := by
  cases a with
  | none =>
    cases h
    exact h'
  | some a =>
    obtain ⟨b, rfl, hab⟩ := h
    obtain ⟨c, rfl, hbc⟩ := h'
    exact ⟨c, rfl, hab.trans hbc⟩

theorem Moves.after {record : BackgroundRecord} (h : Moves now (.live job) (.live job'))
    (h' : Moves now (.live job') record) : Moves now (.live job) record := by
  refine ⟨?_, fun hs => h'.sound (h.sound hs)⟩
  cases h.evolves with
  | live later upload =>
    cases h'.evolves with
    | live later' upload' => exact .live (later.trans later') (upload.trans upload')
    | complete later' upload' sound event accounted done =>
      exact .complete (later.trans later') (upload.trans upload') (fun hs => sound (h.sound hs))
        event accounted done
    | expired later' upload' late =>
      refine .expired (later.trans later') (upload.trans upload') ?_
      unfold Operation.replayUntil at late ⊢
      rw [later.admittedAt] at late
      exact late

theorem Moves.refl (record : BackgroundRecord) : Moves now record record := by
  refine ⟨?_, fun h => h⟩
  cases record with
  | live job => exact .live (.refl _) (.refl _)
  | closed t => exact .closed rfl rfl

theorem moves_operation (h : job.toOperation.Moves job'.toOperation)
    (hreceipt : job'.inputReceipt = job.inputReceipt) : Moves now (.live job) (.live job') := by
  refine ⟨.live h.later ?_, fun hs => ?_⟩
  · rw [hreceipt]
    exact .refl _
  · cases hs with
    | live hop hupload => exact .live (h.sound hop) (hreceipt ▸ hupload)

theorem moves_receipt {receipt' : ManagedInputReceipt} (hop : job'.toOperation = job.toOperation)
    (hreceipt : job.inputReceipt = some receipt) (hreceipt' : job'.inputReceipt = some receipt')
    (hlater : ReceiptLater receipt receipt') (hsound : ReceiptSound receipt → ReceiptSound receipt') :
    Moves now (.live job) (.live job') := by
  refine ⟨.live (hop ▸ .refl _) ?_, fun hs => ?_⟩
  · rw [hreceipt, hreceipt']
    exact ⟨receipt', rfl, hlater⟩
  · cases hs with
    | live hjob hupload =>
      refine .live (hop ▸ hjob) fun r hr => ?_
      rw [hreceipt'] at hr
      cases hr
      exact hsound (hupload receipt hreceipt)

theorem receipt_upload {op op' : Operation} (receipt' : ManagedInputReceipt)
    (hlive : receipt.upload = .live op) (hlive' : receipt'.upload = .live op')
      (hbinding : receipt'.binding = receipt.binding)
    (hstate : receipt.state ≠ .pending → receipt'.state ≠ .pending)
    (hcreated : receipt.createClaimed = true → receipt'.createClaimed = true) (h : op.Moves op') :
    ReceiptLater receipt receipt' ∧ (ReceiptSound receipt → ReceiptSound receipt') := by
  refine ⟨⟨hbinding, hstate, hcreated, fun x hx => ?_, fun t ht => ?_, fun x t _ ht => ?_⟩,
    fun hs => ⟨fun x hx => ?_, fun t ht => ?_⟩⟩
  · rw [hlive'] at hx
    cases hx
    exact ⟨op, hlive, h.later⟩
  · rw [hlive] at ht
    cases ht
  · rw [hlive'] at ht
    cases ht
  · rw [hlive'] at hx
    cases hx
    exact h.sound (hs.1 op hlive)
  · rw [hlive'] at ht
    cases ht

theorem receipt_closed {op op' : Operation} (receipt' : ManagedInputReceipt)
    (hlive : receipt.upload = .live op) (hclosed : receipt'.upload = .closed (op'.close .complete))
    (hbinding : receipt'.binding = receipt.binding)
      (hstate : receipt.state ≠ .pending → receipt'.state ≠ .pending)
    (hcreated : receipt.createClaimed = true → receipt'.createClaimed = true)
    (hlater : op.Later op') (hevent : op'.event.isSome = true) (haccounted : op'.accounted = true) :
    ReceiptLater receipt receipt' ∧ (ReceiptSound receipt → ReceiptSound receipt') := by
  refine ⟨⟨hbinding, hstate, hcreated, fun x hx => ?_, fun t ht => ?_, fun x t hx ht => ?_⟩,
    fun hs => ⟨fun x hx => ?_, fun t ht => ?_⟩⟩
  · rw [hclosed] at hx
    cases hx
  · rw [hlive] at ht
    cases ht
  · rw [hlive] at hx
    cases hx
    rw [hclosed] at ht
    cases ht
    exact ⟨op', hlater, hevent, haccounted, rfl⟩
  · rw [hclosed] at hx
    cases hx
  · rw [hclosed] at ht
    cases ht
    exact close_accounted haccounted

theorem upload_ok {op : Operation} (h : upload row = .ok (job, receipt, op)) :
    row = some (.live job) ∧ job.inputReceipt = some receipt ∧ receipt.upload = .live op ∧
      op.phase = .admitting := by
  unfold upload at h
  simp only [bind_ok, demand_ok, pure_ok, require_ok] at h
  obtain ⟨j, hj, r, hr, o, ho, _, hphase, e⟩ := h
  cases e
  unfold Background.job at hj
  split at hj
  · cases hj
  · cases hj
  · cases hj
    unfold uploadJob at ho
    split at ho
    · cases ho
      rename_i hu
      exact ⟨rfl, hr, hu, of_decide_eq_true (Bool.and_eq_true_iff.mp hphase).1⟩
    · cases ho

theorem job_ok (h : Background.job row = .ok job) : row = some (.live job) := by
  unfold Background.job at h
  split at h
  · cases h
  · cases h
  · cases h
    rfl

theorem admitting_ok (h : admitting now row = .ok job) :
    row = some (.live job) ∧ job.phase = .admitting ∧ now < job.admittedAt + 60000 := by
  unfold admitting at h
  simp only [bind_ok, require_ok, pure_ok] at h
  obtain ⟨j, hj, _, hc, rfl⟩ := h
  obtain ⟨hphase, htime⟩ := Bool.and_eq_true_iff.mp hc
  exact ⟨job_ok hj, of_decide_eq_true hphase, of_decide_eq_true htime⟩

/-- What a mutation leaves of a row: nothing where there was none, else a later row. -/
def RowMoves (now : Int) (row row' : Option BackgroundRecord) : Prop :=
  row' = row ∨ ∃ record record', row = some record ∧ row' = some record' ∧ Moves now record record'

variable {row row' : Option BackgroundRecord}

theorem onOperation_moves {uploading : Bool} {f : Operation → Answer Operation}
    (hf : ∀ op op', f op = .ok op' → op.Moves op')
    (h : onOperation now uploading f row = .ok row') : RowMoves now row row' := by
  unfold onOperation at h
  cases uploading with
  | true =>
    simp only [if_true, bind_ok, pure_ok] at h
    obtain ⟨⟨job, receipt, op⟩, hup, op', hop, rfl⟩ := h
    obtain ⟨rfl, hreceipt, hlive, -⟩ := upload_ok hup
    obtain ⟨hlater, hsound⟩ := receipt_upload { receipt with upload := .live op' } hlive rfl rfl
      (fun h => h) (fun h => h) (hf op op' hop)
    exact .inr ⟨_, _, rfl, rfl, moves_receipt rfl hreceipt rfl hlater hsound⟩
  | false =>
    simp only [Bool.false_eq_true, if_false, bind_ok, pure_ok] at h
    obtain ⟨job, hjob, op', hop, rfl⟩ := h
    obtain ⟨rfl, -, -⟩ := admitting_ok hjob
    exact .inr ⟨_, _, rfl, rfl, moves_operation (hf _ _ hop) rfl⟩

theorem beginEgress_moves (h : beginEgress now row = .ok row') : RowMoves now row row' := by
  unfold beginEgress at h
  simp only [bind_ok, pure_ok] at h
  obtain ⟨job, hjob, _, -, _, -, rfl⟩ := h
  obtain ⟨rfl, hphase, -⟩ := admitting_ok hjob
  refine .inr ⟨_, _, rfl, rfl, moves_operation ⟨⟨rfl, rfl, List.forall₂_same.mpr fun leg _ => .refl leg,
    fun _ he => ⟨he, rfl, rfl⟩, fun _ => rfl, fun hc => hc, fun _ => nofun⟩, fun hs => ?_⟩ rfl⟩
  refine ⟨hs.settlements, fun event he => ?_, fun _ => nofun⟩
  have e := (hs.frozen event he).1
  rw [hphase] at e
  cases e

theorem beginDispatch_moves {contentRef : Option String} {input : Bool}
    (h : beginDispatch now contentRef input row = .ok row') : RowMoves now row row' := by
  unfold beginDispatch at h
  simp only [bind_ok, pure_ok] at h
  obtain ⟨job, hjob, _, -, _, -, rfl⟩ := h
  obtain ⟨rfl, -, -⟩ := admitting_ok hjob
  exact .inr ⟨_, _, rfl, rfl, moves_operation ⟨⟨rfl, rfl, List.forall₂_same.mpr fun leg _ => .refl leg,
    fun _ he => ⟨he, rfl, rfl⟩, fun _ => rfl, fun _ => rfl, fun hp => hp⟩,
    fun hs => ⟨hs.settlements, hs.frozen, hs.unfrozen⟩⟩ rfl⟩

theorem identity_moves {responseId : String} (h : identity now responseId row = .ok row') :
    RowMoves now row row' := by
  unfold identity at h
  simp only [bind_ok] at h
  obtain ⟨job, hjob, h⟩ := h
  obtain rfl := job_ok hjob
  split at h
  · cases h
    exact .inl rfl
  · simp only [bind_ok, pure_ok] at h
    obtain ⟨_, -, _, -, _, -, _, -, rfl⟩ := h
    exact .inr ⟨_, _, rfl, rfl, moves_operation untracked_moves rfl⟩

theorem jobFreeze_moves {outcome : AccountingOutcome} :
    Moves now (.live job) (.live (job.freeze outcome now)) := by
  unfold BackgroundJob.freeze
  split
  · exact .refl _
  · refine ⟨.live freeze_moves.later ?_, fun hs => ?_⟩
    · cases hr : job.inputReceipt with
      | none => rfl
      | some receipt =>
        refine ⟨_, rfl, ?_⟩
        dsimp only
        split
        · rename_i op hlive
          exact (receipt_upload { receipt with
            upload := .live (op.freeze { outcome with billable := receipt.state ≠ .pending } now) }
            hlive rfl rfl (fun h => h) (fun h => h) freeze_moves).1
        · exact .refl receipt
    · cases hs with
      | live hop hupload =>
        refine .live (freeze_moves.sound hop) fun r hr => ?_
        obtain ⟨receipt, hreceipt, rfl⟩ := Option.map_eq_some_iff.mp hr
        have hsound := hupload receipt hreceipt
        split
        · rename_i op hlive
          exact (receipt_upload { receipt with
            upload := .live (op.freeze { outcome with billable := receipt.state ≠ .pending } now) }
            hlive rfl rfl (fun h => h) (fun h => h) freeze_moves).2 hsound
        · exact hsound

theorem freeze_row_moves {outcome : AccountingOutcome} {uploading : Bool}
    (h : freeze now outcome uploading row = .ok row') : RowMoves now row row' := by
  unfold freeze at h
  cases uploading with
  | true =>
    simp only [if_true, bind_ok, demand_ok] at h
    obtain ⟨record, rfl, receipt, hreceipt, h⟩ := h
    split at h
    · cases h
      exact .inl rfl
    · rename_i op hlive
      split at h
      · cases h
        exact .inl rfl
      · simp only [bind_ok, pure_ok] at h
        obtain ⟨job, hjob, rfl⟩ := h
        cases job_ok hjob
        obtain ⟨hlater, hsound⟩ := receipt_upload
          { receipt with upload := .live (op.freeze outcome now) } hlive rfl rfl (fun h => h)
            (fun h => h) freeze_moves
        exact .inr ⟨_, _, rfl, rfl, moves_receipt rfl hreceipt rfl hlater hsound⟩
  | false =>
    simp only [Bool.false_eq_true, if_false] at h
    split at h
    · cases h
    · cases h
      exact .inl rfl
    · cases h
      exact .inr ⟨_, _, rfl, rfl, jobFreeze_moves⟩

theorem observeManaged_moves {upstreamId status : String} {statusCode : Int}
    {attempt : Option Nat} {loss : Option ManagedObservationLoss}
    (h : observeManaged now upstreamId status statusCode attempt loss row = .ok row') :
    RowMoves now row row' := by
  unfold observeManaged at h
  split at h
  · rename_i job
    split at h
    · cases h
      exact .inl rfl
    · simp only [bind_ok, demand_ok] at h
      obtain ⟨managed, -, _, -, _, -, _, -, h⟩ := h
      split at h
      · -- the observation is lost, and the job is frozen as it is
        simp only [bind_ok, pure_ok] at h
        obtain ⟨_, -, rfl⟩ := h
        refine .inr ⟨_, _, rfl, rfl, .after ?_ jobFreeze_moves⟩
        exact moves_operation untracked_moves rfl
      · split at h
        · cases h
          exact .inl rfl
        · cases h
          refine .inr ⟨_, _, rfl, rfl, .after ?_ jobFreeze_moves⟩
          exact moves_operation (.refl _) rfl
  · cases h
    exact .inl rfl

theorem bindManagedFiles_moves {upstreamId : String} {files : List ManagedFileDescriptor}
    (h : bindManagedFiles now upstreamId files row = .ok row') : RowMoves now row row' := by
  unfold bindManagedFiles at h
  simp only [bind_ok, demand_ok] at h
  obtain ⟨record, rfl, managed, -, _, -, _, -, known, -, merged, -, h⟩ := h
  cases record with
  | live job =>
    cases h
    exact .inr ⟨_, _, rfl, rfl, moves_operation (.refl _) rfl⟩
  | closed t =>
    cases h
    refine .inr ⟨_, _, rfl, rfl, .closed rfl rfl, fun hs => ?_⟩
    cases hs with
    | complete accounted upload done => exact .complete accounted upload done
    | expired phase upload => exact .expired phase upload

theorem compact_moves (h : job.event.isSome = true) : Moves now (.live job) job.compact := by
  unfold BackgroundJob.compact
  split
  · rename_i hc
    obtain ⟨haccounted, hdone⟩ := Bool.and_eq_true_iff.mp hc
    have hdone : job.inputReceipt.any ManagedInputReceipt.pendingUpload = false := Bool.not_eq_true' _ ▸ hdone
    refine ⟨.complete (.refl _) (.refl _) (fun hs => ?_) h haccounted hdone, fun hs => ?_⟩
    · cases hs with
      | live hop _ => exact hop
    · cases hs with
      | live hop hupload => exact .complete (close_accounted haccounted) hupload hdone
  · exact .refl _

theorem acknowledge_row_moves {eventId : String} {ack : Acknowledgement} {uploading : Bool}
    (h : acknowledge now eventId ack uploading row = .ok row') : RowMoves now row row' := by
  unfold acknowledge at h
  cases uploading with
  | true =>
    simp only [if_true, bind_ok, demand_ok] at h
    obtain ⟨record, rfl, receipt, hreceipt, h⟩ := h
    split at h
    · cases h
      exact .inl rfl
    · rename_i op hlive
      split at h
      · cases h
        exact .inl rfl
      · rename_i hopen
        simp only [bind_ok] at h
        obtain ⟨op', hop, h⟩ := h
        split at h
        · cases h
          exact .inl rfl
        · simp only [bind_ok] at h
          obtain ⟨job, hjob, h⟩ := h
          cases job_ok hjob
          obtain ⟨hmoves, hevent⟩ := acknowledge_moves hop
          split at h
          · -- the upload is closed, and perhaps the job with it
            rename_i haccounted
            have hsome : op'.event.isSome = true := by
              rw [hevent]
              exact event_of_open hopen
            have hup := receipt_closed { receipt with upload := .closed (op'.close .complete) }
              hlive rfl rfl (fun h => h) (fun h => h) hmoves.later hsome haccounted
            have hclosed : Moves now (.live job)
              (.live (job.setUpload receipt (.closed (op'.close .complete)))) :=
              moves_receipt rfl hreceipt rfl hup.1 hup.2
            split at h
            · rename_i he
              cases h
              exact .inr ⟨_, _, rfl, rfl, hclosed.after (compact_moves he)⟩
            · cases h
              exact .inr ⟨_, _, rfl, rfl, hclosed⟩
          · cases h
            have hup := receipt_upload { receipt with upload := .live op' }
              hlive rfl rfl (fun h => h) (fun h => h) hmoves
            exact .inr ⟨_, _, rfl, rfl, moves_receipt rfl hreceipt rfl hup.1 hup.2⟩
  | false =>
    simp only [Bool.false_eq_true, if_false, bind_ok, demand_ok] at h
    obtain ⟨record, rfl, h⟩ := h
    cases record with
    | closed t =>
      cases h
      exact .inl rfl
    | live job =>
      dsimp only at h
      split at h
      · cases h
        exact .inl rfl
      · rename_i hopen
        simp only [bind_ok] at h
        obtain ⟨op', hop, h⟩ := h
        split at h
        · cases h
          exact .inl rfl
        · cases h
          obtain ⟨hmoves, hevent⟩ := acknowledge_moves hop
          refine .inr ⟨_, _, rfl, rfl, .after ?_ (compact_moves ?_)⟩
          · exact moves_operation hmoves rfl
          · rw [hevent]
            exact event_of_open hopen

theorem lapse_moves : Moves now (.live job) (.live (job.lapse now)) := by
  unfold BackgroundJob.lapse
  split
  · refine .after ?_ jobFreeze_moves
    exact moves_operation untracked_moves rfl
  · exact .refl _

theorem claim_moves {manual : Bool} (h : claim now manual row = .ok row') : RowMoves now row row' := by
  unfold claim at h
  split at h
  · rename_i job
    simp only [bind_ok] at h
    obtain ⟨_, -, h⟩ := h
    split at h
    · rename_i hlate
      cases h
      refine .inr ⟨_, _, rfl, rfl, .expired (.refl _) (.refl _) hlate, fun hs => ?_⟩
      cases hs with
      | live _ hupload => exact .expired rfl hupload
    · split at h
      · cases h
        refine .inr ⟨_, _, rfl, rfl, .after lapse_moves ?_⟩
        exact moves_operation untracked_moves rfl
      · cases h
        refine .inr ⟨_, _, rfl, rfl, .after lapse_moves ?_⟩
        exact moves_operation untracked_moves rfl
  · cases h
    exact .inl rfl

theorem retry_moves {error : Option LastError} {attempt : Nat}
    (h : retry now error attempt row = .ok row') : RowMoves now row row' := by
  unfold retry at h
  split at h
  · split at h
    · cases h
      exact .inl rfl
    · cases h
      exact .inr ⟨_, _, rfl, rfl, moves_operation untracked_moves rfl⟩
  · cases h
    exact .inl rfl

theorem inputReceipt_ok (h : inputReceipt (some (.live job)) binding = .ok receipt) :
    job.inputReceipt = some receipt := by
  unfold inputReceipt at h
  simp only [bind_ok, demand_ok, pure_ok] at h
  obtain ⟨record, hrecord, r, hr, _, -, rfl⟩ := h
  cases hrecord
  exact hr

theorem uploadJob_ok {op : Operation} (h : uploadJob receipt = .ok op) : receipt.upload = .live op := by
  unfold uploadJob at h
  split at h
  · cases h
    rename_i hu
    exact hu
  · cases h

theorem claimInputUpload_moves (h : claimInputUpload now binding row = .ok row') : RowMoves now row row' := by
  unfold claimInputUpload at h
  simp only [bind_ok, pure_ok] at h
  obtain ⟨job, hjob, receipt, hreceipt, _, -, op, hop, _, -, _, -, rfl⟩ := h
  obtain ⟨rfl, -, -⟩ := admitting_ok hjob
  obtain ⟨hlater, hsound⟩ := receipt_upload
    { receipt with state := .dispatchUnknown, upload := .live { op with egress := true } }
    (uploadJob_ok hop) rfl rfl (fun _ => nofun) (fun h => h) untracked_moves
  exact .inr ⟨_, _, rfl, rfl, moves_receipt rfl (inputReceipt_ok hreceipt) rfl hlater hsound⟩

theorem receipt_same_upload (receipt' : ManagedInputReceipt)
    (hupload : receipt'.upload = receipt.upload) (hbinding : receipt'.binding = receipt.binding)
    (hstate : receipt.state ≠ .pending → receipt'.state ≠ .pending)
    (hcreated : receipt.createClaimed = true → receipt'.createClaimed = true) :
    ReceiptLater receipt receipt' ∧ (ReceiptSound receipt → ReceiptSound receipt') := by
  refine ⟨⟨hbinding, hstate, hcreated, fun op hop => ?_, fun t ht => ?_, fun op t hop ht => ?_⟩, fun hs => ?_⟩
  · exact ⟨op, hupload ▸ hop, .refl op⟩
  · exact hupload.trans ht
  · rw [hupload, hop] at ht
    cases ht
  · unfold ReceiptSound
    rw [hupload]
    exact hs

theorem bindInputUpload_moves {imageId : String}
    (h : bindInputUpload now binding imageId row = .ok row') : RowMoves now row row' := by
  unfold bindInputUpload at h
  simp only [bind_ok] at h
  obtain ⟨job, hjob, receipt, hreceipt, _, -, _, -, _, -, h⟩ := h
  obtain ⟨rfl, -, -⟩ := admitting_ok hjob
  obtain ⟨hlater, hsound⟩ := @receipt_same_upload receipt
    { receipt with imageId := some imageId, state := .bound } rfl rfl (fun _ => nofun) (fun h => h)
  have hbound : Moves now (.live job) (.live (job.setUpload
      { receipt with imageId := some imageId, state := .bound } receipt.upload)) :=
    moves_receipt rfl (inputReceipt_ok hreceipt) rfl hlater hsound
  rcases freeze_row_moves h with rfl | ⟨record, record', e, rfl, hmoves⟩
  · exact .inr ⟨_, _, rfl, rfl, hbound⟩
  · cases e
    exact .inr ⟨_, _, rfl, rfl, hbound.after hmoves⟩

theorem claimInputCreate_moves (h : claimInputCreate now binding row = .ok row') : RowMoves now row row' := by
  unfold claimInputCreate at h
  simp only [bind_ok] at h
  obtain ⟨job, hjob, receipt, hreceipt, _, -, _, -, h⟩ := h
  obtain ⟨rfl, -, -⟩ := admitting_ok hjob
  obtain ⟨hlater, hsound⟩ := @receipt_same_upload receipt
    { receipt with createClaimed := true } rfl rfl (fun h => h) (fun _ => rfl)
  have hclaimed : Moves now (.live job) (.live { job with
      inputReceipt := some { receipt with createClaimed := true } }) :=
    moves_receipt rfl (inputReceipt_ok hreceipt) rfl hlater hsound
  rcases beginDispatch_moves h with rfl | ⟨record, record', e, rfl, hmoves⟩
  · exact .inr ⟨_, _, rfl, rfl, hclaimed⟩
  · cases e
    exact .inr ⟨_, _, rfl, rfl, hclaimed.after hmoves⟩

/-- **Every mutation of a row** leaves a later row. -/
theorem run_moves {op : RowOp} (h : op.run now row = .ok row') : RowMoves now row row' := by
  cases op with
  | beginReserve index uploading => exact onOperation_moves (fun _ _ => beginReserve_moves) h
  | reserved index allowed uploading => exact onOperation_moves (fun _ _ => reserved_moves) h
  | dispatched index uploading => exact onOperation_moves (fun _ _ => dispatched_moves) h
  | beginEgress => exact beginEgress_moves h
  | beginDispatch contentRef input => exact beginDispatch_moves h
  | identity responseId => exact identity_moves h
  | observeManaged upstreamId status statusCode attempt loss => exact observeManaged_moves h
  | bindManagedFiles upstreamId files => exact bindManagedFiles_moves h
  | freeze outcome uploading => exact freeze_row_moves h
  | acknowledge eventId ack uploading => exact acknowledge_row_moves h
  | claim => exact claim_moves h
  | retry error attempt => exact retry_moves h
  | claimInputUpload binding => exact claimInputUpload_moves h
  | bindInputUpload binding imageId => exact bindInputUpload_moves h
  | claimInputCreate binding => exact claimInputCreate_moves h

end Rows

end ClawRouter.Background
