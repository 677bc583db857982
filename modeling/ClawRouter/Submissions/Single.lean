/-
  Subject:   A submission ticket stores one submission, if its claims are finished tidily.

  Requests with one body share a claim. One of them may give the claim back, because as far as it
  knows nothing was stored, while another still writes under it, or after its own write was stored
  and only the answer was lost. Then another body can claim the ticket and be stored as well.

  * **`consume_once`**: one submission, one receipt, and a used ticket changes nothing.
-/
import ClawRouter.Submissions.Consume

namespace ClawRouter.Submissions

open Fallible Grants Js

/-! ## 1. One submission -/

section Single

variable (platform : Platform)

def digestOf (body : Json) : String := platform.sha256 (canonical platform body)

/-- A claim has the ticket, where there still is one. -/
def Holds (ticket : Option Ticket) (claimId : String) : Prop :=
  ∀ t, ticket = some t → t.state = .claimed ∧ t.claimId = some claimId

/-- Somebody besides request `i` may still write under a claim. -/
def Open (s : State) (i : Nat) (claimId : String) : Prop :=
  (∃ j r key grant, j ≠ i ∧ s.running j = some r ∧ r.phase = .storing claimId key grant) ∨
    ∃ w ∈ s.late, w.claimId = claimId

/-- **No claim is finished while somebody else may still write under it**, and none is given back
under which a submission was stored. Only a call that arrives and finds its claim finishes it. -/
def Tidy (s : State) : Label → Prop
  | .complete i fate => ∀ r claimId receipt,
      s.running i = some r → r.phase = .completing claimId receipt → fate.arrives = true →
      holdsClaim (s.row r.ticketId) claimId = true → ¬Open s i claimId
  | .release i fate => ∀ r claimId error,
      s.running i = some r → r.phase = .releasing claimId error → fate.arrives = true →
      holdsClaim (s.row r.ticketId) claimId = true →
      ¬Open s i claimId ∧ ∀ input, (claimId, input) ∉ s.written
  | _ => True

def TidyStep (s : State) (a : Label) (s' : State) : Prop := Step platform s a s' ∧ Tidy s a

/-- What a request may wait for, where all submissions so far have digest `d`. -/
def PhaseOk (d : String) (ticket : Option Ticket) (written : List (String × Json)) (input : Json) :
    Phase → Prop
  | .claiming claim => claim.submissionSha256 = digestOf platform input
  | .storing claimId _ _ => digestOf platform input = d ∧ Holds ticket claimId
  | .completing claimId _ => digestOf platform input = d ∧ ∃ body, (claimId, body) ∈ written
  | _ => True

/-- **The invariant of the tidy runs**: one digest is claimed, stored and told. It may still change
while the ticket is ready, for then nothing is stored, written or told. -/
structure Single (d : String) (s : State) : Prop where
  claimed : ∀ t, s.ticket = some t → t.state ≠ .ready → t.submissionSha256 = some d
  used : ∀ t, s.ticket = some t → t.state = .consumed → s.written ≠ [] ∧ t.receipt.isSome
  running : ∀ i r, s.running i = some r → PhaseOk platform d s.ticket s.written r.input r.phase
  late : ∀ w ∈ s.late, digestOf platform w.input = d ∧ Holds s.ticket w.claimId
  written : ∀ p ∈ s.written, digestOf platform p.2 = d ∧
    ∀ t, s.ticket = some t → t.state ≠ .ready ∧ (t.state = .claimed → t.claimId = some p.1)
  grant : ∀ g, s.grant = some g → digestOf platform g.input = d
  stored : s.grant = none ↔ s.written = []
  told : ∀ p ∈ s.receipts, digestOf platform p.2 = d ∧ s.written ≠ [] ∧
    ∀ t, s.ticket = some t → t.state = .consumed ∧ t.receipt = some p.1
  same : ∀ p ∈ s.receipts, ∀ q ∈ s.receipts, p.1 = q.1

end Single

variable {phase : Phase} {receipt : Receipt}

variable {t : Ticket} {i : Nat} {r : Running} {input : Json} {claimId id : String}

section Steps

variable {platform : Platform} {d : String} {s : State}

theorem single_start {ticket : Ticket} (hf : ticket.fresh) (now : Int) :
    Single platform d (start ticket now) where
  claimed t ht hn := by
    cases ht
    exact absurd hf.1 hn
  used t ht hc := by
    cases ht
    rw [hf.1] at hc
    cases hc
  running i r h := by cases h
  late w h := by cases h
  written p h := by cases h
  grant g h := by cases h
  stored := ⟨fun _ => rfl, fun _ => rfl⟩
  told p h := by cases h
  same p h := by cases h

theorem Single.goOn (h : Single platform d s)
    (hp : PhaseOk platform d s.ticket s.written r.input phase) : Single platform d (s.goOn i r phase) where
  claimed := h.claimed
  used := h.used
  running j r' hj := by
    change Function.update s.running i (some { r with phase }) j = some r' at hj
    by_cases e : j = i
    · subst e
      rw [Function.update_self] at hj
      cases hj
      exact hp
    · rw [Function.update_of_ne e] at hj
      exact h.running j r' hj
  late := h.late
  written := h.written
  grant := h.grant
  stored := h.stored
  told := h.told
  same := h.same

theorem Single.arrived (h : Single platform d s) (hp : PhaseOk platform d s.ticket s.written r.input r.phase) :
    Single platform d { s with running := Function.update s.running i (some r) } :=
  h.goOn (i := i) (r := r) hp

theorem Single.tell (h : Single platform d s) (hp : ∀ p, phase.receipt = some p → digestOf platform input = d ∧
      ∃ t, s.ticket = some t ∧ t.state = .consumed ∧ t.receipt = some p) : Single platform d
        (s.told input phase) := by
  have known : ∀ q ∈ (s.told input phase).receipts, digestOf platform q.2 = d ∧ s.written ≠ [] ∧
      ∀ t, s.ticket = some t → t.state = .consumed ∧ t.receipt = some q.1 := by
    intro q hq
    rcases List.mem_append.mp hq with hq | hq
    · obtain ⟨p, hmem, rfl⟩ := List.mem_map.mp hq
      obtain ⟨hd, t, ht, hc, hr⟩ := hp p (Option.mem_toList.mp hmem)
      refine ⟨hd, (h.used t ht hc).1, fun t' ht' => ?_⟩
      rw [ht] at ht'
      cases ht'
      exact ⟨hc, hr⟩
    · exact h.told q hq
  refine ⟨h.claimed, h.used, h.running, h.late, h.written, h.grant, h.stored, known, ?_⟩
  intro p hmp q hmq
  cases hphase : phase.receipt with
  | none =>
    have e : (s.told input phase).receipts = s.receipts := by
      unfold State.told
      rw [hphase]
      rfl
    rw [e] at hmp hmq
    exact h.same p hmp q hmq
  | some p' =>
    obtain ⟨_, t, ht, _, _⟩ := hp p' hphase
    have hp1 := ((known p hmp).2.2 t ht).2
    have hq1 := ((known q hmq).2.2 t ht).2
    exact Option.some.inj (hp1.symm.trans hq1)

theorem Single.store (grant : Submission)
    (h : Single platform d s) (hd : digestOf platform input = d) (hc : Holds s.ticket claimId) :
    Single platform d (s.store claimId input grant) where
  claimed := h.claimed
  used t ht hu := ⟨List.cons_ne_nil _ _, (h.used t ht hu).2⟩
  running j r hj := by
    have ok := h.running j r hj
    cases hphase : r.phase with
    | completing c receipt =>
      rw [hphase] at ok
      obtain ⟨ok, body, hb⟩ := ok
      exact ⟨ok, body, List.mem_cons_of_mem _ hb⟩
    | claiming claim | storing c key g =>
      rw [hphase] at ok
      exact ok
    | releasing c e | ended r => trivial
  late := h.late
  written p hp := by
    rcases List.mem_cons.mp hp with rfl | hp
    · refine ⟨hd, fun t ht => ?_⟩
      obtain ⟨hs, hid⟩ := hc t ht
      refine ⟨?_, fun _ => hid⟩
      rw [hs]
      intro e
      cases e
    · exact h.written p hp
  grant g hg := by
    cases hg
    exact hd
  stored := by
    constructor
    · intro e
      cases e
    · intro e
      cases e
  told p hp := ⟨(h.told p hp).1, List.cons_ne_nil _ _, (h.told p hp).2.2⟩
  same := h.same

/-- What a claim leaves behind, for the request that made it. -/
structure Outcome (platform : Platform) (d : String) (s : State) (input : Json) (phase : Phase) : Prop where
  single : Single platform d s
  waits : PhaseOk platform d s.ticket s.written input phase
  told : ∀ p, phase.receipt = some p → digestOf platform input = d ∧
    ∃ t, s.ticket = some t ∧ t.state = .consumed ∧ t.receipt = some p

theorem Outcome.step (h : Outcome platform d s r.input phase) :
    Single platform d ((s.goOn i r phase).told r.input phase) :=
  (h.single.goOn h.waits).tell h.told

section

variable (h : Single platform d s)
include h

theorem Single.failed (e : HttpError) : Outcome platform d s input (.ended (.failed e)) :=
  ⟨h, trivial, fun _ hr => by cases hr⟩

theorem Single.ready (ht : s.ticket = some t) (hready : t.state = .ready) :
    s.written = [] ∧ s.late = [] ∧ s.receipts = [] ∧
      ∀ i r claimId key grant, s.running i = some r → r.phase ≠ .storing claimId key grant := by
  have absent : ¬ t.state = .claimed := by
    rw [hready]
    intro e
    cases e
  refine ⟨?_, ?_, ?_, ?_⟩
  · refine List.eq_nil_iff_forall_not_mem.mpr fun p hp => ?_
    exact ((h.written p hp).2 t ht).1 hready
  · refine List.eq_nil_iff_forall_not_mem.mpr fun w hw => ?_
    exact absent ((h.late w hw).2 t ht).1
  · refine List.eq_nil_iff_forall_not_mem.mpr fun p hp => ?_
    have hc := ((h.told p hp).2.2 t ht).1
    rw [hready] at hc
    cases hc
  · intro i r claimId key grant hi hphase
    have ok := h.running i r hi
    rw [hphase] at ok
    exact absent (ok.2 t ht).1

theorem Single.taken {digest : String} {now : Int} (ht : s.ticket = some t) (hready : t.state = .ready) :
    Single platform digest { s with ticket := some (t.claimedBy digest claimId now) } := by
  obtain ⟨hw, hl, hr, hrun⟩ := h.ready ht hready
  refine ⟨?_, ?_, ?_, ?_, ?_, ?_, h.stored, ?_, h.same⟩
  · intro t' e _
    cases e
    rfl
  · intro t' e hc
    cases e
    cases hc
  · intro i r hi
    have ok := h.running i r hi
    cases hphase : r.phase with
    | claiming claim =>
      rw [hphase] at ok
      exact ok
    | storing c key grant => exact absurd hphase (hrun i r c key grant hi)
    | completing c receipt =>
      rw [hphase] at ok
      obtain ⟨_, body, hb⟩ := ok
      rw [hw] at hb
      cases hb
    | releasing c e | ended r => trivial
  · intro w hmem
    rw [hl] at hmem
    cases hmem
  · intro p hmem
    rw [hw] at hmem
    cases hmem
  · intro g hg
    rw [h.stored.mpr hw] at hg
    cases hg
  · intro p hmem
    rw [hr] at hmem
    cases hmem

theorem Single.claim {claim : ClaimRequest} (hc : claim.submissionSha256 = digestOf platform r.input) :
    ∃ d', Outcome platform d' { s with ticket := (Submissions.claimed s claim claimId).1 } r.input
      (afterClaim platform r.input s.now (Submissions.claimed s claim claimId).2) := by
  have stay : { s with ticket := s.ticket } = s := rfl
  generalize he : Submissions.claimed s claim claimId = effect
  have heffect := claimed_effect s claim claimId
  rw [he] at heffect
  obtain ⟨ticket, answer⟩ := effect
  dsimp only at heffect ⊢
  cases heffect with
  | refused h1 h2 =>
    refine ⟨d, ?_⟩
    cases answer with
    | error e => exact h.failed e
    | ok result =>
      cases result with
      | denied | expired => exact h.failed _
      | claimed view held => exact absurd rfl (h1 view held)
      | alreadyConsumed view receipt => exact absurd rfl (h2 view receipt)
  | taken ht hready =>
    refine ⟨claim.submissionSha256, h.taken ht hready, ?_, ?_⟩
    · unfold afterClaim
      dsimp only
      split
      · refine ⟨hc.symm, fun t' e => ?_⟩
        cases e
        exact ⟨rfl, rfl⟩
      · trivial
    · intro p hp
      unfold afterClaim at hp
      dsimp only at hp
      split at hp
      · cases hp
      · cases hp
  | shared ht hstate hheld hdigest =>
    have hd : claim.submissionSha256 = d := by
      have hne := h.claimed _ ht (by rw [hstate]; intro e; cases e)
      exact Option.some.inj (hdigest.symm.trans hne)
    refine ⟨d, h, ?_, ?_⟩
    · unfold afterClaim
      dsimp only
      split
      · refine ⟨hc.symm.trans hd, fun t' e => ?_⟩
        rw [ht] at e
        cases e
        exact ⟨hstate, hheld⟩
      · trivial
    · intro p hp
      unfold afterClaim at hp
      dsimp only at hp
      split at hp
      · cases hp
      · cases hp
  | known ht hstate hdigest =>
    have hd : claim.submissionSha256 = d := by
      have hne := h.claimed _ ht (by rw [hstate]; intro e; cases e)
      exact Option.some.inj (hdigest.symm.trans hne)
    refine ⟨d, h, trivial, ?_⟩
    intro p hp
    exact ⟨hc.symm.trans hd, _, ht, hstate, hp⟩

theorem Single.closed (hi : s.running i = some r)
    (hphase : ∀ c key grant, r.phase ≠ .storing c key grant) (ht : s.ticket = some t)
    (hid : t.claimId = some claimId) (hopen : ¬Open s i claimId) :
    s.late = [] ∧ ∀ j r c key grant, s.running j = some r → r.phase ≠ .storing c key grant := by
  constructor
  · refine List.eq_nil_iff_forall_not_mem.mpr fun w hw => hopen (.inr ⟨w, hw, ?_⟩)
    exact Option.some.inj ((((h.late w hw).2 t ht).2).symm.trans hid)
  · intro j r' c key grant hj hp
    by_cases e : j = i
    · subst e
      have same : some r' = some r := hj.symm.trans hi
      cases same
      exact hphase c key grant hp
    · have ok := h.running j r' hj
      rw [hp] at ok
      have e' := Option.some.inj (((ok.2 t ht).2).symm.trans hid)
      rw [e'] at hp
      exact hopen (.inl ⟨j, r', key, grant, e, hj, hp⟩)

theorem Single.indifferent {ticket : Option Ticket}
    (hno : ∀ j r c key grant, s.running j = some r → r.phase ≠ .storing c key grant) (j : Nat)
    (r : Running) (hj : s.running j = some r) : PhaseOk platform d ticket s.written r.input r.phase := by
  have ok := h.running j r hj
  cases hp : r.phase with
  | claiming claim | completing c receipt =>
    rw [hp] at ok
    exact ok
  | storing c key grant => exact absurd hp (hno j r c key grant hj)
  | releasing c e | ended response => trivial

theorem Single.untold (ht : s.ticket = some t) (hstate : t.state = .claimed) : s.receipts = [] := by
  refine List.eq_nil_iff_forall_not_mem.mpr fun p hp => ?_
  have hc := ((h.told p hp).2.2 t ht).1
  rw [hstate] at hc
  cases hc

theorem Single.consumed (hi : s.running i = some r) (hphase : r.phase = .completing claimId receipt)
    (ht : s.ticket = some t) (hstate : t.state = .claimed) (hid : t.claimId = some claimId)
    (hopen : ¬Open s i claimId) : Single platform d { s with ticket := some (t.consumedWith receipt) } := by
  obtain ⟨hl, hrun⟩ := h.closed hi (fun c key grant e => by rw [hphase] at e; cases e) ht hid hopen
  have hok := h.running i r hi
  rw [hphase] at hok
  obtain ⟨_, body, hbody⟩ := hok
  refine ⟨?_, ?_, h.indifferent hrun, ?_, ?_, h.grant, h.stored, ?_, h.same⟩
  · intro t' e _
    cases e
    refine h.claimed t ht ?_
    rw [hstate]
    intro e
    cases e
  · intro t' e _
    cases e
    exact ⟨List.ne_nil_of_mem hbody, rfl⟩
  · intro w hw
    rw [hl] at hw
    cases hw
  · intro p hp
    refine ⟨(h.written p hp).1, fun t' e => ?_⟩
    cases e
    refine ⟨?_, ?_⟩
    · intro e
      cases e
    · intro e
      cases e
  · intro p hp
    rw [h.untold ht hstate] at hp
    cases hp

theorem Single.given {error : HttpError} (hi : s.running i = some r)
    (hphase : r.phase = .releasing claimId error)
    (ht : s.ticket = some t) (hstate : t.state = .claimed) (hid : t.claimId = some claimId)
    (hopen : ¬Open s i claimId) (hnew : ∀ input, (claimId, input) ∉ s.written) :
    Single platform d { s with ticket := some t.readyAgain } := by
  obtain ⟨hl, hrun⟩ := h.closed hi (fun c key grant e => by rw [hphase] at e; cases e) ht hid hopen
  have hw : s.written = [] := by
    refine List.eq_nil_iff_forall_not_mem.mpr fun p hp => ?_
    have e := Option.some.inj ((((h.written p hp).2 t ht).2 hstate).symm.trans hid)
    rw [← e] at hnew
    exact hnew p.2 hp
  refine ⟨?_, ?_, h.indifferent hrun, ?_, ?_, h.grant, h.stored, ?_, h.same⟩
  · intro t' e hn
    cases e
    exact absurd rfl hn
  · intro t' e hc
    cases e
    cases hc
  · intro w hmem
    rw [hl] at hmem
    cases hmem
  · intro p hmem
    rw [hw] at hmem
    cases hmem
  · intro p hp
    rw [h.untold ht hstate] at hp
    cases hp

end

theorem begin_digest {request : Request} {claim : ClaimRequest} (h : begin platform request = .ok claim) :
    claim.submissionSha256 = digestOf platform (inputOf request) := by
  obtain ⟨_, _, h⟩ := bind_ok.mp h
  obtain ⟨_, _, h⟩ := bind_ok.mp h
  obtain ⟨_, _, h⟩ := bind_ok.mp h
  obtain ⟨_, _, h⟩ := bind_ok.mp h
  obtain ⟨_, _, h⟩ := bind_ok.mp h
  obtain ⟨input, hbody, h⟩ := bind_ok.mp h
  cases h
  unfold inputOf
  rw [hbody]
  rfl

theorem firstPhase_ok (request : Request) :
    PhaseOk platform d s.ticket s.written (inputOf request) (firstPhase platform request) := by
  unfold firstPhase
  cases h : begin platform request with
  | ok claim => exact begin_digest h
  | error e => trivial

theorem afterStore_ok {key : String} {now : Int} {answer : Answer (Option Int)}
    (h : ∀ time, answer = .ok time → digestOf platform input = d ∧ ∃ body, (claimId, body) ∈ s.written) :
    PhaseOk platform d s.ticket s.written input (afterStore claimId key now answer) := by
  cases answer with
  | ok time => exact h time rfl
  | error e => trivial

theorem Single.complete
    (h : Single platform d s) (hi : s.running i = some r) (hphase : r.phase = .completing claimId receipt)
    (htidy : holdsClaim (s.row r.ticketId) claimId = true → ¬Open s i claimId) :
    Outcome platform d { s with ticket := (completed s r.ticketId claimId receipt).1 } r.input
      (afterComplete receipt (completed s r.ticketId claimId receipt).2) := by
  have hok := h.running i r hi
  rw [hphase] at hok
  have heffect := completed_effect s r.ticketId claimId receipt
  generalize completed s r.ticketId claimId receipt = effect at heffect ⊢
  obtain ⟨ticket, answer⟩ := effect
  cases heffect with
  | refused h1 =>
    cases answer with
    | error e => exact h.failed e
    | ok result =>
      cases result with
      | denied | expired | claimed view held => exact h.failed _
      | alreadyConsumed view receipt => exact absurd rfl (h1 view receipt)
  | done hheld ht hstate hid =>
    refine ⟨h.consumed hi hphase ht hstate hid (htidy hheld), trivial, ?_⟩
    intro p hp
    cases hp
    exact ⟨hok.1, _, rfl, rfl, rfl⟩

theorem Single.release {error : HttpError}
    (h : Single platform d s) (hi : s.running i = some r) (hphase : r.phase = .releasing claimId error)
    (htidy : holdsClaim (s.row r.ticketId) claimId = true → ¬Open s i claimId ∧
      ∀ input, (claimId, input) ∉ s.written) :
    Single platform d { s with ticket := released s r.ticketId claimId } := by
  rcases released_cases s r.ticketId claimId with e | ⟨t, ht, hstate, hid, hheld, e⟩
  · rw [e]
    exact h
  · rw [e]
    obtain ⟨hopen, hnew⟩ := htidy hheld
    exact h.given hi hphase ht hstate hid hopen hnew

theorem single_step {a : Label} {s' : State} (h : Single platform d s) (hstep : TidyStep platform s a s') :
    ∃ d', Single platform d' s' := by
  obtain ⟨hstep, htidy⟩ := hstep
  cases hstep with
  | arrive hi => exact ⟨d, h.arrived (firstPhase_ok _)⟩
  | @claim i r claim claimId fate hi hphase =>
    have hc := h.running i r hi
    rw [hphase] at hc
    cases fate with
    | answered =>
      obtain ⟨d', hd'⟩ := @Single.claim r claimId platform d s h claim hc
      exact ⟨d', hd'.step⟩
    | answerLost =>
      obtain ⟨d', hd'⟩ := @Single.claim r claimId platform d s h claim hc
      exact ⟨d', (hd'.single.failed lost).step⟩
    | callLost => exact ⟨d, (h.failed lost).step⟩
  | @stored i r claimId key grant answered hi hphase =>
    have hok := h.running i r hi
    rw [hphase] at hok
    refine ⟨d, (h.store grant hok.1 hok.2).goOn (afterStore_ok fun _ _ => ?_)⟩
    exact ⟨hok.1, r.input, List.mem_cons_self⟩
  | refused hi hphase | lost hi hphase => exact ⟨d, h.goOn (afterStore_ok fun _ e => by cases e)⟩
  | @late i r claimId key grant hi hphase =>
    have hok := h.running i r hi
    rw [hphase] at hok
    have hl : Single platform d { s with late := ⟨claimId, r.input, grant⟩ :: s.late } :=
      ⟨h.claimed, h.used, h.running, fun w hw => by
        rcases List.mem_cons.mp hw with rfl | hw
        · exact hok
        · exact h.late w hw, h.written, h.grant, h.stored, h.told, h.same⟩
    exact ⟨d, hl.goOn (afterStore_ok fun _ e => by cases e)⟩
  | @land l₁ l₂ w e =>
    have hok := h.late w (by rw [e]; exact List.mem_append_right _ List.mem_cons_self)
    have hl : Single platform d { s with late := l₁ ++ l₂ } := ⟨h.claimed, h.used, h.running, fun w' hw => by
        refine h.late w' ?_
        rw [e]
        rcases List.mem_append.mp hw with hw | hw
        · exact List.mem_append_left _ hw
        · exact List.mem_append_right _ (List.mem_cons_of_mem _ hw),
        h.written, h.grant, h.stored, h.told, h.same⟩
    exact ⟨d, hl.store w.grant hok.1 hok.2⟩
  | @complete i r claimId receipt fate hi hphase =>
    have htidy := htidy r claimId receipt hi hphase
    cases fate with
    | answered => exact ⟨d, (h.complete hi hphase (htidy rfl)).step⟩
    | answerLost => exact ⟨d, ((h.complete hi hphase (htidy rfl)).single.failed lost).step⟩
    | callLost => exact ⟨d, (h.failed lost).step⟩
  | @release i r claimId error fate hi hphase =>
    have htidy := htidy r claimId error hi hphase
    cases fate with
    | answered | answerLost => exact ⟨d, (h.release hi hphase (htidy rfl)).goOn trivial⟩
    | callLost => exact ⟨d, h.goOn trivial⟩
  | tick hle => exact ⟨d, h.claimed, h.used, h.running, h.late, h.written, h.grant, h.stored, h.told, h.same⟩
  | @purge t ht hlt =>
    refine ⟨d, ⟨?_, ?_, ?_, ?_, ?_, h.grant, h.stored, ?_, h.same⟩⟩
    · intro t e
      cases e
    · intro t e
      cases e
    · intro i r hi
      have ok := h.running i r hi
      cases hp : r.phase with
      | claiming claim | completing c receipt =>
        rw [hp] at ok
        exact ok
      | storing c key grant =>
        rw [hp] at ok
        exact ⟨ok.1, fun t e => by cases e⟩
      | releasing c e | ended response => trivial
    · exact fun w hw => ⟨(h.late w hw).1, fun t e => by cases e⟩
    · exact fun p hp => ⟨(h.written p hp).1, fun t e => by cases e⟩
    · exact fun p hp => ⟨(h.told p hp).1, (h.told p hp).2.1, fun t e => by cases e⟩

end Steps

/-! ## 2. A used ticket -/

section Used

variable {platform : Platform} {s : State}

/-- The ticket is used or deleted, and nobody may write. -/
def Closed (s : State) : Prop :=
  s.late = [] ∧ (∀ i r claimId key grant, s.running i = some r → r.phase ≠ .storing claimId key grant) ∧
    ∀ t, s.ticket = some t → t.state = .consumed

theorem Single.closed_of_consumed {d : String} (h : Single platform d s)
    (ht : s.ticket = some t) (hc : t.state = .consumed) : Closed s := by
  have absent : ¬ t.state = .claimed := by
    rw [hc]
    intro e
    cases e
  refine ⟨?_, ?_, ?_⟩
  · exact List.eq_nil_iff_forall_not_mem.mpr fun w hw => absent ((h.late w hw).2 t ht).1
  · intro i r claimId key grant hi hphase
    have ok := h.running i r hi
    rw [hphase] at ok
    exact absent (ok.2 t ht).1
  · intro t' ht'
    rw [ht] at ht'
    cases ht'
    exact hc

theorem Closed.goOn (h : Closed s)
    (hp : ∀ claimId key grant, phase ≠ .storing claimId key grant) : Closed (s.goOn i r phase) := by
  refine ⟨h.1, ?_, h.2.2⟩
  intro j r' claimId key grant hj
  change Function.update s.running i (some { r with phase }) j = some r' at hj
  by_cases e : j = i
  · subst e
    rw [Function.update_self] at hj
    cases hj
    exact hp claimId key grant
  · rw [Function.update_of_ne e] at hj
    exact h.2.1 j r' claimId key grant hj

theorem Closed.told (h : Closed s) : Closed (s.told input phase) := h

theorem Closed.claim {claim : ClaimRequest} (h : Closed s) :
    (claimed s claim claimId).1 = s.ticket ∧ ∀ c key grant,
      afterClaim platform input s.now (claimed s claim claimId).2 ≠ .storing c key grant := by
  have heffect := claimed_effect s claim claimId
  generalize claimed s claim claimId = effect at heffect ⊢
  obtain ⟨ticket, answer⟩ := effect
  cases heffect with
  | refused h1 h2 =>
    refine ⟨rfl, fun c key grant e => ?_⟩
    cases answer with
    | error e' => cases e
    | ok result =>
      cases result with
      | denied | expired => cases e
      | claimed view held => exact h1 view held rfl
      | alreadyConsumed view receipt => cases e
  | taken ht hready =>
    rw [h.2.2 _ ht] at hready
    cases hready
  | shared ht hstate hheld hdigest =>
    rw [h.2.2 _ ht] at hstate
    cases hstate
  | known ht hstate hdigest => exact ⟨rfl, fun c key grant e => by cases e⟩

theorem Closed.complete {ticketId : String} (h : Closed s) :
    (completed s ticketId claimId receipt).1 = s.ticket := by
  have heffect := completed_effect s ticketId claimId receipt
  generalize completed s ticketId claimId receipt = effect at heffect ⊢
  obtain ⟨ticket, answer⟩ := effect
  cases heffect with
  | refused h1 => rfl
  | done hheld ht hstate hid =>
    rw [h.2.2 _ ht] at hstate
    cases hstate

theorem Closed.release {ticketId : String} (h : Closed s) : released s ticketId claimId = s.ticket := by
  rcases released_cases s ticketId claimId with e | ⟨t, ht, hstate, _⟩
  · exact e
  · rw [h.2.2 _ ht] at hstate
    cases hstate

theorem Closed.ticket {ticket : Option Ticket} (h : Closed s) (e : ticket = s.ticket) :
    Closed { s with ticket := ticket } := by
  rw [e]
  exact h

theorem afterComplete_ends (receipt : Receipt) (answer : Answer ClaimResult) (c key : String)
    (grant : Submission) : afterComplete receipt answer ≠ .storing c key grant := by
  unfold afterComplete
  split <;> (intro e; cases e)

theorem closed_step {a : Label} {s' : State} (h : Closed s) (hstep : Step platform s a s') :
    Closed s' ∧ s'.grant = s.grant := by
  cases hstep with
  | @arrive i request hi =>
    refine ⟨Closed.goOn (r := ⟨ticketIdOf request, inputOf request, firstPhase platform request⟩) h
      fun c key grant e => ?_, rfl⟩
    unfold firstPhase at e
    split at e
    · cases e
    · cases e
  | @claim i r claim claimId fate hi hphase =>
    refine ⟨Closed.told (Closed.goOn (h.ticket ?_) ?_), rfl⟩
    · cases fate with
      | answered | answerLost => exact (@Closed.claim r.input claimId platform s claim h).1
      | callLost => rfl
    · cases fate with
      | answered => exact h.claim.2
      | answerLost | callLost => exact fun c key grant e => by cases e
  | stored hi hphase | refused hi hphase | late hi hphase | lost hi hphase =>
    exact absurd hphase (h.2.1 _ _ _ _ _ hi)
  | @land l₁ l₂ w e =>
    have hn := h.1
    rw [e] at hn
    exact absurd hn (List.append_ne_nil_of_right_ne_nil _ (List.cons_ne_nil _ _))
  | @complete i r claimId receipt fate hi hphase =>
    refine ⟨Closed.told (Closed.goOn (h.ticket ?_) (afterComplete_ends _ _)), rfl⟩
    cases fate with
    | answered | answerLost => exact h.complete
    | callLost => rfl
  | @release i r claimId error fate hi hphase =>
    refine ⟨Closed.goOn (h.ticket ?_) fun c key grant e => (by cases e), rfl⟩
    cases fate with
    | answered | answerLost => exact h.release
    | callLost => rfl
  | tick hle => exact ⟨h, rfl⟩
  | purge ht hlt => exact ⟨⟨h.1, h.2.1, fun t e => (by cases e)⟩, rfl⟩

theorem closed_run {tr : List Label} {s' : State} (h : Closed s) (hrun : Trace.Run (Step platform) s tr s') :
    s'.grant = s.grant := by
  have hinv : Closed s' ∧ s'.grant = s.grant :=
    hrun.invariant (I := fun t => Closed t ∧ t.grant = s.grant) ⟨h, rfl⟩ fun _ _ _ hi hs =>
      ⟨(closed_step hi.1 hs).1, (closed_step hi.1 hs).2.trans hi.2⟩
  exact hinv.2

end Used

/-! ## 3. Where bodies come from -/

section Origin

variable (platform : Platform)

def inputs (tr : List Label) : Set Json :=
  { input | ∃ i request, Label.arrive i request ∈ tr ∧ inputOf request = input }

/-- A grant was made of a body, for some ticket and at some time. -/
def MadeOf (input : Json) (grant : Submission) : Prop :=
  ∃ now ticket, normalizeSubmission platform.dates now ticket input = .ok grant

/-- Every body in the state arrived, and every grant was made of its body. -/
structure Known (tr : List Label) (s : State) : Prop where
  running : ∀ i r, s.running i = some r → r.input ∈ inputs tr ∧
    ∀ claimId key grant, r.phase = .storing claimId key grant → MadeOf platform r.input grant
  late : ∀ w ∈ s.late, w.input ∈ inputs tr ∧ MadeOf platform w.input w.grant
  written : ∀ p ∈ s.written, p.2 ∈ inputs tr
  grant : ∀ g, s.grant = some g → g.input ∈ inputs tr ∧ MadeOf platform g.input g.grant
  told : ∀ p ∈ s.receipts, p.2 ∈ inputs tr

end Origin

section Origins

variable {platform : Platform} {tr : List Label} {s : State}

theorem inputs_mono {a : Label} (h : input ∈ inputs tr) : input ∈ inputs (tr ++ [a]) := by
  obtain ⟨i, request, hmem, e⟩ := h
  exact ⟨i, request, List.mem_append_left _ hmem, e⟩

section

variable (h : Known platform tr s)
include h

theorem Known.mono (a : Label) : Known platform (tr ++ [a]) s where
  running i r hi := ⟨inputs_mono (h.running i r hi).1, (h.running i r hi).2⟩
  late w hw := ⟨inputs_mono (h.late w hw).1, (h.late w hw).2⟩
  written p hp := inputs_mono (h.written p hp)
  grant g hg := ⟨inputs_mono (h.grant g hg).1, (h.grant g hg).2⟩
  told p hp := inputs_mono (h.told p hp)

theorem Known.goOn (hr : r.input ∈ inputs tr)
    (hp : ∀ claimId key grant, phase = .storing claimId key grant → MadeOf platform r.input grant) :
    Known platform tr (s.goOn i r phase) := by
  refine ⟨?_, h.late, h.written, h.grant, h.told⟩
  intro j r' hj
  change Function.update s.running i (some { r with phase }) j = some r' at hj
  by_cases e : j = i
  · subst e
    rw [Function.update_self] at hj
    cases hj
    exact ⟨hr, hp⟩
  · rw [Function.update_of_ne e] at hj
    exact h.running j r' hj

theorem Known.tell (hin : input ∈ inputs tr) : Known platform tr (s.told input phase) := by
  refine ⟨h.running, h.late, h.written, h.grant, ?_⟩
  intro p hp
  rcases List.mem_append.mp hp with hp | hp
  · obtain ⟨receipt, _, rfl⟩ := List.mem_map.mp hp
    exact hin
  · exact h.told p hp

theorem Known.store {grant : Submission}
    (hin : input ∈ inputs tr) (hm : MadeOf platform input grant) :
    Known platform tr (s.store claimId input grant) := by
  refine ⟨h.running, h.late, ?_, ?_, h.told⟩
  · intro p hp
    rcases List.mem_cons.mp hp with rfl | hp
    · exact hin
    · exact h.written p hp
  · intro g hg
    cases hg
    exact ⟨hin, hm⟩

theorem Known.ticket (ticket : Option Ticket) : Known platform tr { s with ticket := ticket } :=
  ⟨h.running, h.late, h.written, h.grant, h.told⟩

end

theorem afterClaim_made {now : Int} {answer : Answer ClaimResult} {key : String}
    {grant : Submission} (h : afterClaim platform input now answer = .storing claimId key grant) :
    MadeOf platform input grant := by
  unfold afterClaim at h
  split at h
  · cases h
  · cases h
  · cases h
  · cases h
  · rename_i ticket _
    split at h
    · rename_i grant' hgrant
      cases h
      exact ⟨now, ticket, hgrant⟩
    · cases h

theorem afterStore_waits (claimId key : String) (now : Int) (answer : Answer (Option Int))
    (c k : String) (grant : Submission) : afterStore claimId key now answer ≠ .storing c k grant := by
  unfold afterStore
  split <;> (intro e; cases e)

theorem known_step {a : Label} {s' : State} (h : Known platform tr s) (hstep : Step platform s a s') :
    Known platform (tr ++ [a]) s' := by
  have hm := h.mono a
  cases hstep with
  | @arrive i request hi =>
    refine Known.goOn (r := ⟨ticketIdOf request, inputOf request, firstPhase platform request⟩) hm
      ⟨i, request, List.mem_append_right _ List.mem_cons_self, rfl⟩ fun c key grant e => ?_
    unfold firstPhase at e
    split at e
    · cases e
    · cases e
  | claim hi hphase =>
    have hr := (hm.running _ _ hi).1
    exact ((hm.ticket _).goOn hr fun _ _ _ e => afterClaim_made e).tell hr
  | stored hi hphase =>
    have hr := hm.running _ _ hi
    exact (hm.store hr.1 (hr.2 _ _ _ hphase)).goOn hr.1 fun _ _ _ e =>
      absurd e (afterStore_waits _ _ _ _ _ _ _)
  | refused hi hphase | lost hi hphase =>
    exact hm.goOn (hm.running _ _ hi).1 fun _ _ _ e => absurd e (afterStore_waits _ _ _ _ _ _ _)
  | @late i r claimId key grant hi hphase =>
    have hr := hm.running _ _ hi
    have hl : Known platform (tr ++ [.write i .late])
      { s with late := ⟨claimId, r.input, grant⟩ :: s.late } := by
      refine ⟨hm.running, ?_, hm.written, hm.grant, hm.told⟩
      intro w hw
      rcases List.mem_cons.mp hw with rfl | hw
      · exact ⟨hr.1, hr.2 _ _ _ hphase⟩
      · exact hm.late w hw
    exact hl.goOn hr.1 fun _ _ _ e => absurd e (afterStore_waits _ _ _ _ _ _ _)
  | @land l₁ l₂ w e =>
    have hw := hm.late w (by rw [e]; exact List.mem_append_right _ List.mem_cons_self)
    have hl : Known platform (tr ++ [.land w]) { s with late := l₁ ++ l₂ } := by
      refine ⟨hm.running, ?_, hm.written, hm.grant, hm.told⟩
      intro w' hw'
      refine hm.late w' ?_
      rw [e]
      rcases List.mem_append.mp hw' with hw' | hw'
      · exact List.mem_append_left _ hw'
      · exact List.mem_append_right _ (List.mem_cons_of_mem _ hw')
    exact hl.store hw.1 hw.2
  | complete hi hphase =>
    have hr := (hm.running _ _ hi).1
    exact ((hm.ticket _).goOn hr fun _ _ _ e => absurd e (afterComplete_ends _ _ _ _ _)).tell hr
  | release hi hphase =>
    exact (hm.ticket _).goOn (hm.running _ _ hi).1 fun _ _ _ e => by cases e
  | tick hle => exact ⟨hm.running, hm.late, hm.written, hm.grant, hm.told⟩
  | purge ht hlt => exact hm.ticket _

theorem known_run {ticket : Ticket} {now : Int} (hrun : Trace.Run (Step platform) (start ticket now) tr s) :
    Known platform tr s := by
  refine hrun.invariant_along (I := Known platform) ?_ fun _ _ _ _ h hs => known_step h hs
  refine ⟨?_, ?_, ?_, ?_, ?_⟩
  · intro i r h
    cases h
  · intro w h
    cases h
  · intro p h
    cases h
  · intro g h
    cases h
  · intro p h
    cases h

end Origins

/-! ## 4. A submission that is accepted -/

section Accepted

variable {platform : Platform} {s : State} {request : Request} {claim : ClaimRequest}
variable {claimId : String} {ticket : Ticket} {grant : Submission}

/-- What a request must bring to use a ticket that is ready. -/
structure Admits (platform : Platform) (s : State) (request : Request) (claim : ClaimRequest)
    (claimId : String) (ticket : Ticket) (grant : Submission) : Prop where
  begins : begin platform request = .ok claim
  row : s.ticket = some ticket
  ready : ticket.state = .ready
  named : ticket.id = claim.id
  shaped : ticketIdShape claim.id = true
  secret : sha256Digest claim.secretSha256 = true ∧ ticket.secretSha256 = claim.secretSha256
  alive : s.now < ticket.expiresAtMs
  digest : sha256Digest claim.submissionSha256 = true
  grant : normalizeSubmission platform.dates s.now
    (ticket.claimedBy claim.submissionSha256 claimId s.now).toTicketView (inputOf request) = .ok grant
  key : grantKey (submissionKey ticket.toTicketView) = .ok (submissionKey ticket.toTicketView)

theorem row_of (ht : s.ticket = some ticket) (hid : ticket.id = id) : s.row id = some ticket := by
  unfold State.row
  rw [ht, Option.filter_some, if_pos (decide_eq_true hid)]

theorem Admits.claimed (h : Admits platform s request claim claimId ticket grant) :
    Submissions.claimed s claim claimId = (some (ticket.claimedBy claim.submissionSha256 claimId s.now),
        .ok (.claimed (ticket.claimedBy claim.submissionSha256 claimId s.now).toTicketView claimId)) := by
  have hid : submissionTicketId claim.id = .ok claim.id := by
    unfold submissionTicketId
    rw [h.shaped]
    rfl
  have hsecret : ¬(!sha256Digest claim.secretSha256 || ticket.secretSha256 ≠ claim.secretSha256) = true := by
    rw [h.secret.1, h.secret.2]
    simp
  have halive : ¬ticket.expiresAtMs ≤ s.now := Int.not_le.mpr h.alive
  have hcall : claimSubmissionTicket (s.row claim.id) claim claimId s.now =
      .ok (some (claimTicket ticket claim.submissionSha256 claimId s.now).1,
        (claimTicket ticket claim.submissionSha256 claimId s.now).2) := by
    unfold claimSubmissionTicket
    rw [hid, row_of h.row h.named]
    dsimp only [bind, Except.bind]
    rw [if_neg hsecret, if_neg halive, h.digest]
    rfl
  unfold Submissions.claimed
  rw [hcall]
  unfold claimTicket
  rw [h.ready]
  rfl

theorem completed_of (ht : s.ticket = some t)
    (hid : t.id = id) (hshape : ticketIdShape id = true) (hstate : t.state = .claimed)
    (hc : t.claimId = some claimId) (hkey : grantKey receipt.grantKey = .ok receipt.grantKey) :
    completed s id claimId receipt = (some (t.consumedWith receipt),
        .ok (.alreadyConsumed (t.consumedWith receipt).toTicketView (some receipt))) := by
  have hheld : holdsClaim (some t) claimId = true := by
    unfold holdsClaim
    rw [Option.any_some, hstate, hc]
    simp
  have hcall : completeSubmissionTicket (s.row id) id claimId receipt = .ok (some (t.consumedWith receipt),
        .alreadyConsumed (t.consumedWith receipt).toTicketView (some receipt)) := by
    unfold completeSubmissionTicket submissionTicketId
    rw [hshape, row_of ht hid]
    dsimp only [bind, Except.bind, require, if_true, pure, Except.pure]
    rw [if_pos hheld]
    rw [hkey]
    rfl
  unfold completed
  rw [hcall]
  rfl
theorem released_of (ht : s.ticket = some t) (hid : t.id = id)
    (hshape : ticketIdShape id = true) (hstate : t.state = .claimed) (hc : t.claimId = some claimId) :
    released s id claimId = some t.readyAgain := by
  have hheld : holdsClaim (some t) claimId = true := by
    unfold holdsClaim
    rw [Option.any_some, hstate, hc]
    simp
  have hcall : releaseSubmissionTicket (s.row id) id claimId = .ok (some t.readyAgain) := by
    unfold releaseSubmissionTicket submissionTicketId
    rw [hshape, row_of ht hid]
    dsimp only [bind, Except.bind, require, if_true, pure, Except.pure]
    rw [if_pos hheld]
    rfl
  unfold released
  rw [hcall]
  rfl

theorem begin_id (h : begin platform request = .ok claim) : ticketIdOf request = claim.id := by
  obtain ⟨segment, hsegment, h⟩ := bind_ok.mp h
  obtain ⟨_, _, h⟩ := bind_ok.mp h
  obtain ⟨id, hid, h⟩ := bind_ok.mp h
  obtain ⟨_, _, h⟩ := bind_ok.mp h
  obtain ⟨_, _, h⟩ := bind_ok.mp h
  obtain ⟨_, _, h⟩ := bind_ok.mp h
  cases h
  rw [demand_ok, hid] at hsegment
  unfold ticketIdOf
  rw [hsegment]

/-- The state once the submission was stored, and its request waits in a phase. -/
def storedState (s : State) (i : Nat) (claim : ClaimRequest) (claimId : String) (ticket : Ticket)
    (grant : Submission) (r : Running) : State where
  ticket := some (ticket.claimedBy claim.submissionSha256 claimId s.now)
  grant := some ⟨r.input, grant⟩
  running := Function.update s.running i (some r)
  late := s.late
  now := s.now
  written := (claimId, r.input) :: s.written
  receipts := s.receipts

theorem stores (answered : Bool) (h : Admits platform s request claim claimId ticket grant)
    (hi : s.running i = none) : Trace.Run (TidyStep platform) s
      [.arrive i request, .claim i claimId .answered, .write i (.stored answered)]
      (storedState s i claim claimId ticket grant
        ⟨claim.id, inputOf request, afterStore claimId (submissionKey ticket.toTicketView) s.now
          (if answered then .ok (some grant.updatedAt) else .error lost)⟩) := by
  have hid := begin_id h.begins
  have hfirst : firstPhase platform request = .claiming claim := by
    unfold firstPhase
    rw [h.begins]
  let r₁ : Running := ⟨ticketIdOf request, inputOf request, firstPhase platform request⟩
  let s₁ : State := { s with running := Function.update s.running i (some r₁) }
  let r₂ : Running := { r₁ with phase := .storing claimId (submissionKey ticket.toTicketView) grant }
  let s₂ : State := { s with
      ticket := some (ticket.claimedBy claim.submissionSha256 claimId s.now)
      running := Function.update s.running i (some r₂) }
  have step₁ : Step platform s (.arrive i request) s₁ := .arrive hi
  have step₂ : Step platform s₁ (.claim i claimId .answered) s₂ := by
    have hclaimed : Submissions.claimed s₁ claim claimId = _ := h.claimed
    have hafter : afterClaim platform (inputOf request) s.now
        (.ok (.claimed (ticket.claimedBy claim.submissionSha256 claimId s.now).toTicketView claimId)) =
          .storing claimId (submissionKey ticket.toTicketView) grant := by
      unfold afterClaim
      dsimp only
      rw [h.grant]
      rfl
    have step := @Step.claim platform s₁ i r₁ claim claimId .answered (Function.update_self ..) hfirst
    rw [hclaimed] at step
    unfold Fate.hear at step
    rw [hafter] at step
    have e : s₂ = State.told ({ s₁ with
        ticket := some (ticket.claimedBy claim.submissionSha256 claimId s.now) }.goOn i r₁ r₂.phase)
          r₁.input r₂.phase := by
      unfold State.told State.goOn
      rw [Function.update_idem]
      rfl
    rw [e]
    exact step
  have step₃ := @Step.stored platform s₂ i r₂ claimId _ grant answered (Function.update_self ..) rfl
  have run : Trace.Run (TidyStep platform) s
      [.arrive i request, .claim i claimId .answered, .write i (.stored answered)] _ :=
    ((Trace.Run.start.next ⟨step₁, trivial⟩).next ⟨step₂, trivial⟩).next ⟨step₃, trivial⟩
  have e : storedState s i claim claimId ticket grant
      ⟨claim.id, inputOf request, afterStore claimId (submissionKey ticket.toTicketView) s.now
        (if answered then .ok (some grant.updatedAt) else .error lost)⟩ =
      (s₂.store claimId r₂.input grant).goOn i r₂
        (afterStore claimId (submissionKey ticket.toTicketView) s₂.now
          (if answered then .ok (some grant.updatedAt) else .error lost)) := by
    unfold storedState State.goOn State.store
    rw [Function.update_idem, ← hid]
  rw [e]
  exact run

theorem accepts (h : Admits platform s request claim claimId ticket grant)
    (hi : s.running i = none) (hlate : s.late = []) (halone : ∀ j, s.running j = none) :
    ∃ s', Trace.Run (TidyStep platform) s [.arrive i request, .claim i claimId .answered, .write i
      (.stored true),
          .complete i .answered] s' ∧
      s'.receipts = (⟨submissionKey ticket.toTicketView, grant.updatedAt⟩, inputOf request) :: s.receipts ∧
      ∃ t, s'.ticket = some t ∧ t.state = .consumed := by
  have run := stores true h hi
  generalize hs : storedState s i claim claimId ticket grant _ = stored at run
  let receipt : Receipt := ⟨submissionKey ticket.toTicketView, grant.updatedAt⟩
  let r : Running := ⟨claim.id, inputOf request, .completing claimId receipt⟩
  have hrunning : stored.running i = some r := by
    rw [← hs]
    exact Function.update_self ..
  have hcompleted : completed stored claim.id claimId receipt = _ :=
    completed_of (t := ticket.claimedBy claim.submissionSha256 claimId s.now) (by rw [← hs]; rfl) h.named
      h.shaped rfl rfl h.key
  have step := @Step.complete platform stored i r claimId receipt .answered hrunning rfl
  rw [hcompleted] at step
  have htidy : Tidy stored (.complete i .answered) := by
    intro r' c receipt' hr hphase _ _ hopen
    rw [hrunning] at hr
    cases hr
    rcases hopen with ⟨j, r', key, g, hne, hj, _⟩ | ⟨w, hw, _⟩
    · rw [← hs] at hj
      change Function.update s.running i _ j = some r' at hj
      rw [Function.update_of_ne hne, halone j] at hj
      cases hj
    · rw [← hs] at hw
      change w ∈ s.late at hw
      rw [hlate] at hw
      cases hw
  refine ⟨_, run.next ⟨step, htidy⟩, ?_, _, rfl, rfl⟩
  rw [← hs]
  rfl

end Accepted

/-! ## 5. The result -/

section Result

variable {platform : Platform} {ticket : Ticket} {now : Int} {tr : List Label} {s : State}

theorem TidyStep.run {s₀ : State} (h : Trace.Run (TidyStep platform) s₀ tr s) :
    Trace.Run (Step platform) s₀ tr s := by
  induction h with
  | start => exact .start
  | next _ hs ih => exact ih.next hs.1

theorem single_run (hf : ticket.fresh) (h : Trace.Run (TidyStep platform) (start ticket now) tr s) :
    ∃ d, Single platform d s := by
  refine h.invariant (I := fun s => ∃ d, Single platform d s) ⟨"", single_start hf now⟩ ?_
  intro _ _ _ ⟨_, hd⟩ hs
  exact single_step hd hs

/-- **A ticket stores one submission**, in every run that never finishes a claim while somebody else
may write under it or gives one back under which something was stored: all stored bodies have one
canonical text, all receipts are one and its body's is the text of the stored grant, and once the
ticket is used nothing that anybody does changes the grant. -/
theorem consume_once (hf : ticket.fresh) (hrun : Trace.Run (TidyStep platform) (start ticket now) tr s)
    (hsha : Set.InjOn platform.sha256 (canonical platform '' inputs tr)) :
    (∀ p ∈ s.written, ∀ q ∈ s.written, canonical platform p.2 = canonical platform q.2) ∧
      (∀ p ∈ s.receipts, (∀ q ∈ s.receipts, q.1 = p.1) ∧
        ∃ g, s.grant = some g ∧ canonical platform g.input = canonical platform p.2 ∧
          MadeOf platform g.input g.grant) ∧ (∀ t, s.ticket = some t → t.state = .consumed →
        ∀ tr' s', Trace.Run (Step platform) s tr' s' → s'.grant = s.grant) := by
  obtain ⟨d, h⟩ := single_run hf hrun
  have known := known_run (TidyStep.run hrun)
  -- one digest is one canonical text
  have text : ∀ a ∈ inputs tr, ∀ b ∈ inputs tr, digestOf platform a = d → digestOf platform b = d →
      canonical platform a = canonical platform b := by
    intro a ha b hb hda hdb
    exact hsha ⟨a, ha, rfl⟩ ⟨b, hb, rfl⟩ (hda.trans hdb.symm)
  refine ⟨?_, ?_, ?_⟩
  · intro p hp q hq
    exact text _ (known.written p hp) _ (known.written q hq) (h.written p hp).1 (h.written q hq).1
  · intro p hp
    refine ⟨fun q hq => h.same q hq p hp, ?_⟩
    cases hg : s.grant with
    | none => exact absurd (h.stored.mp hg) (h.told p hp).2.1
    | some g =>
      obtain ⟨hin, hmade⟩ := known.grant g hg
      exact ⟨g, rfl, text _ hin _ (known.told p hp) (h.grant g hg) (h.told p hp).1, hmade⟩
  · intro t ht hc tr' s' hrest
    exact closed_run (h.closed_of_consumed ht hc) hrest

/-- The hashes of a token and of two submissions; nothing else is hashed. -/
def sample : Platform where
  sha256 text :=
  if text = "pst-token-0123456789" then
      "c67a68e90bed53ab9983d451fc6ffb362e549e8ac2a4081fcb67479dbab665b6"
    else if text = "\x7b\"credential\":\"first\"\x7d" then
      "2fed7577854280254e4d5dc2491cb78de9b792ad1d93a59b9573a6d3efee0d4c"
    else if text = "\x7b\"credential\":\"second\"\x7d" then
      "109bbe301c444e527e45a4dc0d54698f7c81fbb042ce2fca57aec131ba94feba"
    else ""
  localeLe a b := a ≤ b
  dates := ⟨fun _ => none, fun _ => none⟩

def sampleTicket : Ticket where
  id :=
  "pst_0123456789abcdef"
  scope := .policies
  scopeId := "team"
  tokenRef := "primary"
  provider := "openai"
  kind := .apiKey
  label := none
  priority := 100
  weight := "1"
  contributor := none
  keepWarm := false
  createdAtMs := 0
  expiresAtMs := 1000
  state := .ready
  claimedAtMs := none
  receipt := none
  secretSha256 := "c67a68e90bed53ab9983d451fc6ffb362e549e8ac2a4081fcb67479dbab665b6"
  submissionSha256 := none
  claimId := none

/-- An API key that is brought with the ticket. -/
def bring (secret : String) : Request :=
  ⟨some (.ok "pst_0123456789abcdef"), true, some "pst-token-0123456789",
    .ok (.obj [("credential", .str secret)])⟩

def claimOf (secret : String) : ClaimRequest :=
  ⟨"pst_0123456789abcdef", sample.sha256 "pst-token-0123456789",
    digestOf sample (.obj [("credential", .str secret)])⟩

theorem bring_text (secret : String) : canonical sample (.obj [("credential", .str secret)]) =
    String.ofList ("\x7b\"credential\":".toList ++ Json.quoteChars secret.toList ++ ['\x7d']) := by
  unfold canonical canonicalJson
  simp only [canonicalChars, canonicalMembers, joinMembers, List.mergeSort_singleton, List.map_cons,
    List.map_nil, List.intersperse_singleton, List.flatten_cons, List.flatten_nil, List.append_nil]
  rfl

theorem bring_grant {secret : String} (view : TicketView) (hv : view.kind = .apiKey) (h0 : secret ≠ "")
    (hs : secret.utf8ByteSize ≤ 65536) :
    ∃ grant, normalizeSubmission sample.dates 0 view (.obj [("credential", .str secret)]) = .ok grant := by
  refine ⟨⟨view.priority, view.weight, view.kind, view.provider, submissionLabel view, some secret, [],
    none, none, "Bearer", none, none, none, [], none, none, view.keepWarm, 0, 0⟩, ?_⟩
  simp [normalizeSubmission, firstUnknown, allowedFields, optionalString, h0, hs, credentialBundle,
    requireKind, require, hv, optionalTimestamp, stringList, subscriptionMetadata,
    optionalAuthorizationTimestamp, Json.present, List.lookup_cons, List.lookup_nil, bind,
      Except.bind, pure, Except.pure]

theorem bring_admits (secret claimId : String) {s : State} (ht : s.ticket = some sampleTicket)
    (hn : s.now = 0) (h0 : secret ≠ "") (hs : secret.utf8ByteSize ≤ 65536)
    (hd : sha256Digest (claimOf secret).submissionSha256 = true) :
    ∃ grant, Admits sample s (bring secret) (claimOf secret) claimId sampleTicket grant := by
  have hsegment : ticketSegment "pst_0123456789abcdef" = true := by decide
  have hshape : ticketIdShape "pst_0123456789abcdef" = true := by decide
  have hsecret : sha256Digest (sample.sha256 "pst-token-0123456789") = true ∧
      sampleTicket.secretSha256 = sample.sha256 "pst-token-0123456789" := by decide
  obtain ⟨grant, hgrant⟩ := bring_grant
    (sampleTicket.claimedBy (claimOf secret).submissionSha256 claimId s.now).toTicketView rfl h0 hs
  refine ⟨grant, ?_, ht, rfl, rfl, hshape, hsecret, ?_, hd, ?_, by decide⟩
  · unfold begin bring
    dsimp only [demand, require, bind, Except.bind, if_true]
    rw [hsegment]
    rfl
  · rw [hn]
    decide
  · rw [← hgrant, hn]
    rfl

theorem first_digest : sha256Digest (claimOf "first").submissionSha256 = true := by
  unfold claimOf digestOf
  rw [bring_text]
  decide

theorem second_digest : sha256Digest (claimOf "second").submissionSha256 = true := by
  unfold claimOf digestOf
  rw [bring_text]
  decide

theorem sample_fresh : sampleTicket.fresh := ⟨rfl, rfl, rfl, rfl⟩

theorem sample_injective {texts : Set String}
    (h : ∀ text ∈ texts, text = canonical sample (.obj [("credential", .str "first")]) ∨
      text = canonical sample (.obj [("credential", .str "second")])) : Set.InjOn sample.sha256 texts := by
  have hne : sample.sha256 (canonical sample (.obj [("credential", .str "first")])) ≠
      sample.sha256 (canonical sample (.obj [("credential", .str "second")])) := by
    rw [bring_text, bring_text]
    decide
  intro a ha b hb e
  rcases h a ha with rfl | rfl
  · rcases h b hb with rfl | rfl
    · rfl
    · exact absurd e hne
  · rcases h b hb with rfl | rfl
    · exact absurd e.symm hne
    · rfl

/-- A ticket that is used by one request. -/
theorem consume_once_accepted : ∃ s, (∃ receipt input, s.receipts = [(receipt, input)] ∧
      ∃ g, s.grant = some g ∧ canonical sample g.input = canonical sample input) ∧
    (∃ t, s.ticket = some t ∧ t.state = .consumed) ∧
      ∀ tr' s', Trace.Run (Step sample) s tr' s' → s'.grant = s.grant := by
  obtain ⟨grant, admits⟩ := bring_admits "first" "claim-1" (s := start sampleTicket 0) rfl rfl
    (by decide) (by decide) first_digest
  obtain ⟨s, run, hreceipts, t, ht, hc⟩ := accepts (i := 0) admits rfl rfl fun _ => rfl
  have once := consume_once sample_fresh run (sample_injective fun text ⟨input, hin, e⟩ => by
    obtain ⟨i, request, hmem, rfl⟩ := hin
    left
    rcases List.mem_cons.mp hmem with h | hmem
    · cases h
      exact e.symm
    · rcases List.mem_cons.mp hmem with h | hmem
      · cases h
      · rcases List.mem_cons.mp hmem with h | hmem
        · cases h
        · rcases List.mem_singleton.mp hmem with h
          cases h)
  refine ⟨s, ?_, ⟨t, ht, hc⟩, once.2.2 t ht hc⟩
  refine ⟨_, _, hreceipts, ?_⟩
  obtain ⟨_, g, hg, htext, _⟩ := once.2.1 _ (by rw [hreceipts]; exact List.mem_singleton.mpr rfl)
  exact ⟨g, hg, htext⟩

/-- The reply to the first write is lost, its claim is given back, and another body is stored. -/
theorem consumed_twice : ¬∀ (platform : Platform) (ticket : Ticket) (now : Int) (tr : List Label) (s : State),
    ticket.fresh → Trace.Run (Step platform) (start ticket now) tr s →
    Set.InjOn platform.sha256 (canonical platform '' inputs tr) →
    ∀ p ∈ s.written, ∀ q ∈ s.written, canonical platform p.2 = canonical platform q.2 := by
  intro claim
  obtain ⟨grant, admits⟩ := bring_admits "first" "claim-1" (s := start sampleTicket 0) rfl rfl
    (by decide) (by decide) first_digest
  have run₁ := stores (i := 0) false admits rfl
  generalize hs₁ : storedState _ _ _ _ _ _ _ = s₁ at run₁
  have hrunning : s₁.running 0 = some ⟨(claimOf "first").id, inputOf (bring "first"),
    .releasing "claim-1" lost⟩ := by
    rw [← hs₁]
    rfl
  have release := @Step.release sample s₁ 0 _ "claim-1" lost .answered hrunning rfl
  have hreleased : released s₁ (claimOf "first").id "claim-1" = some sampleTicket :=
    released_of (t := sampleTicket.claimedBy _ "claim-1" 0) (by rw [← hs₁]; rfl) rfl (by decide) rfl rfl
  rw [hreleased] at release
  generalize hs₂ : State.goOn _ _ _ _ = s₂ at release
  obtain ⟨grant', admits'⟩ := bring_admits "second" "claim-2" (s := s₂)
    (by rw [← hs₂]; rfl) (by rw [← hs₂, ← hs₁]; rfl) (by decide) (by decide) second_digest
  have run₂ := stores (i := 1) true admits' (by rw [← hs₂, ← hs₁]; rfl)
  have run := ((TidyStep.run run₁).next release).trans (TidyStep.run run₂)
  have texts := claim sample sampleTicket 0 _ _ sample_fresh run (sample_injective ?_)
    ("claim-2", inputOf (bring "second")) List.mem_cons_self ("claim-1", inputOf (bring "first"))
    (List.mem_cons_of_mem _ (by rw [← hs₂, ← hs₁]; exact List.mem_cons_self))
  · have hne : canonical sample (inputOf (bring "second")) ≠ canonical sample (inputOf (bring "first")) := by
      unfold bring inputOf
      dsimp only
      rw [bring_text, bring_text]
      decide
    exact hne texts
  · rintro text ⟨input, ⟨i, request, hmem, rfl⟩, rfl⟩
    simp only [List.cons_append, List.nil_append, List.mem_cons, List.not_mem_nil, or_false,
      Label.arrive.injEq,
      reduceCtorEq, false_or] at hmem
    rcases hmem with ⟨_, rfl⟩ | ⟨_, rfl⟩
    · exact .inl rfl
    · exact .inr rfl

end Result

end ClawRouter.Submissions
