/-
  Subject:   What the requests of an owner know is so, and the book is in order.

  What a request knows of the row is true as long as it holds the tail; whoever does not hold the
  tail moves neither the row nor the log. So each answer of the world can be taken alone.

  * **`answer_core`**: every answer to a call that may be made keeps both.
-/
import ClawRouter.Devices.Book

namespace ClawRouter.Devices

open Awaiting

/-! ## 1. Knowledge and the book -/

def heldOf (views : Nat → Standing) : Holdings := fun p => (views p).exchange

/-- What the holder of the tail knows is so. -/
structure Knows (w : World) (held : Holdings) (v : Standing) : Prop where
  row : ∀ r, v.row = some r → w.row = r
  actor : ∀ a, v.actor = some a → w.actor = some a
  fresh : ∀ id, v.fresh = some id → id ∈ w.used ∧ ∀ e ∈ w.log, ¬e.Names id
  armed : ∀ kind a, v.armed = some (kind, a) → Armed w.log w.row held kind a

structure Core (w : World) (views : Nat → Standing) : Prop where
  holds : ∀ p, (views p).holds = true ↔ w.holder = some p
  knows : ∀ p, (views p).holds = true → Knows w (heldOf views) (views p)
  book : Book w.log w.row w.used (heldOf views)
  unstarted : ∀ p, (views p).exchange = .nothing → w.exchanges p = none
  exchanges : ∀ p kind a clock, .started p kind a clock ∈ w.log → w.exchanges p ≠ none

/-- The row, the tail and the log are as they were. -/
structure Same (w w' : World) : Prop where
  row : w'.row = w.row
  log : w'.log = w.log
  holder : w'.holder = w.holder
  used : ∀ id ∈ w.used, id ∈ w'.used
  exchanges : ∀ q, w'.exchanges q = none ↔ w.exchanges q = none

section Core

variable {w w' : World} {views : Nat → Standing} {p : Nat} {v' : Standing} {held held' : Holdings}

theorem Same.refl (w : World) : Same w w := ⟨rfl, rfl, rfl, fun _ h => h, fun _ => Iff.rfl⟩

theorem Same.abort (w : World) (q : Nat) : Same w (w.abort q) where
  row := rfl
  log := rfl
  holder := rfl
  used _ h := h
  exchanges r := by
    by_cases hr : r = q
    · subst hr
      simp [World.abort]
    · simp [World.abort, hr]

theorem Same.abortInFlight (w : World) (kind : Kind) : Same w (w.abortInFlight kind) := by
  unfold World.abortInFlight
  split
  · exact Same.abort w _
  · exact Same.refl w

theorem Same.finish (w : World) (q : Nat) : Same w (w.finish q) := by
  unfold World.finish
  split
  · rename_i e he
    have hex : ∀ r, Function.update w.exchanges q (some { e with ended := true }) r = none ↔
      w.exchanges r = none := by
      intro r
      by_cases hr : r = q
      · subst hr
        simp [he]
      · simp [hr]
    split
    · exact ⟨rfl, rfl, rfl, fun _ h => h, hex⟩
    · exact ⟨rfl, rfl, rfl, fun _ h => h, hex⟩
  · exact Same.refl w

theorem Armed.spend {log : List Event} {row : Option Row} {kind : Kind} {a : DeviceAttempt}
    (h : Armed log row held kind a) (hs : ∀ p kind a, held' p = .unspent kind a → held p = .unspent kind a) :
    Armed log row held' kind a :=
  ⟨h.has, h.active, fun p b ho => h.free p b (hs p kind b ho), h.reason⟩

theorem Knows.spend {v : Standing} (h : Knows w held v)
    (hs : ∀ p kind a, held' p = .unspent kind a → held p = .unspent kind a) : Knows w held' v :=
  ⟨h.row, h.actor, h.fresh, fun kind a e => (h.armed kind a e).spend hs⟩

theorem heldOf_update (hex : v'.exchange = (views p).exchange ∨ v'.exchange = .spent) :
    ∀ q kind a, heldOf (Function.update views p v') q = .unspent kind a →
      heldOf views q = .unspent kind a := by
  intro q kind a ho
  unfold heldOf at ho ⊢
  by_cases hq : q = p
  · subst hq
    rw [Function.update_self] at ho
    rcases hex with e | e
    · exact e ▸ ho
    · rw [e] at ho
      cases ho
  · rwa [Function.update_of_ne hq] at ho

section

variable (h : Core w views)
include h

theorem Core.quietly (hw : Same w w') (hh : v'.holds = (views p).holds)
    (hex : v'.exchange = (views p).exchange ∨ v'.exchange = .spent)
    (hk : v'.holds = true → Knows w' (heldOf views) v')
    (hactor : ∀ q, q ≠ p → (views q).holds = true → w'.actor = w.actor) :
    Core w' (Function.update views p v') where
  holds q := by
    rw [hw.holder]
    by_cases hq : q = p
    · subst hq
      rw [Function.update_self, hh]
      exact h.holds q
    · rw [Function.update_of_ne hq]
      exact h.holds q
  knows q hq := by
    refine Knows.spend ?_ (heldOf_update hex)
    by_cases e : q = p
    · subst e
      rw [Function.update_self] at hq ⊢
      exact hk hq
    · rw [Function.update_of_ne e] at hq ⊢
      have kq := h.knows q hq
      refine ⟨fun r hr => ?_, fun a ha => ?_, fun id hid => ?_, fun kind a ha => ?_⟩
      · rw [hw.row]
        exact kq.row r hr
      · rw [hactor q e hq]
        exact kq.actor a ha
      · rw [hw.log]
        exact ⟨hw.used id (kq.fresh id hid).1, (kq.fresh id hid).2⟩
      · rw [hw.log, hw.row]
        exact kq.armed kind a ha
  book := by
    rw [hw.log, hw.row]
    exact (h.book.make hw.used).spend (heldOf_update hex)
  unstarted q hq := by
    rw [hw.exchanges]
    by_cases e : q = p
    · subst e
      rw [Function.update_self] at hq
      rcases hex with e | e
      · exact h.unstarted q (e ▸ hq)
      · rw [e] at hq
        cases hq
    · rw [Function.update_of_ne e] at hq
      exact h.unstarted q hq
  exchanges q kind a clock hs := by
    rw [hw.log] at hs
    rw [Ne, hw.exchanges]
    exact h.exchanges q kind a clock hs

theorem Core.alone (hp : (views p).holds = true) {q : Nat} (hq : (views q).holds = true) : q = p :=
  Option.some.inj (((h.holds q).mp hq).symm.trans ((h.holds p).mp hp))

theorem Core.order (hfree : w.holder = none) :
    Core { w with holder := some p, actor := none } (Function.update views p (views p).entered) where
  holds q := by
    by_cases hq : q = p
    · subst hq
      rw [Function.update_self]
      exact iff_of_true rfl rfl
    · rw [Function.update_of_ne hq, h.holds q, hfree]
      exact iff_of_false (fun e => by cases e) fun e => hq (Option.some.inj e).symm
  knows q hq := by
    by_cases e : q = p
    · subst e
      rw [Function.update_self]
      refine ⟨fun _ e => ?_, fun _ e => ?_, fun _ e => ?_, fun _ _ e => ?_⟩ <;> cases e
    · rw [Function.update_of_ne e, h.holds q, hfree] at hq
      cases hq
  book := h.book.spend (heldOf_update (.inl rfl))
  unstarted q hq := by
    by_cases e : q = p
    · subst e
      rw [Function.update_self] at hq
      exact h.unstarted q hq
    · rw [Function.update_of_ne e] at hq
      exact h.unstarted q hq
  exchanges := h.exchanges

theorem Core.release (hp : (views p).holds = true) :
    Core { w with holder := none, actor := none } (Function.update views p (views p).left) := by
  have none : ∀ q, (Function.update views p (views p).left q).holds = false := by
    intro q
    by_cases hq : q = p
    · subst hq
      rw [Function.update_self]
      rfl
    · rw [Function.update_of_ne hq]
      by_contra hholds
      rw [Bool.not_eq_false] at hholds
      exact hq (h.alone hp hholds)
  refine ⟨fun q => ?_, fun q hq => ?_, h.book.spend (heldOf_update (.inl rfl)), fun q hq => ?_, h.exchanges⟩
  · rw [none q]
    exact iff_of_false Bool.false_ne_true (fun e => by cases e)
  · rw [none q] at hq
    cases hq
  · by_cases e : q = p
    · subst e
      rw [Function.update_self] at hq
      exact h.unstarted q hq
    · rw [Function.update_of_ne e] at hq
      exact h.unstarted q hq

theorem Core.holding (hp : (views p).holds = true) (hh : v'.holds = true)
    (hholder : w'.holder = w.holder) (hk : Knows w' (heldOf (Function.update views p v')) v')
    (hb : Book w'.log w'.row w'.used (heldOf (Function.update views p v')))
    (hun : ∀ q, (Function.update views p v' q).exchange = .nothing → w'.exchanges q = none)
    (hex : ∀ q kind a clock, .started q kind a clock ∈ w'.log → w'.exchanges q ≠ none) :
    Core w' (Function.update views p v') where
  holds q := by
    rw [hholder]
    by_cases hq : q = p
    · subst hq
      rw [Function.update_self, hh, ← h.holds q, hp]
    · rw [Function.update_of_ne hq]
      exact h.holds q
  knows q hq := by
    by_cases e : q = p
    · subst e
      rw [Function.update_self]
      exact hk
    · rw [Function.update_of_ne e] at hq
      exact absurd (h.alone hp hq) e
  book := hb
  unstarted := hun
  exchanges := hex

end

def settling (settles : Bool) (p : Nat) : Option Nat := if settles then some p else none

theorem Core.store {settles : Bool} {row : Row} (h : Core w views) (hp : (views p).holds = true)
    (hh : v'.holds = true) (hex : v'.exchange = (views p).exchange.spend settles)
    (puts : Book.Puts w.log w.row w.used (heldOf views) (settling settles p) w.actor row)
    (hk : Knows (w.store (settling settles p) row) (heldOf (Function.update views p v')) v') :
    Core (w.store (settling settles p) row) (Function.update views p v') := by
  have kept : v'.exchange = (views p).exchange ∨ v'.exchange = .spent := by
    rw [hex]
    cases settles with
    | true => exact .inr rfl
    | false => exact .inl rfl
  have spent : ∀ q kind a, settling settles p = some q → heldOf (Function.update views p v') q ≠
    .unspent kind a := by
    intro q kind a hq
    cases settles with
    | false => cases hq
    | true =>
      cases hq
      unfold heldOf
      rw [Function.update_self, hex]
      intro e
      cases e
  refine h.holding hp hh rfl hk (h.book.store puts (heldOf_update kept) spent) (fun q hq => ?_) ?_
  · by_cases e : q = p
    · subst e
      rw [Function.update_self] at hq
      rcases kept with e | e
      · exact h.unstarted q (e ▸ hq)
      · rw [e] at hq
        cases hq
    · rw [Function.update_of_ne e] at hq
      exact h.unstarted q hq
  · intro q kind a clock hs
    rcases List.mem_cons.mp hs with e | hs
    · cases e
    · exact h.exchanges q kind a clock hs

theorem Core.start {kind : Kind} {a : DeviceAttempt} (h : Core w views) (hp : (views p).holds = true)
    (armed : (views p).armed = some (kind, a)) (alive : w.clock < a.expiresAt)
    (nothing : (views p).exchange = .nothing) (hh : v'.holds = true)
    (hex : v'.exchange = .unspent kind a ∨ v'.exchange = .spent)
    (hrow : v'.row = (views p).row) (hactor : v'.actor = (views p).actor)
    (hfresh : v'.fresh = (views p).fresh) (harmed : v'.armed = none) :
    Core (w.start p kind a) (Function.update views p v') := by
  have hknows := h.knows p hp
  have hnew : ∀ k b c, .started p k b c ∉ w.log := fun k b c hs =>
    h.exchanges p k b c hs (h.unstarted p nothing)
  have hheld : ∀ q k b, heldOf (Function.update views p v') q = .unspent k b →
      q = p ∧ k = kind ∧ b = a ∨ q ≠ p ∧ heldOf views q = .unspent k b := by
    intro q k b ho
    unfold heldOf at ho ⊢
    by_cases hq : q = p
    · subst hq
      rw [Function.update_self] at ho
      rcases hex with e | e
      · rw [e] at ho
        cases ho
        exact .inl ⟨rfl, rfl, rfl⟩
      · rw [e] at ho
        cases ho
    · rw [Function.update_of_ne hq] at ho
      exact .inr ⟨hq, ho⟩
  refine h.holding hp hh rfl ?_ (h.book.start (hknows.armed kind a armed) hnew alive hheld)
    (fun q hq => ?_) ?_
  · refine ⟨fun r hr => ?_, fun b hb => ?_, fun id hid => ?_, fun k b hb => ?_⟩
    · exact hknows.row r (hrow ▸ hr)
    · exact hknows.actor b (hactor ▸ hb)
    · obtain ⟨made, unseen⟩ := hknows.fresh id (hfresh ▸ hid)
      refine ⟨made, fun e he => ?_⟩
      rcases List.mem_cons.mp he with rfl | he
      · intro hn
        obtain ⟨e, he, hn'⟩ := h.book.logged kind a (hknows.armed kind a armed).has
        exact unseen e he ((show a.id = id from hn) ▸ hn')
      · exact unseen e he
    · rw [harmed] at hb
      cases hb
  · by_cases e : q = p
    · subst e
      rw [Function.update_self] at hq
      rcases hex with e | e
      · rw [e] at hq
        cases hq
      · rw [e] at hq
        cases hq
    · rw [Function.update_of_ne e] at hq
      show Function.update w.exchanges p _ q = none
      rw [Function.update_of_ne e]
      exact h.unstarted q hq
  · intro q k b c hs
    show Function.update w.exchanges p _ q ≠ none
    by_cases e : q = p
    · subst e
      rw [Function.update_self]
      exact Option.some_ne_none _
    · rw [Function.update_of_ne e]
      rcases List.mem_cons.mp hs with hs | hs
      · cases hs
        exact absurd rfl e
      · exact h.exchanges q k b c hs

end Core

/-! ## 2. Writes -/

section Writes

variable {w : World} {views : Nat → Standing} {p : Nat} {kind : Kind} {settles : Bool} {row : Row}

theorem attemptOf_some {r : Row} (h : w.row = some r) : attemptOf w.row kind = r.attempts kind := by
  rw [h]
  rfl

theorem change_other {k : Kind} {r : Row} {a : DeviceAttempt} {settled : Option Nat}
    (hr : w.row = some r) (hk : k ≠ kind) :
    Change w.log w.used (heldOf views) settled k (attemptOf w.row k) ((r.withAttempt kind a).attempts k) := by
  rw [Row.withAttempt_attempts_of_ne _ _ hk, attemptOf_some hr]
  exact .kept

theorem write_puts (h : Core w views) (hp : (views p).holds = true) (hw : Write (views p) kind settles row) :
    Book.Puts w.log w.row w.used (heldOf views) (settling settles p) w.actor row := by
  have hknows := h.knows p hp
  -- the credential of a row with another attempt is the credential there was
  have bare : ∀ {r : Row} {a : DeviceAttempt}, w.row = some r → ∀ credential : DeviceCredential,
      (r.withAttempt kind a).credential = some (.device credential) →
        w.row.bind Row.credential ≠ (r.withAttempt kind a).credential →
          Commits w.log (settling settles p) w.actor w.row (r.withAttempt kind a) := by
    intro r a hr credential _ hne
    rw [hr, Row.withAttempt_credential] at hne
    exact absurd rfl hne
  cases hw with
  | @opens row attempt fresh phase has only credential =>
    refine ⟨fun k => ?_, fun q hq => (by cases hq), fun c hc => ?_⟩
    · by_cases hk : k = kind
      · subst hk
        rw [has]
        exact .opened phase (hknows.fresh _ fresh).1 (hknows.fresh _ fresh).2
      · rw [only k hk]
        exact .removed
    · rw [credential] at hc
      cases hc
  | @polls r pending now known has phase turn due alive =>
    have hr := hknows.row _ known
    refine ⟨fun k => ?_, fun q hq => (by cases hq), bare hr⟩
    by_cases hk : k = kind
    · subst hk
      rw [Row.withAttempt_attempts]
      exact .polled ((attemptOf_some hr).trans has) phase
    · exact change_other hr hk
  | @concludes _ r present attempt known has same phase own =>
    have hr := hknows.row _ known
    refine ⟨fun k => ?_, fun q hq => ?_, bare hr⟩
    · by_cases hk : k = kind
      · subst hk
        rw [Row.withAttempt_attempts]
        exact .closed ((attemptOf_some hr).trans has) same phase
      · exact change_other hr hk
    · cases settles with
      | false => cases hq
      | true =>
        cases hq
        exact own rfl
  | @reopens r present own attempt known has exchange id phase same pending =>
    have hr := hknows.row _ known
    refine ⟨fun k => ?_, fun q hq => ?_, bare hr⟩
    · by_cases hk : k = kind
      · subst hk
        rw [Row.withAttempt_attempts]
        exact .reopened rfl exchange ((attemptOf_some hr).trans has) id phase same pending
      · exact change_other hr hk
    · cases hq
      exact ⟨_, _, exchange⟩
  | @installs r new present own committed credential known has exchange id phase polls generation lineage key
      actor commits same final others carries =>
      have hr := hknows.row _ known
      refine ⟨fun k => ?_, fun q hq => ?_, fun c hc hne => ?_⟩
      · by_cases hk : k = kind
        · subst hk
          rw [commits]
          refine .closed ((attemptOf_some hr).trans has) (same.trans id.symm) ?_
          rw [final]
          rfl
        · rcases others k hk with e | e
          · rw [e]
            exact .removed
          · rw [e, attemptOf_some hr]
            exact .kept
      · cases hq
        exact ⟨_, _, exchange⟩
      · obtain ⟨-, clock, hstart⟩ := h.book.owned p kind own exchange
        have active : present.phase.active = true := by
          rw [phase, polls]
          rfl
        have e : present = own := h.book.current p kind own present exchange
          ((attemptOf_some hr).trans has) id active
        subst e
        exact ⟨r, p, kind, present, clock, committed, hr, rfl, hstart, has, polls, commits, same, final,
          generation, lineage, key, hknows.actor _ actor⟩

theorem write_armed (h : Core w views) (hp : (views p).holds = true)
    (hw : Write (views p) kind settles row) (hclock : ∀ t, (views p).turn = some t → w.clock = t)
    {a : DeviceAttempt} (ha : row.attempts kind = some a) (active : a.phase.active = true) :
    Armed (.stored (settling settles p) w.actor w.row row w.clock :: w.log) (some row)
      (heldOf views) kind a := by
  have hknows := h.knows p hp
  cases hw with
  | @opens row attempt fresh phase has only credential =>
    rw [has] at ha
    cases ha
    exact .of_opened h.book has phase (hknows.fresh _ fresh).2
  | @polls r pending now known has phase turn due alive =>
    have hr := hknows.row _ known
    rw [Row.withAttempt_attempts] at ha
    cases ha
    have hb := h.book
    rw [hr] at hb ⊢
    have e := hclock now turn
    subst e
    exact .of_polled hb has phase due alive
  | @concludes _ r present attempt known has same phase own =>
    rw [Row.withAttempt_attempts] at ha
    cases ha
    rw [Phase.unfinished_of_active active] at phase
    cases phase
  | @reopens r present own attempt known has exchange id phase same pending =>
    rw [Row.withAttempt_attempts] at ha
    cases ha
    rw [pending] at active
    cases active
  | @installs r new present own committed credential known has exchange id phase polls generation lineage key
      actor commits same final others carries =>
      rw [commits] at ha
      cases ha
      rw [final] at active
      cases active

theorem rewritten_puts (hr : World.rewritten w.row row = true) :
    Book.Puts w.log w.row w.used (heldOf views) none w.actor row := by
  simp only [World.rewritten, Bool.and_eq_true, Bool.or_eq_true, decide_eq_true_eq] at hr
  obtain ⟨⟨hminimax, hcopilot⟩, hcredential⟩ := hr
  refine ⟨fun k => ?_, fun q hq => (by cases hq), fun c hc hne => ?_⟩
  · cases k with
    | minimax =>
      show Change _ _ _ _ _ _ row.minimaxDeviceAttempt
      rcases hminimax with e | e
      · rw [e]
        exact .removed
      · rw [e]
        exact .kept
    | copilot =>
      show Change _ _ _ _ _ _ row.copilotDeviceAttempt
      rcases hcopilot with e | e
      · rw [e]
        exact .removed
      · rw [e]
        exact .kept
  · rcases hcredential with e | e
    · exact absurd e.symm hne
    · rw [hc] at e
      cases e

theorem again_puts (hr : w.row = some row) :
    Book.Puts w.log w.row w.used (heldOf views) none w.actor row := by
  refine ⟨fun k => ?_, fun q hq => (by cases hq), fun c _ hne => ?_⟩
  · rw [attemptOf_some hr]
    exact .kept
  · rw [hr] at hne
    exact absurd rfl hne

end Writes

/-! ## 3. Answers -/

section Answers

variable {w w' : World} {views : Nat → Standing} {p : Nat}

structure Less (v' v : Standing) : Prop where
  holds : v'.holds = v.holds
  exchange : v'.exchange = v.exchange ∨ v'.exchange = .spent
  row : v'.row = v.row ∨ v'.row = none
  actor : v'.actor = v.actor
  fresh : v'.fresh = v.fresh ∨ v'.fresh = none
  armed : v'.armed = v.armed ∨ v'.armed = none

theorem Less.refl (v : Standing) : Less v v := ⟨rfl, .inl rfl, .inl rfl, rfl, .inl rfl, .inl rfl⟩

theorem Less.resumed (v : Standing) : Less v.resumed v := ⟨rfl, .inl rfl, .inl rfl, rfl, .inl rfl, .inl rfl⟩

theorem Knows.less {held : Holdings} {v v' : Standing} (h : Knows w held v) (hv : Less v' v)
    (hw : Same w w') (ha : w'.actor = w.actor) : Knows w' held v' where
  row r hr := by
    rw [hw.row]
    rcases hv.row with e | e
    · exact h.row r (e ▸ hr)
    · rw [e] at hr
      cases hr
  actor a hac := by
    rw [ha]
    exact h.actor a (hv.actor ▸ hac)
  fresh id hid := by
    rw [hw.log]
    rcases hv.fresh with e | e
    · obtain ⟨made, unseen⟩ := h.fresh id (e ▸ hid)
      exact ⟨hw.used id made, unseen⟩
    · rw [e] at hid
      cases hid
  armed kind a harmed := by
    rw [hw.log, hw.row]
    rcases hv.armed with e | e
    · exact h.armed kind a (e ▸ harmed)
    · rw [e] at harmed
      cases harmed

section

variable (h : Core w views)
include h

theorem Core.less {v' : Standing} (hv : Less v' (views p)) (hw : Same w w')
    (ha : w'.actor = w.actor) : Core w' (Function.update views p v') :=
  h.quietly hw hv.holds hv.exchange (fun hh => (h.knows p (hv.holds ▸ hh)).less hv hw ha) fun _ _ _ => ha

theorem Core.verify {actor : String} : Core (if w.holder = some p then { w with actor := some actor } else w)
      (Function.update views p { (views p).resumed with actor := some actor }) := by
  split
  · rename_i holder
    refine h.quietly ⟨rfl, rfl, rfl, fun _ h => h, fun _ => Iff.rfl⟩ rfl (.inl rfl)
      (fun hh => ?_) fun q hq hholds => ?_
    · have hk := h.knows p hh
      refine ⟨hk.row, fun a e => ?_, hk.fresh, hk.armed⟩
      cases e
      rfl
    · have e := (h.holds q).mp hholds
      rw [holder] at e
      exact absurd (Option.some.inj e).symm hq
  · rename_i holder
    refine h.quietly (Same.refl w) rfl (.inl rfl) (fun hh => ?_) fun _ _ _ => rfl
    exact absurd ((h.holds p).mp hh) holder

theorem Core.read : Core w (Function.update views p { (views p).resumed with row := some w.row }) := by
  refine h.quietly (Same.refl w) rfl (.inl rfl) (fun hh => ?_) fun _ _ _ => rfl
  have hk := h.knows p hh
  refine ⟨fun r e => ?_, hk.actor, hk.fresh, hk.armed⟩
  cases e
  rfl

theorem Core.uuid {id : String} (hid : id ∉ w.used) :
    Core { w with used := id :: w.used } (Function.update views p { views p with fresh := some id }) := by
  have grow : ∀ x ∈ w.used, x ∈ id :: w.used := fun x hx => List.mem_cons_of_mem _ hx
  refine h.quietly ⟨rfl, rfl, rfl, grow, fun _ => Iff.rfl⟩ rfl (.inl rfl) (fun hh => ?_) fun _ _ _ => rfl
  have hk := h.knows p hh
  refine ⟨hk.row, hk.actor, fun x e => ?_, hk.armed⟩
  cases e
  exact ⟨List.mem_cons_self, fun e he hn => hid (h.book.made e he id hn)⟩

theorem Core.again {row : Row} (hp : (views p).holds = true) (known : (views p).row = some (some row)) :
    Core (w.store none row) (Function.update views p (views p).resumed) := by
  have hk := h.knows p hp
  have hr := hk.row _ known
  refine @Core.store _ _ _ _ false _ h hp hp rfl (again_puts hr) (Knows.spend ?_ (heldOf_update (.inl rfl)))
  refine ⟨fun r e => ?_, hk.actor, fun id e => ?_, fun kind a e => ?_⟩
  · exact hr.symm.trans (hk.row r e)
  · obtain ⟨made, unseen⟩ := hk.fresh id e
    refine ⟨made, fun x hx => ?_⟩
    rcases List.mem_cons.mp hx with rfl | hx
    · rintro ⟨kind, a, has, rfl⟩
      obtain ⟨x, hx, hn⟩ := h.book.logged kind a ((attemptOf_some hr).trans has)
      exact unseen x hx hn
    · exact unseen x hx
  · have harmed := hk.armed kind a e
    rw [hr] at harmed
    exact harmed.again

theorem Core.rewrite {row : Row} (hp : (views p).holds = true)
    (hr : World.rewritten w.row row = true) : Core (w.store none row)
      (Function.update views p { (views p).resumed with row := none, fresh := none, armed := none }) := by
  refine @Core.store _ _ _ _ false _ h hp hp rfl (rewritten_puts hr)
    (Knows.spend ?_ (heldOf_update (.inl rfl)))
  refine ⟨fun r e => ?_, (h.knows p hp).actor, fun id e => ?_, fun kind a e => ?_⟩ <;> cases e

theorem Core.put {kind : Kind} {settles : Bool} {row : Row}
    (hp : (views p).holds = true) (hw : Write (views p) kind settles row)
    (hclock : ∀ t, (views p).turn = some t → w.clock = t) :
    Core (w.store (settling settles p) row) (Function.update views p ((views p).saved kind settles row)) := by
  have hk := h.knows p hp
  refine h.store hp hp rfl (write_puts h hp hw) (Knows.spend ?_ (heldOf_update ?_))
  · refine ⟨fun r e => ?_, hk.actor, fun id e => (by cases e), fun k a e => ?_⟩
    · cases e
      rfl
    · obtain ⟨a', ha', e⟩ := Option.map_eq_some_iff.mp e
      cases e
      obtain ⟨has, active⟩ := Option.filter_eq_some_iff.mp ha'
      exact write_armed h hp hw hclock has active
  · cases settles with
    | true => exact .inr rfl
    | false => exact .inl rfl

end

theorem answer_frame {c : Call} {choice : Choice} {r : Except HttpError (Reply c)}
    (he : w.answer p c choice = some (r, w')) :
    w'.processes = w.processes ∧ w'.turn = w.turn ∧ w'.clock = w.clock := by
  have inFlight : ∀ kind, (w.abortInFlight kind).processes = w.processes ∧
      (w.abortInFlight kind).turn = w.turn ∧ (w.abortInFlight kind).clock = w.clock := by
    intro kind
    unfold World.abortInFlight
    split <;> exact ⟨rfl, rfl, rfl⟩
  have finish : (w.finish p).processes = w.processes ∧ (w.finish p).turn = w.turn ∧
    (w.finish p).clock = w.clock := by
    unfold World.finish
    split
    · split <;> exact ⟨rfl, rfl, rfl⟩
    · exact ⟨rfl, rfl, rfl⟩
  unfold World.answer at he
  split at he
  case h_1 =>
    split at he
    · cases he
      split <;> exact ⟨rfl, rfl, rfl⟩
    · cases he
  all_goals first
    | (cases he; exact ⟨rfl, rfl, rfl⟩)
    | (split at he <;> cases he <;> exact ⟨rfl, rfl, rfl⟩)
    | (cases he; exact inFlight _)
    | (cases he; exact finish)
    | cases he

def Answered (views : Nat → Standing) (p : Nat) (c : Call) (r : Except HttpError (Reply c))
    (w' : World) : Prop :=
  possible (views p) c r ∧ Core w' (Function.update views p (after (views p) c r))

section

variable {choice : Choice}

theorem answer_admin {expected : Option String} {r : Except HttpError (Reply (.admin expected))}
    (h : Core w views)
    (he : w.answer p (.admin expected) choice = some (r, w')) : Answered views p (.admin expected) r w' := by
  have idle : Core w (Function.update views p (views p).resumed) := h.less (.resumed _) (.refl w) rfl
  cases choice with
  | actor actor =>
    simp only [World.answer] at he
    split at he
    · rename_i ok
      cases he
      refine ⟨fun e hexp => ?_, h.verify⟩
      subst hexp
      exact (of_decide_eq_true ok).symm
    · cases he
  | throws e =>
    cases he
    exact ⟨True.intro, idle⟩
  | _ => cases he

theorem answer_order {r : Except HttpError (Reply .order)} (h : Core w views)
    (he : w.answer p .order choice = some (r, w')) : Answered views p .order r w' := by
  cases choice with
  | fine =>
    simp only [World.answer] at he
    split at he
    · rename_i hfree
      cases he
      exact ⟨True.intro, h.order hfree⟩
    · cases he
  | _ => cases he

theorem answer_put {kind : Kind} {settles : Bool} {row : Row}
    {r : Except HttpError (Reply (.put kind settles row))} (h : Core w views) (ha : allowed (views p) (.put kind settles row))
    (hclock : (Call.put kind settles row).awaited = false → ∀ t, (views p).turn = some t → w.clock = t)
    (he : w.answer p (.put kind settles row) choice = some (r, w')) :
    Answered views p (.put kind settles row) r w' := by
  cases choice with
  | fine =>
    cases he
    exact ⟨True.intro, h.put ha.1 ha.2 (hclock rfl)⟩
  | throws e =>
    cases he
    refine ⟨True.intro, h.less ⟨rfl, ?_, .inl rfl, rfl, .inl rfl, .inr rfl⟩ (.refl w) rfl⟩
    cases settles with
    | true => exact .inr rfl
    | false => exact .inl rfl
  | _ => cases he

theorem answer_rewrite {r : Except HttpError (Reply .rewrite)} (h : Core w views)
    (ha : allowed (views p) .rewrite)
    (he : w.answer p .rewrite choice = some (r, w')) : Answered views p .rewrite r w' := by
  have blind : Core w (Function.update views p
      { (views p).resumed with row := none, fresh := none, armed := none }) :=
    h.less ⟨rfl, .inl rfl, .inr rfl, rfl, .inr rfl, .inr rfl⟩ (.refl w) rfl
  cases choice with
  | row row =>
    simp only [World.answer] at he
    split at he
    · rename_i ok
      cases he
      exact ⟨True.intro, h.rewrite ha ok⟩
    · cases he
  | skips | throws =>
    cases he
    exact ⟨True.intro, blind⟩
  | _ => cases he

theorem answer_start {kind : Kind} {attempt : DeviceAttempt} {startedAt : Int}
    {r : Except HttpError (Reply (.start kind attempt startedAt))} (h : Core w views) (ha : allowed (views p) (.start kind attempt startedAt))
    (hclock : (Call.start kind attempt startedAt).awaited = false → ∀ t, (views p).turn = some t →
      w.clock = t)
    (he : w.answer p (.start kind attempt startedAt) choice = some (r, w')) :
    Answered views p (.start kind attempt startedAt) r w' := by
  obtain ⟨hp, armed, turn, alive, nothing⟩ := ha
  have hnow : w.clock < attempt.expiresAt := by
    rw [hclock rfl _ turn]
    exact alive
  cases choice with
  | fine =>
    cases he
    exact ⟨True.intro, h.start hp armed hnow nothing hp (.inl rfl) rfl rfl rfl rfl⟩
  | lost e =>
    cases he
    exact ⟨True.intro, h.start hp armed hnow nothing hp (.inr rfl) rfl rfl rfl rfl⟩
  | throws e =>
    cases he
    exact ⟨True.intro, h.less ⟨rfl, .inr rfl, .inl rfl, rfl, .inl rfl, .inr rfl⟩ (.refl w) rfl⟩
  | _ => cases he

theorem answer_wait {r : Except HttpError (Reply .wait)} (h : Core w views)
    (he : w.answer p .wait choice = some (r, w')) : Answered views p .wait r w' := by
  have idle : Core w (Function.update views p (views p).resumed) := h.less (.resumed _) (.refl w) rfl
  cases choice with
  | reply reply =>
    simp only [World.answer] at he
    split at he
    · cases he
    · cases he
      exact ⟨True.intro, idle⟩
  | throws e =>
    cases he
    exact ⟨True.intro, h.less (.resumed _) (.abort w p) rfl⟩
  | _ => cases he

theorem answer_finish {r : Except HttpError (Reply .finish)} (h : Core w views)
    (he : w.answer p .finish choice = some (r, w')) : Answered views p .finish r w' := by
  cases choice with
  | fine =>
    cases he
    refine ⟨True.intro, h.less (.refl _) (.finish w p) ?_⟩
    unfold World.finish
    split
    · split <;> rfl
    · rfl
  | _ => cases he

end

/-- **Every answer to a call that may be made keeps the book.** -/
theorem answer_core {c : Call} {choice : Choice} {r : Except HttpError (Reply c)} (h : Core w views)
    (ha : allowed (views p) c) (hclock : c.awaited = false → ∀ t, (views p).turn = some t → w.clock = t)
    (he : w.answer p c choice = some (r, w')) : Answered views p c r w' := by
  have idle : Core w (Function.update views p (views p).resumed) := h.less (.resumed _) (.refl w) rfl
  have same : Core w (Function.update views p (views p)) := h.less (.refl _) (.refl w) rfl
  cases c with
  | admin expected => exact answer_admin h he
  | order => exact answer_order h he
  | release =>
    cases choice with
    | fine =>
      cases he
      exact ⟨True.intro, h.release ha⟩
    | _ => cases he
  | read =>
    cases choice with
    | fine =>
      cases he
      exact ⟨True.intro, h.read⟩
    | throws e =>
      cases he
      exact ⟨True.intro, idle⟩
    | _ => cases he
  | put kind settles row => exact answer_put h ha hclock he
  | publish row =>
    cases choice with
    | fine | lost =>
      cases he
      exact ⟨True.intro, h.again ha.1 ha.2⟩
    | throws | skips =>
      cases he
      exact ⟨True.intro, idle⟩
    | _ => cases he
  | ack | remote =>
    cases choice with
    | fine | throws =>
      cases he
      exact ⟨True.intro, idle⟩
    | _ => cases he
  | capacity =>
    cases choice with
    | fine | throws =>
      cases he
      exact ⟨True.intro, same⟩
    | _ => cases he
  | rewrite => exact answer_rewrite h ha he
  | now =>
    cases choice with
    | fine =>
      cases he
      exact ⟨fun t ht => hclock rfl t ht, h.less ⟨rfl, .inl rfl, .inl rfl, rfl, .inl rfl, .inl rfl⟩
        (.refl w) rfl⟩
    | _ => cases he
  | uuid =>
    cases choice with
    | uuid id =>
      simp only [World.answer] at he
      split at he
      · cases he
      · rename_i fresh
        cases he
        exact ⟨True.intro, h.uuid fresh⟩
    | _ => cases he
  | inFlight kind =>
    cases choice with
    | fine =>
      cases he
      exact ⟨True.intro, same⟩
    | _ => cases he
  | stopInFlight kind =>
    cases choice with
    | fine =>
      cases he
      refine ⟨True.intro, h.less (.refl _) (.abortInFlight w kind) ?_⟩
      unfold World.abortInFlight
      split <;> rfl
    | _ => cases he
  | start kind attempt startedAt => exact answer_start h ha hclock he
  | wait => exact answer_wait h he
  | signal =>
    cases choice with
    | fine =>
      simp only [World.answer] at he
      split at he <;>
      · cases he
        exact ⟨True.intro, same⟩
    | _ => cases he
  | stop =>
    cases choice with
    | fine =>
      cases he
      exact ⟨True.intro, h.less (.refl _) (.abort w p) rfl⟩
    | _ => cases he
  | finish => exact answer_finish h he

theorem answer_turn {c : Call} {choice : Choice} {r : Except HttpError (Reply c)} {v : Standing}
    (he : w.answer p c choice = some (r, w'))
      (hclock : c.awaited = false → ∀ t, v.turn = some t → w.clock = t) :
    ∀ t, (after v c r).turn = some t → w.clock = t := by
  intro t ht
  cases c with
  | now =>
    cases choice with
    | fine =>
      cases he
      cases ht
      rfl
    | _ => cases he
  | admin | read | put | uuid | start =>
    cases r with
    | ok _ | error _ => first | exact hclock rfl t ht | cases ht
  | _ => first | exact hclock rfl t ht | cases ht

end Answers

end ClawRouter.Devices
