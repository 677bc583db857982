/-
  Subject:   The log of an owner, kept in order.

  The log says which exchanges were started and which rows were put. Beside it stand the row there
  is, the identifiers that were made, and the exchanges that may still be settled. A row may be put
  if each of its attempts changes in one of six ways; an exchange may be started for the attempt that
  was just put.

  * `Book.store`, `Book.start`: what may happen keeps it.
-/
import ClawRouter.Devices.Owner
import ClawRouter.Devices.Standing

namespace ClawRouter.Devices

/-! ## 1. Logs -/

namespace Event

/-- The event is about an attempt of this identifier. -/
def Names (id : String) : Event → Prop
  | .stored _ _ _ new _ => ∃ kind attempt, new.attempts kind = some attempt ∧ attempt.id = id
  | .started _ _ attempt _ => attempt.id = id

theorem Starts.names {kind : Kind} {id : String} {e : Event} (h : e.Starts kind id) : e.Names id := by
  cases e with
  | stored => exact h.elim
  | started => exact h.2

theorem Leaves.names {kind : Kind} {id : String} {phases : Phase → Prop} {e : Event}
    (h : e.Leaves kind id phases) : e.Names id := by
  cases e with
  | started => exact h.elim
  | stored =>
    obtain ⟨attempt, has, same, -⟩ := h
    exact ⟨kind, attempt, has, same⟩

end Event

def attemptOf (row : Option Row) (kind : Kind) : Option DeviceAttempt := row.bind fun r => r.attempts kind

theorem Phase.unfinished_of_active {phase : Phase} (h : phase.active = true) : phase.unfinished = true := by
  cases phase <;> first | rfl | cases h

/-- An earlier exchange of the attempt of a later one. -/
def Superseded (log : List Event) (q : Nat) : Prop :=
  ∃ later p kind attempt clock earlier attempt' clock',
    log = later ++ .started p kind attempt clock :: earlier ∧
    .started q kind attempt' clock' ∈ earlier ∧ attempt'.id = attempt.id

theorem divide {e x : Event} {log later earlier : List Event} (h : e :: log = later ++ x :: earlier) :
    (later = [] ∧ e = x ∧ log = earlier) ∨ ∃ rest, later = e :: rest ∧ log = rest ++ x :: earlier := by
  cases later with
  | nil =>
    cases h
    exact .inl ⟨rfl, rfl, rfl⟩
  | cons y rest =>
    cases h
    exact .inr ⟨rest, rfl, rfl⟩

/-! ## 2. What may happen -/

abbrev Holdings := Nat → Held

/-- One way in which the attempt of a kind changes, when a row is put. -/
inductive Change (log : List Event) (used : List String) (held : Holdings) (settled : Option Nat)
    (kind : Kind) (old : Option DeviceAttempt) : Option DeviceAttempt → Prop
  | kept : Change log used held settled kind old old
  | removed : Change log used held settled kind old none
  | opened {a : DeviceAttempt} (phase : a.phase = .beginUnknown) (made : a.id ∈ used)
      (new : ∀ e ∈ log, ¬e.Names a.id) : Change log used held settled kind old (some a)
  | polled {o : DeviceAttempt} (was : old = some o) (phase : o.phase = .pending) :
      Change log used held settled kind old (some { o with phase := .pollUnknown })
  | closed {o a : DeviceAttempt} (was : old = some o) (same : a.id = o.id)
      (phase : a.phase.unfinished = false) : Change log used held settled kind old (some a)
  | reopened {p : Nat} {o own a : DeviceAttempt} (settles : settled = some p)
      (exchange : held p = .unspent kind own) (was : old = some o) (id : o.id = own.id)
      (phase : o.phase = own.phase) (same : a.id = own.id) (pending : a.phase = .pending) :
      Change log used held settled kind old (some a)

section Change

variable {log : List Event} {used : List String} {held : Holdings} {settled : Option Nat} {kind : Kind}
  {old : Option DeviceAttempt} {b : DeviceAttempt}

section

variable (h : Change log used held settled kind old (some b))
include h

theorem Change.id_of : (∃ o, old = some o ∧ b.id = o.id) ∨ b.id ∈ used ∧ ∀ e ∈ log, ¬e.Names b.id := by
  cases h with
  | kept => exact .inl ⟨b, rfl, rfl⟩
  | opened phase made new => exact .inr ⟨made, new⟩
  | polled was => exact .inl ⟨_, was, rfl⟩
  | closed was same => exact .inl ⟨_, was, same⟩
  | reopened settles exchange was id phase same pending => exact .inl ⟨_, was, same.trans id.symm⟩

theorem Change.open_of
    (active : ∀ p own, held p = .unspent kind own → own.phase.active = true)
      (hb : b.phase.unfinished = true) :
    (∃ o, old = some o ∧ b.id = o.id ∧ o.phase.unfinished = true) ∨ ∀ e ∈ log, ¬e.Names b.id := by
  cases h with
  | kept => exact .inl ⟨b, rfl, rfl, hb⟩
  | opened phase made new => exact .inr new
  | polled was phase =>
    refine .inl ⟨_, was, rfl, ?_⟩
    rw [phase]
    rfl
  | closed was same phase =>
    rw [phase] at hb
    cases hb
  | reopened settles exchange was id phase same pending =>
    refine .inl ⟨_, was, same.trans id.symm, ?_⟩
    rw [phase]
    exact Phase.unfinished_of_active (active _ _ exchange)

theorem Change.pending_of (hb : b.phase = .pending) :
    old = some b ∨ ∃ p own, settled = some p ∧ held p = .unspent kind own ∧ b.id = own.id := by
  cases h with
  | kept => exact .inl rfl
  | opened phase =>
    rw [phase] at hb
    cases hb
  | polled => cases hb
  | closed was same phase =>
    rw [hb] at phase
    cases phase
  | reopened settles exchange was id phase same => exact .inr ⟨_, _, settles, exchange, same⟩

theorem Change.active_of (hb : b.phase.active = true) :
    old = some b ∨ (∃ o, old = some o ∧ o.phase = .pending ∧ b.id = o.id) ∨ ∀ e ∈ log, ¬e.Names b.id := by
  cases h with
  | kept => exact .inl rfl
  | opened phase made new => exact .inr (.inr new)
  | polled was phase => exact .inr (.inl ⟨_, was, phase, rfl⟩)
  | closed was same phase =>
    rw [Phase.unfinished_of_active hb] at phase
    cases phase
  | reopened settles exchange was id phase same pending =>
    rw [pending] at hb
    cases hb

end

end Change

/-- The attempt is in the row, active, and has no exchange: it was just begun, or reserved. -/
structure Armed (log : List Event) (row : Option Row) (held : Holdings) (kind : Kind)
    (attempt : DeviceAttempt) : Prop where
  has : attemptOf row kind = some attempt
  active : attempt.phase.active = true
  free : ∀ p b, held p = .unspent kind b → b.id ≠ attempt.id
  reason : (attempt.phase = .beginUnknown ∧ ∀ e ∈ log, ¬e.Starts kind attempt.id) ∨
    (attempt.phase = .pollUnknown ∧ Reserved log kind attempt)

/-! ## 3. The book -/

/-- What every step keeps of the log. -/
structure Book (log : List Event) (row : Option Row) (used : List String) (held : Holdings) : Prop where
  made : ∀ e ∈ log, ∀ id, e.Names id → id ∈ used
  logged : ∀ kind a, attemptOf row kind = some a → ∃ e ∈ log, e.Names a.id
  once : ∀ p kind a clock kind' a' clock',
    .started p kind a clock ∈ log → .started p kind' a' clock' ∈ log → kind = kind' ∧ a = a'
  owned : ∀ p kind a, held p = .unspent kind a →
    a.phase.active = true ∧ ∃ clock, .started p kind a clock ∈ log
  quiet : ∀ kind a, attemptOf row kind = some a → a.phase = .pending →
    ∀ p b, held p = .unspent kind b → b.id ≠ a.id
  unique : ∀ p q kind b c, held p = .unspent kind b → held q = .unspent kind c → b.id = c.id → p = q
  current : ∀ p kind b a, held p = .unspent kind b → attemptOf row kind = some a → a.id = b.id →
    a.phase.active = true → a = b
  closed : ∀ e ∈ log, ∀ kind id a, e.Leaves kind id (·.unfinished = false) →
    attemptOf row kind = some a → a.id = id → a.phase.unfinished = false
  superseded : ∀ q, Superseded log q → ∀ kind a, held q ≠ .unspent kind a
  begins : BeginsOnce log
  polls : PollsReserved log
  settles : SettlesOnce log
  closes : StaysClosed log
  installs : InstallsWhole log

namespace Book

variable {log : List Event} {row : Option Row} {used : List String} {held held' : Holdings}

theorem empty (h : ∀ kind, attemptOf row kind = none) (hheld : ∀ p kind a, held p ≠ .unspent kind a) :
    Book [] row used held where
  made _ he := by cases he
  logged kind a ha := by
    rw [h kind] at ha
    cases ha
  once _ _ _ _ _ _ _ he := by cases he
  owned p kind a hp := absurd hp (hheld p kind a)
  quiet _ _ _ _ p b hp := absurd hp (hheld p _ b)
  unique p _ kind b _ hp := absurd hp (hheld p kind b)
  current p kind b _ hp := absurd hp (hheld p kind b)
  closed _ he := by cases he
  superseded q _ kind a := hheld q kind a
  begins _ _ := Nat.zero_le 1
  polls later _ _ _ _ _ he := by cases later <;> cases he
  settles later _ _ _ _ _ he := by cases later <;> cases he
  closes later _ _ _ _ he := by cases later <;> cases he
  installs later _ _ _ _ _ _ _ he := by cases later <;> cases he

theorem spend (h : Book log row used held) (hs : ∀ p kind a, held' p = .unspent kind a →
    held p = .unspent kind a) :
    Book log row used held' where
  made := h.made
  logged := h.logged
  once := h.once
  owned p kind a hp := h.owned p kind a (hs p kind a hp)
  quiet kind a ha hphase p b hp := h.quiet kind a ha hphase p b (hs p kind b hp)
  unique p q kind b c hp hq := h.unique p q kind b c (hs p kind b hp) (hs q kind c hq)
  current p kind b a hp := h.current p kind b a (hs p kind b hp)
  closed := h.closed
  superseded q hq kind a hp := h.superseded q hq kind a (hs q kind a hp)
  begins := h.begins
  polls := h.polls
  settles := h.settles
  closes := h.closes
  installs := h.installs

theorem make {used' : List String} (h : Book log row used held) (hu : ∀ id ∈ used, id ∈ used') :
    Book log row used' held :=
  { h with made := fun e he id hn => hu id (h.made e he id hn) }

theorem owned_names (h : Book log row used held) {p : Nat} {kind : Kind} {b : DeviceAttempt}
    (hp : held p = .unspent kind b) : ∃ e ∈ log, e.Names b.id := by
  obtain ⟨-, clock, hs⟩ := h.owned p kind b hp
  exact ⟨_, hs, rfl⟩

section Store

variable {settled : Option Nat} {actor : Option String} {new : Row} {clock : Int}

/-- The write may be put: what becomes of each attempt, of the exchange it settles, and of the
credential. -/
structure Puts (log : List Event) (row : Option Row) (used : List String) (held : Holdings)
    (settled : Option Nat) (actor : Option String) (new : Row) : Prop where
  changes : ∀ kind, Change log used held settled kind (attemptOf row kind) (new.attempts kind)
  own : ∀ p, settled = some p → ∃ kind a, held p = .unspent kind a
  commits : ∀ credential, new.credential = some (.device credential) →
    row.bind Row.credential ≠ new.credential → Commits log settled actor row new

variable (h : Book log row used held) (hp : Puts log row used held settled actor new)
  (hs : ∀ p kind a, held' p = .unspent kind a → held p = .unspent kind a)
  (hspent : ∀ p kind a, settled = some p → held' p ≠ .unspent kind a)

include h hp in
theorem store_closed {e : Event} (he : e ∈ log) {kind : Kind} {id : String} {a : DeviceAttempt}
    (hl : e.Leaves kind id (·.unfinished = false)) (ha : new.attempts kind = some a) (hid : a.id = id) :
    a.phase.unfinished = false := by
  have change := hp.changes kind
  rw [ha] at change
  by_contra hopen
  rw [Bool.not_eq_false] at hopen
  rcases change.open_of (fun p own ho => (h.owned p kind own ho).1) hopen with ⟨o, ho, same, hphase⟩ | unseen
  · have ended := h.closed e he kind id o hl ho (same.symm.trans hid)
    rw [hphase] at ended
    cases ended
  · exact unseen e he (hid ▸ hl.names)

include h hp hs hspent in
theorem store : Book (.stored settled actor row new clock :: log) (some new) used held' where
  made := by
    intro e he id hn
    rcases List.mem_cons.mp he with rfl | he
    · obtain ⟨kind, a, ha, rfl⟩ := hn
      have change := hp.changes kind
      rw [ha] at change
      rcases change.id_of with ⟨o, ho, same⟩ | ⟨made, -⟩
      · obtain ⟨e, he, hn⟩ := h.logged kind o ho
        exact h.made e he a.id (same ▸ hn)
      · exact made
    · exact h.made e he id hn
  logged kind a ha := ⟨_, List.mem_cons_self, kind, a, ha, rfl⟩
  once p kind a clock kind' a' clock' he he' := by
    rcases List.mem_cons.mp he with e | he
    · cases e
    · rcases List.mem_cons.mp he' with e | he'
      · cases e
      · exact h.once p kind a clock kind' a' clock' he he'
  owned p kind a ho := by
    obtain ⟨active, clock', hstart⟩ := h.owned p kind a (hs p kind a ho)
    exact ⟨active, clock', List.mem_cons_of_mem _ hstart⟩
  quiet kind a ha hphase q b hq hid := by
    have change := hp.changes kind
    rw [show new.attempts kind = some a from ha] at change
    rcases change.pending_of hphase with ho | ⟨p, own, hsettled, hown, same⟩
    · exact h.quiet kind a ho hphase q b (hs q kind b hq) hid
    · have e : q = p := h.unique q p kind b own (hs q kind b hq) hown (hid.trans same)
      subst e
      exact hspent q kind b hsettled hq
  unique p q kind b c hb hc := h.unique p q kind b c (hs p kind b hb) (hs q kind c hc)
  current p kind b a hb ha hid active := by
    have change := hp.changes kind
    rw [show new.attempts kind = some a from ha] at change
    rcases change.active_of active with ho | ⟨o, ho, hphase, same⟩ | unseen
    · exact h.current p kind b a (hs p kind b hb) ho hid active
    · exact absurd (hid.symm.trans same) (h.quiet kind o ho hphase p b (hs p kind b hb))
    · obtain ⟨e, he, hn⟩ := h.owned_names (hs p kind b hb)
      exact absurd (hid ▸ hn) (unseen e he)
  closed e he kind id a hl ha hid := by
    rcases List.mem_cons.mp he with rfl | he
    · obtain ⟨a', ha', -, ended⟩ := hl
      rw [show new.attempts kind = some a from ha] at ha'
      cases ha'
      exact ended
    · exact store_closed h hp he hl ha hid
  superseded q hq kind a ho := by
    obtain ⟨later, p, k, b, c, earlier, b', c', e, hstart, same⟩ := hq
    rcases divide e with ⟨-, e, -⟩ | ⟨rest, -, e⟩
    · cases e
    · exact h.superseded q ⟨rest, p, k, b, c, earlier, b', c', e, hstart, same⟩ kind a (hs q kind a ho)
  begins kind id := by
    rw [List.countP_cons_of_neg (by simp [Event.begins])]
    exact h.begins kind id
  polls later p kind a c earlier e := by
    rcases divide e with ⟨-, e, -⟩ | ⟨rest, -, e⟩
    · cases e
    · exact h.polls rest p kind a c earlier e
  settles later p kind a c earlier e q a' c' hstart same := by
    rcases divide e with ⟨-, e, -⟩ | ⟨rest, rfl, hlog⟩
    · cases e
    · obtain ⟨hne, hrest⟩ := h.settles rest p kind a c earlier hlog q a' c' hstart same
      refine ⟨hne, fun x hx => ?_⟩
      rcases List.mem_cons.mp hx with rfl | hx
      · intro hq
        obtain ⟨k, b, ho⟩ := hp.own q hq
        exact h.superseded q ⟨rest, p, kind, a, c, earlier, a', c', hlog, hstart, same⟩ k b ho
      · exact hrest x hx
  closes later x earlier kind id e hl y hy := by
    rcases divide e with ⟨rfl, -, -⟩ | ⟨rest, rfl, hlog⟩
    · cases hy
    · rcases List.mem_cons.mp hy with rfl | hy
      · refine ⟨fun hn => hn, ?_⟩
        rintro ⟨a, ha, hid, hopen⟩
        have hx : x ∈ log := by
          rw [hlog]
          exact List.mem_append_right _ List.mem_cons_self
        have ended := store_closed h hp hx hl ha hid
        rw [ended] at hopen
        cases hopen
      · exact h.closes rest x earlier kind id hlog hl y hy
  installs later s ac old nw c earlier credential e hc hne := by
    rcases divide e with ⟨-, he, hlog⟩ | ⟨rest, -, e⟩
    · cases he
      subst hlog
      exact hp.commits credential hc hne
    · exact h.installs rest s ac old nw c earlier credential e hc hne

end Store

section Start

variable {p : Nat} {kind : Kind} {a : DeviceAttempt} {clock : Int}
  (h : Book log row used held) (ha : Armed log row held kind a)
  (hnew : ∀ k b c, .started p k b c ∉ log) (alive : clock < a.expiresAt)
  (hs : ∀ q k b, held' q = .unspent k b → q = p ∧ k = kind ∧ b = a ∨ q ≠ p ∧ held q = .unspent k b)

include h ha hnew in
theorem start_free {q : Nat} {a' : DeviceAttempt} {c : Int} (hq : .started q kind a' c ∈ log)
    (same : a'.id = a.id) : q ≠ p ∧ ∀ k b, held q ≠ .unspent k b := by
  refine ⟨fun e => hnew kind a' c (e ▸ hq), fun k b ho => ?_⟩
  obtain ⟨-, c', hstart⟩ := h.owned q k b ho
  obtain ⟨rfl, rfl⟩ := h.once q k b c' kind a' c hstart hq
  exact ha.free q b ho same

include h ha hnew hs in
theorem start_superseded :
    ∀ q, Superseded (.started p kind a clock :: log) q → ∀ k b, held' q ≠ .unspent k b := by
  intro q hq k b ho
  obtain ⟨later, p', k', b', c, earlier, b'', c', e, hstart, same⟩ := hq
  rcases divide e with ⟨-, he, hlog⟩ | ⟨rest, -, hlog⟩
  · cases he
    subst hlog
    obtain ⟨hne, hfree⟩ := start_free h ha hnew hstart same
    rcases hs q k b ho with ⟨e, -, -⟩ | ⟨-, ho⟩
    · exact hne e
    · exact hfree k b ho
  · have hq : .started q k' b'' c' ∈ log := by
      rw [hlog]
      exact List.mem_append_right _ (List.mem_cons_of_mem _ hstart)
    rcases hs q k b ho with ⟨rfl, -, -⟩ | ⟨-, ho⟩
    · exact hnew k' b'' c' hq
    · exact h.superseded q ⟨rest, p', k', b', c, earlier, b'', c', hlog, hstart, same⟩ k b ho

include h ha in
theorem start_begins : BeginsOnce (.started p kind a clock :: log) := by
  intro k id
  by_cases hb : Event.begins k id (.started p kind a clock) = true
  · have none : log.countP (Event.begins k id) = 0 := by
      rw [List.countP_eq_zero]
      intro e he hbe
      simp only [Event.begins, Bool.and_eq_true, decide_eq_true_eq] at hb
      obtain ⟨⟨rfl, rfl⟩, hphase⟩ := hb
      rcases ha.reason with ⟨-, unseen⟩ | ⟨polls, -⟩
      · cases e with
        | stored => cases hbe
        | started q k b c =>
          simp only [Event.begins, Bool.and_eq_true, decide_eq_true_eq] at hbe
          exact unseen _ he ⟨hbe.1.1, hbe.1.2⟩
      · rw [polls] at hphase
        cases hphase
    rw [List.countP_cons_of_pos hb, none]
  · rw [List.countP_cons_of_neg hb]
    exact h.begins k id

include h ha hnew in
theorem start_settles : SettlesOnce (.started p kind a clock :: log) := by
  intro later q k b c earlier e q' b' c' hstart same
  rcases divide e with ⟨rfl, he, hlog⟩ | ⟨rest, rfl, hlog⟩
  · cases he
    subst hlog
    exact ⟨(start_free h ha hnew hstart same).1, fun x hx => by cases hx⟩
  · obtain ⟨hne, hrest⟩ := h.settles rest q k b c earlier hlog q' b' c' hstart same
    refine ⟨hne, fun x hx => ?_⟩
    rcases List.mem_cons.mp hx with rfl | hx
    · exact fun hx => hx
    · exact hrest x hx

include h ha in
theorem start_closes : StaysClosed (.started p kind a clock :: log) := by
  intro later x earlier k id e hl y hy
  rcases divide e with ⟨rfl, -, -⟩ | ⟨rest, rfl, hlog⟩
  · cases hy
  · rcases List.mem_cons.mp hy with rfl | hy
    · refine ⟨?_, fun hn => hn⟩
      rintro ⟨rfl, hid⟩
      have hx : x ∈ log := by
        rw [hlog]
        exact List.mem_append_right _ List.mem_cons_self
      have ended := h.closed x hx kind id a hl ha.has hid
      rw [Phase.unfinished_of_active ha.active] at ended
      cases ended
    · exact h.closes rest x earlier k id hlog hl y hy

include h ha hnew alive hs in
theorem start : Book (.started p kind a clock :: log) row used held' where
  made := by
    intro e he id hn
    rcases List.mem_cons.mp he with rfl | he
    · obtain ⟨e, he, hn'⟩ := h.logged kind a ha.has
      exact h.made e he id ((show a.id = id from hn) ▸ hn')
    · exact h.made e he id hn
  logged k b hb := by
    obtain ⟨e, he, hn⟩ := h.logged k b hb
    exact ⟨e, List.mem_cons_of_mem _ he, hn⟩
  once q k b c k' b' c' hq hq' := by
    rcases List.mem_cons.mp hq with e | hq
    · cases e
      rcases List.mem_cons.mp hq' with e | hq'
      · cases e
        exact ⟨rfl, rfl⟩
      · exact absurd hq' (hnew k' b' c')
    · rcases List.mem_cons.mp hq' with e | hq'
      · cases e
        exact absurd hq (hnew k b c)
      · exact h.once q k b c k' b' c' hq hq'
  owned q k b ho := by
    rcases hs q k b ho with ⟨rfl, rfl, rfl⟩ | ⟨-, ho⟩
    · exact ⟨ha.active, clock, List.mem_cons_self⟩
    · obtain ⟨active, c, hstart⟩ := h.owned q k b ho
      exact ⟨active, c, List.mem_cons_of_mem _ hstart⟩
  quiet k b hb hphase q c ho hid := by
    rcases hs q k c ho with ⟨rfl, rfl, rfl⟩ | ⟨-, ho⟩
    · have e : some b = some c := hb.symm.trans ha.has
      cases e
      have active := ha.active
      rw [hphase] at active
      cases active
    · exact h.quiet k b hb hphase q c ho hid
  unique q q' k b c hb hc same := by
    rcases hs q k b hb with ⟨rfl, rfl, rfl⟩ | ⟨-, hb⟩
    · rcases hs q' k c hc with ⟨rfl, -, -⟩ | ⟨-, hc⟩
      · rfl
      · exact absurd same.symm (ha.free q' c hc)
    · rcases hs q' k c hc with ⟨rfl, rfl, rfl⟩ | ⟨-, hc⟩
      · exact absurd same (ha.free q b hb)
      · exact h.unique q q' k b c hb hc same
  current q k b c ho hc hid active := by
    rcases hs q k b ho with ⟨rfl, rfl, rfl⟩ | ⟨-, ho⟩
    · exact Option.some.inj (hc.symm.trans ha.has)
    · exact h.current q k b c ho hc hid active
  closed e he k id b hl hb hid := by
    rcases List.mem_cons.mp he with rfl | he
    · exact hl.elim
    · exact h.closed e he k id b hl hb hid
  superseded := start_superseded h ha hnew hs
  begins := start_begins h ha
  polls later q k b c earlier e := by
    rcases divide e with ⟨-, he, hlog⟩ | ⟨rest, -, hlog⟩
    · cases he
      subst hlog
      exact ⟨alive, ha.reason.imp (·.1) id⟩
    · exact h.polls rest q k b c earlier hlog
  settles := start_settles h ha hnew
  closes := start_closes h ha
  installs later s ac old nw c earlier credential e hc hne := by
    rcases divide e with ⟨-, he, -⟩ | ⟨rest, -, hlog⟩
    · cases he
    · exact h.installs rest s ac old nw c earlier credential hlog hc hne

end Start

end Book

/-! ## 4. The attempt that was just put -/

section Armed

variable {log : List Event} {row : Option Row} {used : List String} {held : Holdings} {kind : Kind}
  {attempt : DeviceAttempt}

theorem Armed.again {r : Row} {settled : Option Nat} {actor : Option String} {old : Option Row} {clock : Int}
    (h : Armed log (some r) held kind attempt) :
    Armed (.stored settled actor old r clock :: log) (some r) held kind attempt where
  has := h.has
  active := h.active
  free := h.free
  reason := by
    rcases h.reason with ⟨phase, unseen⟩ | ⟨phase, recent, s, a, o, n, c, earlier, pending, e, was,
      hp, he, has, due,
      alive, spares⟩
    · refine .inl ⟨phase, fun e he => ?_⟩
      rcases List.mem_cons.mp he with rfl | he
      · exact fun hn => hn
      · exact unseen e he
    · refine .inr ⟨phase, _ :: recent, s, a, o, n, c, earlier, pending, by rw [e]; rfl, was, hp, he, has, due,
        alive, fun x hx => ?_⟩
      rcases List.mem_cons.mp hx with rfl | hx
      · exact h.has
      · exact spares x hx

theorem Armed.of_opened {new : Row} {settled : Option Nat} {actor : Option String} {clock : Int}
    (hb : Book log row used held) (has : new.attempts kind = some attempt)
    (phase : attempt.phase = .beginUnknown) (unseen : ∀ e ∈ log, ¬e.Names attempt.id) :
    Armed (.stored settled actor row new clock :: log) (some new) held kind attempt where
  has := has
  active := by rw [phase]; rfl
  free p b ho same := by
    obtain ⟨e, he, hn⟩ := hb.owned_names ho
    exact unseen e he (same ▸ hn)
  reason := by
    refine .inl ⟨phase, fun e he => ?_⟩
    rcases List.mem_cons.mp he with rfl | he
    · exact fun hn => hn
    · exact fun hn => unseen e he hn.names

theorem Armed.of_polled {old : Row} {pending : DeviceAttempt} {settled : Option Nat} {actor : Option String}
    {clock : Int} (hb : Book log (some old) used held) (has : old.attempts kind = some pending)
    (phase : pending.phase = .pending) (due : pending.nextPollAt ≤ clock)
      (alive : clock < pending.expiresAt) :
    Armed (.stored settled actor (some old) (old.withAttempt kind { pending with phase := .pollUnknown })
        clock :: log) (some (old.withAttempt kind { pending with phase := .pollUnknown })) held kind
      { pending with phase := .pollUnknown } where
  has := Row.withAttempt_attempts _ _ _
  active := rfl
  free p b ho := hb.quiet kind pending has phase p b ho
  reason := .inr ⟨rfl, [], settled, actor, old, _, clock, log, pending, rfl, has, phase, rfl,
    Row.withAttempt_attempts _ _ _, due, alive, fun x hx => by cases hx⟩

end Armed

end ClawRouter.Devices
