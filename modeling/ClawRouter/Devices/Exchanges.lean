/-
  Subject:   A grant of permission is exchanged at most once.

  The requests of an owner follow their rules, each for itself, and every answer keeps the book. So
  the book is in order in every run, whatever is lost, late, aborted or restarted.

  * **`exchanged_once`**: the exchanges and the credentials of an owner, in every run.
-/
import ClawRouter.Devices.Knowledge

namespace ClawRouter.Devices

open Awaiting

/-! ## 1. Runs -/

/-- What every step keeps of the owner and its calls. -/
structure Inv (w : World) (views : Nat → Standing) : Prop where
  core : Core w views
  follows : ∀ p program, w.processes p = some program → Follows rules program (views p) Outside
  idle : ∀ p, w.processes p = none →
    (views p).holds = false ∧ ∀ kind a, (views p).exchange ≠ .unspent kind a
  /-- Only the request that runs is between two awaits. -/
  turn : ∀ p c next, w.processes p = some (.call c next) → c.awaited = false → w.turn = some p
  clock : ∀ p, w.turn = some p → ∀ t, (views p).turn = some t → w.clock = t

section Runs

variable {w w' : World} {views : Nat → Standing} {codecs : Kind → Codec} {p : Nat}

theorem Core.arrive (h : Core w views) (hh : (views p).holds = false)
    (hex : ∀ kind a, (views p).exchange ≠ .unspent kind a) (hnone : w.exchanges p = none) :
    Core w (Function.update views p .initial) where
  holds q := by
    by_cases hq : q = p
    · subst hq
      rw [Function.update_self, ← h.holds q, hh]
      rfl
    · rw [Function.update_of_ne hq]
      exact h.holds q
  knows q hq := by
    by_cases e : q = p
    · subst e
      rw [Function.update_self] at hq
      cases hq
    · rw [Function.update_of_ne e] at hq ⊢
      refine (h.knows q hq).spend fun x kind a ho => ?_
      unfold heldOf at ho ⊢
      by_cases hx : x = p
      · subst hx
        rw [Function.update_self] at ho
        cases ho
      · rwa [Function.update_of_ne hx] at ho
  book := h.book.spend fun x kind a ho => by
    unfold heldOf at ho ⊢
    by_cases hx : x = p
    · subst hx
      rw [Function.update_self] at ho
      cases ho
    · rwa [Function.update_of_ne hx] at ho
  unstarted q hq := by
    by_cases e : q = p
    · rw [e]
      exact hnone
    · rw [Function.update_of_ne e] at hq
      exact h.unstarted q hq
  exchanges := h.exchanges

theorem resume_inv {program : Program Unit} (hcore : Core w views)
    (hfollows : ∀ q program, q ≠ p → w.processes q = some program → Follows rules program (views q) Outside)
    (hidle : ∀ q, q ≠ p → w.processes q = none →
      (views q).holds = false ∧ ∀ kind a, (views q).exchange ≠ .unspent kind a)
    (hturn : ∀ q c next, q ≠ p → w.processes q = some (.call c next) → c.awaited = true)
    (hp : Follows rules program (views p) Outside) (hclock : ∀ t, (views p).turn = some t → w.clock = t) :
    ∃ views', Inv (w.resume p program) views' := by
  cases program with
  | done r =>
    refine ⟨Function.update views p { views p with exchange := .spent }, ?_, fun q program hq => ?_,
      fun q hq => ?_, fun q c next hq hc => ?_, fun q hq => by cases hq⟩
    · exact hcore.less ⟨rfl, .inr rfl, .inl rfl, rfl, .inl rfl, .inl rfl⟩
        ⟨rfl, rfl, rfl, fun _ h => h, fun _ => Iff.rfl⟩ rfl
    · have hq : Function.update w.processes p none q = some program := hq
      by_cases e : q = p
      · rw [e, Function.update_self] at hq
        cases hq
      · rw [Function.update_of_ne e] at hq ⊢
        exact hfollows q program e hq
    · have hq : Function.update w.processes p none q = none := hq
      by_cases e : q = p
      · subst e
        rw [Function.update_self]
        exact ⟨hp, fun _ _ e => by cases e⟩
      · rw [Function.update_of_ne e] at hq ⊢
        exact hidle q e hq
    · have hq : Function.update w.processes p none q = some (.call c next) := hq
      by_cases e : q = p
      · rw [e, Function.update_self] at hq
        cases hq
      · rw [Function.update_of_ne e] at hq
        rw [hturn q c next e hq] at hc
        cases hc
  | call c next =>
    refine ⟨views, ?_, fun q program hq => ?_, fun q hq => ?_, fun q c' next' hq hc => ?_, fun q hq => ?_⟩
    · have h : Core (w.resume p (.call c next)) (Function.update views p (views p)) :=
        hcore.less (.refl _) ⟨rfl, rfl, rfl, fun _ h => h, fun _ => Iff.rfl⟩ rfl
      rwa [Function.update_eq_self] at h
    · have hq : Function.update w.processes p (some (.call c next)) q = some program := hq
      by_cases e : q = p
      · subst e
        rw [Function.update_self] at hq
        cases hq
        exact hp
      · rw [Function.update_of_ne e] at hq
        exact hfollows q program e hq
    · have hq : Function.update w.processes p (some (.call c next)) q = none := hq
      by_cases e : q = p
      · rw [e, Function.update_self] at hq
        cases hq
      · rw [Function.update_of_ne e] at hq
        exact hidle q e hq
    · have hq : Function.update w.processes p (some (.call c next)) q = some (.call c' next') := hq
      show (if c.awaited then none else some p) = some q
      by_cases e : q = p
      · subst e
        rw [Function.update_self] at hq
        cases hq
        rw [hc]
        rfl
      · rw [Function.update_of_ne e] at hq
        rw [hturn q c' next' e hq] at hc
        cases hc
    · have hq : (if c.awaited then none else some p) = some q := hq
      split at hq
      · cases hq
      · cases hq
        exact hclock

theorem program_follows (request : Request) : Follows rules (request.program codecs) .initial Outside := by
  cases request with
  | device kind key input => exact fetch_follows (flowOf_lawful codecs kind) key input
  | mutation writes => exact mutate_follows codecs writes
  | maintenance writes => exact maintain_follows writes

theorem Inv.still (h : Inv w views) (hw : Same w w') (ha : w'.actor = w.actor)
    (hp : w'.processes = w.processes) (ht : w'.turn = w.turn)
    (hclock : ∀ p, w.turn = some p → w'.clock = w.clock) : Inv w' views where
  core := by
    have hcore : Core w' (Function.update views 0 (views 0)) := h.core.less (.refl _) hw ha
    rwa [Function.update_eq_self] at hcore
  follows := by
    rw [hp]
    exact h.follows
  idle := by
    rw [hp]
    exact h.idle
  turn := by
    rw [hp, ht]
    exact h.turn
  clock p hturn t hv := by
    rw [ht] at hturn
    rw [hclock p hturn]
    exact h.clock p hturn t hv

def gone : Standing := { Standing.initial with exchange := .spent }

theorem Inv.restart (h : Inv w views) : Inv { w with
      inFlight := fun _ => none, holder := none, actor := none
      processes := fun _ => none, turn := none } fun _ => gone where
  core :=
    { holds := fun p => iff_of_false Bool.false_ne_true fun e => by cases e
      knows := fun p hp => by cases hp
      book := h.core.book.spend fun p kind a e => by cases e
      unstarted := fun p e => by cases e
      exchanges := h.core.exchanges }
  follows p program hp := by cases hp
  idle p _ := ⟨rfl, fun kind a e => by cases e⟩
  turn p c next hp := by cases hp
  clock p hp := by cases hp

theorem step_inv {a : Act} (h : Inv w views) (hs : step codecs w a = some w') : ∃ views', Inv w' views' := by
  cases a with
  | arrive p request =>
    simp only [step] at hs
    split at hs
    · rename_i free
      cases hs
      simp only [Bool.and_eq_true, Option.isNone_iff_eq_none] at free
      obtain ⟨⟨hturn, hproc⟩, hex⟩ := free
      obtain ⟨hholds, hspent⟩ := h.idle p hproc
      refine resume_inv (h.core.arrive hholds hspent hex) (fun q program hq hp => ?_) (fun q hq hp => ?_)
        (fun q c next hq hp => ?_) ?_ fun t ht => ?_
      · rw [Function.update_of_ne hq]
        exact h.follows q program hp
      · rw [Function.update_of_ne hq]
        exact h.idle q hp
      · by_contra hc
        rw [Bool.not_eq_true] at hc
        have e := h.turn q c next hp hc
        rw [hturn] at e
        cases e
      · rw [Function.update_self]
        exact program_follows request
      · rw [Function.update_self] at ht
        cases ht
    · cases hs
  | answer p choice =>
    simp only [step] at hs
    split at hs
    · rename_i mine
      split at hs
      · rename_i c next hproc
        obtain ⟨⟨r, w₁⟩, he, hs⟩ := Option.map_eq_some_iff.mp hs
        cases hs
        have follows := h.follows p _ hproc
        have hclock : c.awaited = false → ∀ t, (views p).turn = some t → w.clock = t :=
          fun hc => h.clock p (h.turn p c next hproc hc)
        obtain ⟨hpossible, hcore⟩ := answer_core h.core follows.allowed hclock he
        obtain ⟨hprocs, -, htime⟩ := answer_frame he
        refine resume_inv hcore (fun q program hq hp => ?_) (fun q hq hp => ?_)
          (fun q c' next' hq hp => ?_) ?_ fun t ht => ?_
        · rw [hprocs] at hp
          rw [Function.update_of_ne hq]
          exact h.follows q program hp
        · rw [hprocs] at hp
          rw [Function.update_of_ne hq]
          exact h.idle q hp
        · rw [hprocs] at hp
          by_contra hc
          rw [Bool.not_eq_true] at hc
          rw [h.turn q c' next' hp hc] at mine
          exact hq (of_decide_eq_true mine)
        · rw [Function.update_self]
          exact follows.next ⟨hpossible, rfl⟩
        · rw [Function.update_self] at ht
          rw [htime]
          exact answer_turn he hclock t ht
      · cases hs
    · cases hs
  | tick clock =>
    simp only [step] at hs
    split at hs
    · rename_i free
      cases hs
      refine ⟨views, h.still ⟨rfl, rfl, rfl, fun _ h => h, fun _ => Iff.rfl⟩ rfl rfl rfl fun p hp => ?_⟩
      rw [hp] at free
      cases free
    · cases hs
  | abort p =>
    cases hs
    exact ⟨views, h.still (.abort w p) rfl rfl rfl fun _ _ => rfl⟩
  | retire p =>
    simp only [step] at hs
    split at hs
    · split at hs
      · cases hs
        exact ⟨views, h.still ⟨rfl, rfl, rfl, fun _ h => h, fun _ => Iff.rfl⟩ rfl rfl rfl fun _ _ => rfl⟩
      · cases hs
    · cases hs
  | restart =>
    cases hs
    exact ⟨_, h.restart⟩

theorem initial_inv (h : Initial w) : Inv w fun _ => .initial where
  core :=
    { holds := fun p => by
        rw [h.holder]
        exact iff_of_false Bool.false_ne_true fun e => by cases e
      knows := fun p hp => by cases hp
      book := by
        rw [h.log]
        refine .empty (fun kind => ?_) fun p kind a e => by cases e
        cases hrow : w.row with
        | none => rfl
        | some row => exact h.attempts row kind hrow
      unstarted := fun p _ => h.exchanges p
      exchanges := fun p kind a clock hs => by
        rw [h.log] at hs
        cases hs }
  follows p program hp := by
    rw [h.processes p] at hp
    cases hp
  idle p _ := ⟨rfl, fun kind a e => by cases e⟩
  turn p c next hp := by
    rw [h.processes p] at hp
    cases hp
  clock p _ t ht := by cases ht

theorem run_inv {acts : List Act} {w₀ : World} (h₀ : Initial w₀) (h : Run codecs w₀ acts w) :
    ∃ views, Inv w views := by
  refine h.invariant (I := fun w => ∃ views, Inv w views) ⟨_, initial_inv h₀⟩ ?_
  rintro w a w' ⟨views, hinv⟩ hs
  exact step_inv hinv hs

end Runs

/-- **A grant of permission is exchanged at most once.** Whatever happens to an owner, an attempt starts
one begin exchange at most, each poll is of a reserved attempt, no two exchanges of an attempt are settled
out of turn, a closed attempt stays closed, and a credential is installed with the commit of its
attempt. -/
theorem exchanged_once (codecs : Kind → Codec) {w₀ w : World} {acts : List Act} (h₀ : Initial w₀)
    (h : Run codecs w₀ acts w) :
    BeginsOnce w.log ∧ PollsReserved w.log ∧ SettlesOnce w.log ∧ StaysClosed w.log ∧
      InstallsWhole w.log := by
  obtain ⟨views, hinv⟩ := run_inv h₀ h
  have hb := hinv.core.book
  exact ⟨hb.begins, hb.polls, hb.settles, hb.closes, hb.installs⟩

/-! ## 2. A device that is authorized -/

def play (codecs : Kind → Codec) : World → List Act → Option World
  | w, [] => some w
  | w, a :: acts => (step codecs w a).bind fun w' => play codecs w' acts

theorem play_run {codecs : Kind → Codec} {w w' : World} {acts : List Act}
    (h : play codecs w acts = some w') : Run codecs w acts w' := by
  induction acts generalizing w with
  | nil =>
    cases h
    exact .start
  | cons a acts ih =>
    obtain ⟨w₁, hs, h⟩ := Option.bind_eq_some_iff.mp h
    have first : Run codecs w [a] w₁ := .next .start hs
    exact first.trans (ih h)

def plainCodec : Codec where
  ownerBinding _ _ _ _ :=
  "binding"
  prepareBegin _ := .ok ()
  preparePoll _ _ := .ok ()
  decodeBegin _ _ _ := .ok (.authorization ⟨"code", "url", 5000, 600000⟩)
  decodePoll _ reply _ := .ok (if reply.status = 200 then .success
    ⟨"global", "binding", "token"⟩ else .pending 0)

def newOwner : World where
  row :=
  none
  clock := 1000
  used := []
  inFlight _ := none
  exchanges _ := none
  holder := none
  actor := none
  processes _ := none
  turn := none
  log := []

/-- A begin, a poll that comes too soon for the user, and one that brings the credential. -/
def authorization : List Act :=
  let admin := Choice.actor "admin"
  let ok := Choice.fine
  let settles : List Choice := [.reply ⟨"", 202⟩, ok, ok, admin, ok, ok, ok, ok, ok, ok, ok, ok]
  let begins : List Choice :=
    [admin, ok, admin, ok, ok, ok, .uuid "lineage", ok, admin, .uuid "attempt", ok, ok, ok, ok, admin, ok, ok,
      ok] ++ settles
  let starts : List Choice := [admin, ok, admin, ok, ok, ok, ok, ok, admin, ok, ok, ok]
  let commits : List Choice :=
    [.reply ⟨"", 200⟩, ok, ok, admin, ok, ok, ok, ok, .uuid "lineage2", ok, ok, admin, ok, ok, ok,
      ok, ok, ok, ok]
  let poll := Request.device .minimax "oauth/a/b" (.use .poll "attempt")
  .arrive 0 (.device .minimax "oauth/a/b" (.begin ⟨"global", "intent", 0, none⟩)) :: begins.map (.answer 0) ++
    .tick 6000 :: .arrive 1 poll :: (starts ++ settles).map (.answer 1) ++
    .tick 11000 :: .arrive 2 poll :: (starts ++ commits).map (.answer 2)

theorem newOwner_initial : Initial newOwner where
  attempts _ _ h := by cases h
  inFlight _ := rfl
  exchanges _ := rfl
  processes _ := rfl
  holder := rfl
  turn := rfl
  log := rfl

theorem authorization_played : (play (fun _ => plainCodec) newOwner authorization).map
        (fun w => ((attemptOf w.row .minimax).map DeviceAttempt.phase, w.log.length)) =
      some (some .committed, 11) := by
  decide +kernel

/-- A device that is authorized leaves a committed attempt, and the book in order. -/
theorem exchanged_once_authorized : ∃ w, Run (fun _ => plainCodec) newOwner authorization w ∧
    (attemptOf w.row .minimax).map DeviceAttempt.phase = some .committed ∧
    BeginsOnce w.log ∧ PollsReserved w.log ∧ SettlesOnce w.log ∧ StaysClosed w.log ∧ InstallsWhole w.log := by
  obtain ⟨w, hw, e⟩ := Option.map_eq_some_iff.mp authorization_played
  have hrun : Run (fun _ => plainCodec) newOwner authorization w := play_run hw
  exact ⟨w, hrun, congrArg Prod.fst e, exchanged_once (fun _ => plainCodec) newOwner_initial hrun⟩

end ClawRouter.Devices
