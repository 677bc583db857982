/-
  Subject:   The jobs of `read.finally` and of the retirement, round by round.

  A retirement waits for the pull that `finish` found. It finds none where the source was interrupted
  while the pull was still calling its read: `pulling` is set after that call. Such a retirement joins
  the read itself. The pull has four jobs left when the read settles and the retirement six, and what
  a job queues runs in the next round: the pull is over first.

  * `Chains`, `chains_step`: the invariant, kept by every step.
-/
import ClawRouter.Delivery.Outcome

namespace ClawRouter.ObserveUsage

open Continuation

variable {platform : Platform} {config : Config} {s s' : State platform}

/-! ## 1. The jobs of the read and of the retirement -/

/-- A retirement that found no pull, and the pull whose read was just being called. -/
def Lone (s : State platform) : Prop :=
  match s.pull with
  | .idle => True
  | .reading => s.retirement = .settling true
  | .read _ hop due =>
    match s.retirement with
    | .settling _ => True
    | .closing closed at' => due + closed ≤ at' + hop
    | _ => False
  | _ => False

def Retirement.begun : Retirement → Bool
  | .live | .settling _ => false
  | _ => true

def Retirement.certified : Retirement → Bool
  | .certifying _ | .retired => true
  | _ => false

/-- What every step keeps of the jobs of a round. -/
structure Chains (s : State platform) : Prop where
  pulling : s.pulling = false ↔ s.pull = .idle
  pending : s.pull = .reading → s.input.pending = true
  due : ∀ result hop due, s.pull = .read result hop due →
    s.round ≤ due ∧ due ≤ s.round + 1 ∧ 1 ≤ hop ∧ hop ≤ finallyHops
  closing : ∀ hop due, s.retirement = .closing hop due → s.round ≤ due
  cancelled : s.retirement.begun = true → s.input.cancelling = false
  certified : s.retirement.certified = true → s.pull = .idle
  lone : s.finished = true → s.joins = false → Lone s

/-- The pull waits for a promise of the inspection, or for its `catch`. -/
def Pull.inspecting : Pull → Bool
  | .awaiting _ _ _ | .settled _ _ _ _ | .thrown => true
  | _ => false

/-- What the code after an await may do to the two chains. -/
structure Moves (s s' : State platform) : Prop where
  round : s'.round = s.round
  pull : s'.pull = .idle ∧ s'.pulling = false ∨ s'.pull.inspecting = true ∧ s'.pulling = s.pulling
  retirement :
    s'.finished = s.finished ∧ s'.retirement = s.retirement ∧ s'.joins = s.joins ∧
        s'.input.cancelling = s.input.cancelling ∨
      s.finished = false ∧ s'.joins = s.pulling ∧ ∃ read, s'.retirement = .settling read

theorem pulled_moves (s : State platform) : Moves s s.pulled :=
  ⟨rfl, .inl ⟨rfl, rfl⟩, .inl ⟨rfl, rfl, rfl, rfl⟩⟩

theorem ends_moves (hf : s.finished = false) (cause : Cause) (downstream : Downstream) :
    Moves s (s.ends cause downstream).pulled :=
  ⟨rfl, .inl ⟨rfl, rfl⟩, .inr ⟨hf, rfl, s.input.pending, rfl⟩⟩

theorem catches_moves (ho : Outcome s) : Moves s s.catches := by
  cases hf : s.finished with
  | true => rw [catches_ended hf]; exact pulled_moves s
  | false => rw [catches_open ho hf]; exact ends_moves hf .upstream .errored

theorem invoke_moves (work : Work) (call : Callback) (rest : List Callback) :
    Moves s (s.invoke config work call rest) := by
  obtain ⟨pull, continuation, pushed, e⟩ := @invoke_eq _ config s work call rest
  have hscan : ∀ (t : State platform) scanned, (t.scan work call rest scanned).pull.inspecting = true := by
    intro t scanned
    unfold State.scan
    dsimp only
    split_ifs <;> rfl
  have hpull : (s.invoke config work call rest).pull.inspecting = true := by
    unfold State.invoke
    split
    · exact hscan _ _
    · exact hscan _ _
    · rfl
  rw [e] at hpull ⊢
  exact ⟨rfl, .inr ⟨hpull, rfl⟩, .inl ⟨rfl, rfl, rfl, rfl⟩⟩

theorem goesOn_moves (ho : Outcome s) (work : Work) (rest : List Callback) (throws : Bool) :
    Moves s (s.goesOn config work rest throws) := by
  unfold State.goesOn
  split_ifs with hf ht
  · exact pulled_moves s
  · exact catches_moves ho
  · have hopen : s.finished = false := by simpa using hf
    cases rest with
    | cons call rest => exact invoke_moves work call rest
    | nil =>
      cases work with
      | chunk chunk => exact ⟨rfl, .inl ⟨rfl, rfl⟩, .inl ⟨rfl, rfl, rfl, rfl⟩⟩
      | done => rw [completes ho hopen]; exact ends_moves hopen .complete .closed

theorem afterRead_moves (ho : Outcome s) (result : Option Work) (throws : Bool) :
    Moves s (s.afterRead config result throws) := by
  match result with
  | none => exact catches_moves ho
  | some (.chunk chunk) => exact goesOn_moves ho (.chunk chunk) config.chunkCalls throws
  | some .done => exact goesOn_moves ho .done config.endCalls throws

theorem thrown_moves (ho : Outcome s) : Moves s { s.stop .publication with pull := .thrown } := by
  cases hf : s.finished with
  | true =>
    rw [stop_ended ho .publication hf]
    exact ⟨rfl, .inr ⟨rfl, rfl⟩, .inl ⟨rfl, rfl, rfl, rfl⟩⟩
  | false =>
    rw [stop_open ho .publication hf]
    exact ⟨rfl, .inr ⟨rfl, rfl⟩, .inr ⟨hf, rfl, s.input.pending, rfl⟩⟩

theorem afterCall_moves (ho : Outcome s) (work : Work) (call : Callback) (rest : List Callback)
    (ok throws : Bool) : Moves s (s.afterCall config work call rest ok throws) := by
  have hcalled : Outcome { s with calls := s.calls ++ [(call, ok)] } :=
    ho.of_same ⟨rfl, rfl, rfl, rfl, rfl, rfl, Iff.rfl⟩
  have hback : ∀ {s'}, Moves { s with calls := s.calls ++ [(call, ok)] } s' → Moves s s' :=
    fun hm => ⟨hm.round, hm.pull, hm.retirement⟩
  unfold State.afterCall
  split_ifs with hok hguard
  · exact hback (goesOn_moves hcalled work rest throws)
  · exact hback (thrown_moves hcalled)
  · exact hback (catches_moves hcalled)

theorem Chains.moves (h : Chains s) (hp : s.pull ≠ .idle) (hm : Moves s s')
    (hl : s.finished = true → s.joins = false → s'.pull = .idle) : Chains s' := by
  have hpulling : s.pulling = true := by
    cases e : s.pulling with
    | true => rfl
    | false => exact absurd (h.pulling.mp e) hp
  have hnot : s.retirement.certified = false := by
    cases e : s.retirement.certified with
    | false => rfl
    | true => exact absurd (h.certified e) hp
  have hread : s'.pull ≠ .reading ∧ ∀ result hop due, s'.pull ≠ .read result hop due := by
    rcases hm.pull with ⟨e, _⟩ | ⟨e, _⟩
    · simp [e]
    · cases hpull : s'.pull <;> rw [hpull] at e <;> simp_all [Pull.inspecting]
  refine ⟨?_, fun e => absurd e hread.1, fun result hop due e => absurd e (hread.2 result hop due),
    ?_, ?_, ?_, ?_⟩
  · rcases hm.pull with ⟨e, e'⟩ | ⟨e, e'⟩
    · rw [e, e']; simp
    · rw [e', hpulling]
      cases hpull : s'.pull <;> rw [hpull] at e <;> simp_all [Pull.inspecting]
  · intro hop due e
    rcases hm.retirement with ⟨_, er, _, _⟩ | ⟨_, _, read, er⟩
    · rw [er] at e
      rw [hm.round]
      exact h.closing hop due e
    · rw [er] at e
      cases e
  · intro e
    rcases hm.retirement with ⟨_, er, _, ec⟩ | ⟨_, _, read, er⟩
    · rw [er] at e
      rw [ec]
      exact h.cancelled e
    · rw [er] at e
      cases e
  · intro e
    rcases hm.retirement with ⟨_, er, _, _⟩ | ⟨_, _, read, er⟩
    · rw [er, hnot] at e
      cases e
    · rw [er] at e
      cases e
  · intro hf hj
    rcases hm.retirement with ⟨ef, _, ej, _⟩ | ⟨_, ej, _⟩
    · have hidle := hl (ef ▸ hf) (ej ▸ hj)
      unfold Lone
      rw [hidle]
      trivial
    · rw [ej, hpulling] at hj
      cases hj

theorem interrupted_chains (ho : Outcome s) (h : Chains s) {i : Interrupt} (hi : i.Foreign) :
    Chains (s.interrupted i) := by
  cases hf : s.finished with
  | true => rw [interrupted_ended ho i hf]; exact h
  | false =>
    obtain ⟨cause, downstream, _, _, e⟩ := interrupted_open ho hi hf
    rw [e]
    refine ⟨h.pulling, ?_, h.due, fun _ _ er => (by cases er), fun er => (by cases er), fun er =>
      (by cases er), ?_⟩
    · intro hp
      show (s.input.retire _).pending = true
      unfold InputRetirement.retire
      split_ifs <;> exact h.pending hp
    · intro _ hj
      have hidle := h.pulling.mp hj
      unfold Lone
      rw [show (s.ends cause downstream).pull = s.pull from rfl, hidle]
      trivial

theorem reads_pull (s : State platform) : s.reads.pull = .reading ∧ s.reads.input.pending = true ∨
      s.reads.pull = .read none finallyHops (s.round + 1) := by
  unfold State.reads
  split_ifs with hno
  · exact .inr rfl
  · exact .inl ⟨rfl, rfl⟩

theorem reads_due (s : State platform) (result : Option Work) (hop due : Nat)
    (e : s.reads.pull = .read result hop due) :
    s.round ≤ due ∧ due ≤ s.round + 1 ∧ 1 ≤ hop ∧ hop ≤ finallyHops := by
  rcases reads_pull s with ⟨er, _⟩ | er
  · rw [er] at e; cases e
  · rw [er] at e
    cases e
    exact ⟨by omega, by omega, by decide, by decide⟩

theorem reads_ne_idle (s : State platform) : s.reads.pull ≠ .idle := by
  rcases reads_pull s with ⟨er, _⟩ | er <;> rw [er] <;> simp

theorem reads_keeps (s : State platform) :
    s.reads.round = s.round ∧ s.reads.retirement = s.retirement ∧ s.reads.finished = s.finished ∧
      s.reads.pulling = s.pulling := by
  unfold State.reads
  split_ifs <;> exact ⟨rfl, rfl, rfl, rfl⟩

theorem pull_chains (ho : Outcome s) (hd : s.downstream = .readable) :
    Chains { s.reads with pulling := true } := by
  obtain ⟨hround, hret, hfin, _⟩ := reads_keeps s
  have hf := ho.downstream.mp hd
  have hlive : s.reads.retirement = .live := hret.trans (ho.live.mpr hf)
  refine ⟨?_, ?_, ?_, fun hop due er => ?_, fun er => ?_, fun er => ?_, fun hfin' => ?_⟩
  · exact ⟨fun e => (by cases e), fun e => absurd e (reads_ne_idle s)⟩
  · intro e
    rcases reads_pull s with ⟨_, hp⟩ | er
    · exact hp
    · rw [show s.reads.pull = .reading from e] at er
      cases er
  · intro result hop due e
    rw [hround]
    exact reads_due s result hop due e
  · rw [show s.reads.retirement = .closing hop due from er] at hlive
    cases hlive
  · rw [hlive] at er
    cases er
  · rw [hlive] at er
    cases er
  · rw [hfin, hf] at hfin'
    cases hfin'

/-- A pull whose read is interrupted before `pulling` is set: the retirement finds no pull, and joins
the read. -/
theorem pull_interrupted_chains (ho : Outcome s) (hd : s.downstream = .readable) {i : Interrupt}
    (hi : i.Foreign) :
    Chains { s.reads.interrupted i with pulling := true } := by
  obtain ⟨hround, _, hfin, hpulling⟩ := reads_keeps s
  have hf := ho.downstream.mp hd
  obtain ⟨cause, downstream, _, _, e⟩ := interrupted_open (ho.of_same (reads_same s)) hi (hfin.trans hf)
  have hpending : s.reads.pull = .reading →
      s.reads.input.pending = true ∧ (s.reads.ends cause downstream).input.pending = true := by
    intro er
    rcases reads_pull s with ⟨_, hpend⟩ | er'
    · refine ⟨hpend, ?_⟩
      show (s.reads.input.retire _).pending = true
      unfold InputRetirement.retire
      split_ifs <;> exact hpend
    · rw [er] at er'
      cases er'
  rw [e]
  refine ⟨?_, fun er => (hpending er).2, ?_, fun _ _ er => (by cases er), fun er => (by cases er),
    fun er => (by cases er), ?_⟩
  · exact ⟨fun er => (by cases er), fun er => absurd er (reads_ne_idle s)⟩
  · intro result hop due er
    show s.reads.round ≤ due ∧ due ≤ s.reads.round + 1 ∧ _
    rw [hround]
    exact reads_due s result hop due er
  · intro _ _
    show match s.reads.pull with
      | .idle => True
      | .reading => Retirement.settling s.reads.input.pending = .settling true
      | .read _ _ _ => True
      | _ => False
    rcases reads_pull s with ⟨er, _⟩ | er
    · rw [er, (hpending er).1]
    · rw [er]
      trivial

theorem settled_chains (h : Chains s) {work : Work} {call : Callback} {rest : List Callback}
    (hp : s.pull = .awaiting work call rest) (hm : Moves s s') : Chains s' := by
  refine h.moves (by rw [hp]; simp) hm fun hf hj => ?_
  have hl := h.lone hf hj
  unfold Lone at hl
  rw [hp] at hl
  cases hl

theorem answered_chains (h : Chains s) (hp : s.pull = .reading) (result : Option Work) :
    Chains (s.answered result) := by
  have hkeep : ∃ body ended, s.answered result =
      { s with pull := .read result 1 (s.round + 1), body := body, ended := ended } := by
    match result with
    | none => exact ⟨s.body, s.ended, rfl⟩
    | some (.chunk chunk) => exact ⟨s.body ++ [chunk], s.ended, rfl⟩
    | some .done => exact ⟨s.body, true, rfl⟩
  obtain ⟨body, ended, e⟩ := hkeep
  rw [e]
  have hne : s.pull ≠ .idle := by rw [hp]; simp
  refine ⟨⟨fun er => absurd (h.pulling.mp er) hne, fun er => (by cases er)⟩, fun er => (by cases er), ?_,
    h.closing, h.cancelled, fun er => absurd (h.certified er) hne, fun hf hj => ?_⟩
  · intro result' hop due er
    cases er
    show s.round ≤ s.round + 1 ∧ s.round + 1 ≤ s.round + 1 ∧ 1 ≤ 1 ∧ 1 ≤ finallyHops
    exact ⟨by omega, by omega, by omega, by decide⟩
  · have hl := h.lone hf hj
    unfold Lone at hl ⊢
    rw [hp] at hl
    simp only at hl ⊢
    rw [hl]
    trivial

theorem settle_chains (h : Chains s) {result : Option Work} {hop due : Nat}
    (hp : s.pull = .read result hop due) (hlt : hop < finallyHops) (he : due = s.round) : Chains { s with
      pull := .read result (hop + 1) (s.round + 1), input := { s.input with pending := false } } := by
  have hne : s.pull ≠ .idle := by rw [hp]; simp
  refine ⟨⟨fun er => absurd (h.pulling.mp er) hne, fun er => (by cases er)⟩, fun er => (by cases er), ?_,
    h.closing, h.cancelled, fun er => absurd (h.certified er) hne, fun hf hj => ?_⟩
  · intro result' hop' due' er
    cases er
    show s.round ≤ s.round + 1 ∧ s.round + 1 ≤ s.round + 1 ∧ 1 ≤ hop + 1 ∧ hop + 1 ≤ finallyHops
    exact ⟨by omega, by omega, by omega, hlt⟩
  · have hl := h.lone hf hj
    unfold Lone at hl ⊢
    rw [hp] at hl
    simp only at hl ⊢
    cases hr : s.retirement <;> rw [hr] at hl <;> simp only at hl ⊢
    omega

theorem retire_chains (h : Chains s) {retirement : Retirement}
    (hclosing : ∀ hop due, retirement = .closing hop due → s.round ≤ due)
    (hcancelled : retirement.begun = true → s.input.cancelling = false)
    (hcertified : retirement.certified = true → s.pull = .idle)
    (hlone : s.finished = true → s.joins = false → Lone s → Lone { s with retirement := retirement }) :
    Chains { s with retirement := retirement } :=
  ⟨h.pulling, h.pending, h.due, hclosing, hcancelled, hcertified, fun hf hj => hlone hf hj (h.lone hf hj)⟩

/-- Where the retirement joined no pull, the read of a late one has settled before the retirement has. -/
theorem lone_idle (h : Chains s) (hl : Lone s) {due : Nat} (hr : s.retirement = .closing closingHops due)
    (he : due = s.round) : s.pull = .idle := by
  unfold Lone at hl
  cases hp : s.pull with
  | idle => rfl
  | reading => rw [hp, hr] at hl; cases hl
  | read result hop due' =>
    rw [hp, hr] at hl
    obtain ⟨h1, _, _, h4⟩ := h.due result hop due' hp
    simp only [closingHops, finallyHops] at hl h4
    omega
  | awaiting work call rest | settled work call rest ok | thrown => rw [hp] at hl; cases hl

theorem retireSettled_chains (h : Chains s) {read : Bool} (hr : s.retirement = .settling read)
    (hread : read = true → s.pull ≠ .reading) (hc : s.input.cancelling = false) :
    Chains { s with retirement := .closing 1 (s.round + 1) } := by
  refine retire_chains h (fun hop due e => ?_) (fun _ => hc) (fun e => (by cases e)) fun _ _ hl => ?_
  · cases e
    omega
  · -- the read has settled, so a late pull has at most its jobs left
    unfold Lone at hl ⊢
    cases hp : s.pull with
    | idle => trivial
    | reading =>
      rw [hp, hr] at hl
      cases hl
      exact absurd hp (hread rfl)
    | read result hop due =>
      obtain ⟨_, h2, h3, _⟩ := h.due result hop due hp
      omega
    | awaiting work call rest | settled work call rest ok | thrown => rw [hp] at hl; cases hl

theorem retireJoined_chains (ho : Outcome s) (h : Chains s) (hr : s.retirement = .joining)
    (hj : s.joins = true → s.pull = .idle) : Chains { s with retirement := .certifying (s.round + 1) } := by
  have hidle : s.finished = true → s.pull = .idle := by
    intro hf
    cases hjoins : s.joins with
    | true => exact hj hjoins
    | false =>
      have hl := h.lone hf hjoins
      unfold Lone at hl
      cases hp : s.pull <;> rw [hp, hr] at hl <;> first | rfl | cases hl
  have hfin : s.finished = true := by
    cases hf : s.finished with
    | true => rfl
    | false =>
      have := ho.live.mpr hf
      rw [hr] at this
      cases this
  refine retire_chains h (fun hop due e => (by cases e)) (fun _ => h.cancelled (by rw [hr]; rfl))
    (fun _ => hidle hfin) fun _ _ _ => ?_
  rw [show ({ s with retirement := .certifying (s.round + 1) } : State platform).pull =
    s.pull from rfl, hidle hfin]
  trivial

theorem round_chains (h : Chains s) (hb : s.busy = false) : Chains { s with round := s.round + 1 } := by
  unfold State.busy at hb
  rw [Bool.or_eq_false_iff] at hb
  refine ⟨h.pulling, h.pending, fun result hop due e => ?_, fun hop due e => ?_, h.cancelled,
    h.certified, h.lone⟩
  · have hd := h.due result hop due e
    have hne := hb.1
    rw [show s.pull = .read result hop due from e] at hne
    simp only [decide_eq_false_iff_not] at hne
    refine ⟨?_, ?_, hd.2.2⟩
    · show s.round + 1 ≤ due
      omega
    · show due ≤ s.round + 1 + 1
      omega
  · have hd := h.closing hop due e
    have hne := hb.2
    rw [show s.retirement = .closing hop due from e] at hne
    simp only [decide_eq_false_iff_not] at hne
    show s.round + 1 ≤ due
    omega

/-- **Every step keeps it.** -/
theorem chains_step {a : Label} (ho : Outcome s) (h : Chains s) (hs : Step config s a s') : Chains s' := by
  cases hs with
  | pull hd hp => exact pull_chains ho hd
  | pullInterrupted hd hp hi => exact pull_interrupted_chains ho hd hi
  | interrupt hi => exact interrupted_chains ho h hi
  | @read result hp => exact answered_chains h hp result
  | settle hp hlt he => exact settle_chains h hp hlt he
  | @afterRead result due throws hp he =>
    refine h.moves (by rw [hp]; simp) (afterRead_moves ho result throws) fun hf _ => ?_
    match result with
    | none =>
      show s.catches.pull = .idle
      rw [catches_ended hf]
      rfl
    | some (.chunk _) | some .done =>
      show (s.goesOn config _ _ throws).pull = .idle
      unfold State.goesOn
      rw [hf]
      rfl
  | reply hp _ _ _ | refused hp _ _ _
  | fulfil hp _ => exact settled_chains h hp ⟨rfl, .inr ⟨rfl, rfl⟩, .inl ⟨rfl, rfl, rfl, rfl⟩⟩
  | @afterCall work call rest ok throws hp =>
    refine h.moves (by rw [hp]; simp) (afterCall_moves ho work call rest ok throws) fun hf hj => ?_
    have hl := h.lone hf hj
    unfold Lone at hl
    rw [hp] at hl
    cases hl
  | thrown hp =>
    refine h.moves (by rw [hp]; simp) (catches_moves ho) fun hf hj => ?_
    rw [catches_ended hf]
    rfl
  | cancelled _ =>
    exact ⟨h.pulling, h.pending, h.due, h.closing, fun _ => rfl, h.certified, h.lone⟩
  | retireSettled hr hread hc => exact retireSettled_chains h hr hread hc
  | @retireHop hop due hr hlt he =>
    refine retire_chains h (fun hop' due' e => ?_) (fun _ => h.cancelled (by rw [hr]; rfl))
      (fun e => (by cases e)) fun _ _ hl => ?_
    · cases e
      omega
    · unfold Lone at hl ⊢
      cases hp : s.pull <;> rw [hp, hr] at hl <;> simp only at hl ⊢
      · cases hl
      · omega
  | @retireClosed due hr he =>
    refine retire_chains h (fun hop due e => (by cases e)) (fun _ => h.cancelled (by rw [hr]; rfl))
      (fun e => (by cases e)) fun _ _ hl => ?_
    rw [show ({ s with retirement := .joining } : State platform).pull = s.pull from rfl,
      lone_idle h hl hr he]
    trivial
  | retireJoined hr hj => exact retireJoined_chains ho h hr hj
  | retired hr he =>
    have hidle := h.certified (by rw [hr]; rfl)
    refine retire_chains h (fun hop due e => (by cases e)) (fun _ => h.cancelled (by rw [hr]; rfl))
      (fun _ => hidle) fun _ _ _ => ?_
    rw [show ({ s with retirement := .retired } : State platform).pull = s.pull from rfl, hidle]
    trivial
  | round hb => exact round_chains h hb

end ClawRouter.ObserveUsage
