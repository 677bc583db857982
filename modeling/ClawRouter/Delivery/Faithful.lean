/-
  Subject:   Observed delivery is faithful, published first and settled once.

  * `Observed`: what holds in every state; **`observe_usage`**: it does.
-/
import ClawRouter.Delivery.Published
import ClawRouter.Delivery.Retirement

namespace ClawRouter.ObserveUsage

open Continuation Trace

variable {platform : Platform} {config : Config} {s s' : State platform}

/-! ## 1. What a step enqueues, and what it can do after the end -/

/-- What the code after an await may enqueue: one chunk, of an open delivery. It publishes nothing. -/
structure Enqueues (s s' : State platform) : Prop where
  published : s'.published = s.published
  enqueued : s'.enqueued = s.enqueued ∨
    s.finished = false ∧ ∃ chunk, s'.enqueued = s.enqueued ++ [chunk]

theorem Enqueues.nothing (h : s'.published = s.published) (h' : s'.enqueued = s.enqueued) :
    Enqueues s s' := ⟨h, .inl h'⟩

theorem catches_enqueues (ho : Outcome s) : Enqueues s s.catches := by
  cases hf : s.finished with
  | true => rw [catches_ended hf]; exact .nothing rfl rfl
  | false => rw [catches_open ho hf]; exact .nothing rfl rfl

theorem goesOn_enqueues (ho : Outcome s) (work : Work) (rest : List Callback) (throws : Bool) :
    Enqueues s (s.goesOn config work rest throws) := by
  unfold State.goesOn
  split_ifs with hf ht
  · exact .nothing rfl rfl
  · exact catches_enqueues ho
  · have hopen : s.finished = false := by simpa using hf
    cases rest with
    | cons call rest =>
      obtain ⟨pull, continuation, pushed, e⟩ := @invoke_eq _ config s work call rest
      show Enqueues s (s.invoke config work call rest)
      rw [e]
      exact .nothing rfl rfl
    | nil =>
      cases work with
      | chunk chunk => exact ⟨rfl, .inr ⟨hopen, chunk, rfl⟩⟩
      | done => rw [completes ho hopen]; exact .nothing rfl rfl

theorem stop_enqueues (ho : Outcome s) (cause : Cause) : Enqueues s (s.stop cause) := by
  cases hf : s.finished with
  | true => rw [stop_ended ho cause hf]; exact .nothing rfl rfl
  | false => rw [stop_open ho cause hf]; exact .nothing rfl rfl

theorem interrupted_enqueues (ho : Outcome s) {i : Interrupt} (hi : i.Foreign) : Enqueues s (s.interrupted i) := by
  cases hf : s.finished with
  | true => rw [interrupted_ended ho i hf]; exact .nothing rfl rfl
  | false =>
    obtain ⟨cause, downstream, _, _, e⟩ := interrupted_open ho hi hf
    rw [e]
    exact .nothing rfl rfl

theorem step_enqueues {a : Label} (ho : Outcome s) (hs : Step config s a s') : s'.enqueued = s.enqueued ∨
      s.finished = false ∧ s'.published = s.published ∧ ∃ chunk, s'.enqueued = s.enqueued ++ [chunk] := by
  have hof : ∀ {t : State platform}, Enqueues s t → t.enqueued = s.enqueued ∨
      s.finished = false ∧ t.published = s.published ∧ ∃ chunk, t.enqueued = s.enqueued ++ [chunk] :=
    fun h => h.enqueued.imp_right fun hc => ⟨hc.1, h.published, hc.2⟩
  have hreads : s.reads.enqueued = s.enqueued := by
    unfold State.reads
    split_ifs <;> rfl
  cases hs with
  | pull _ _ => exact .inl hreads
  | pullInterrupted hd _ hi =>
    left
    have he := (interrupted_enqueues (ho.of_same (reads_same s)) hi).enqueued
    rcases he with he | ⟨_, chunk, he⟩
    · exact he.trans hreads
    · obtain ⟨cause, downstream, _, _, e⟩ :=
        interrupted_open (ho.of_same (reads_same s)) hi ((reads_same s).finished.trans (ho.downstream.mp hd))
      rw [e] at he
      simp [State.ends] at he
  | interrupt hi => exact hof (interrupted_enqueues ho hi)
  | @read result _ =>
    left
    rcases result with _ | ⟨_ | _⟩ <;> rfl
  | @afterRead result _ throws _ _ =>
    cases result with
    | none => exact hof (catches_enqueues ho)
    | some read =>
      cases read with
      | chunk chunk => exact hof (goesOn_enqueues ho (.chunk chunk) config.chunkCalls throws)
      | done => exact hof (goesOn_enqueues ho .done config.endCalls throws)
  | @afterCall work call rest ok throws _ =>
    have hcalled : Outcome { s with calls := s.calls ++ [(call, ok)] } :=
      ho.of_same ⟨rfl, rfl, rfl, rfl, rfl, rfl, Iff.rfl⟩
    have hback : ∀ {t}, Enqueues { s with calls := s.calls ++ [(call, ok)] } t → Enqueues s t :=
      fun h => ⟨h.published, h.enqueued⟩
    refine hof ?_
    unfold State.afterCall
    split_ifs with hok hguard
    · exact hback (goesOn_enqueues hcalled work rest throws)
    · have hstop := hback (stop_enqueues hcalled .publication)
      exact ⟨hstop.published, hstop.enqueued⟩
    · exact hback (catches_enqueues hcalled)
  | thrown _ => exact hof (catches_enqueues ho)
  | settle _ _ _ | reply _ _ _ _ | refused _ _ _ _ | fulfil _ _ | cancelled _ | retireSettled _ _ _ | retireHop _ _ _
  | retireClosed _ _ | retireJoined _ _ | retired _ _ | round _ => exact .inl rfl

structure Over (s s' : State platform) : Prop where
  finished : s'.finished = s.finished
  enqueued : s'.enqueued = s.enqueued
  results : s'.results = s.results
  reads : s'.input.reads = s.input.reads
  cancels : s'.input.cancels = s.input.cancels

theorem step_over {a : Label} (ho : Outcome s) (hf : s.finished = true) (hs : Step config s a s') : Over s s' := by
  have hreadable : s.downstream ≠ .readable := fun hd => by
    rw [ho.downstream.mp hd] at hf
    cases hf
  have hpulled : Over s s.pulled := ⟨rfl, rfl, rfl, rfl, rfl⟩
  have hgoes : ∀ (work : Work) (rest : List Callback) (throws : Bool), Over s (s.goesOn config work rest throws) := by
    intro work rest throws
    unfold State.goesOn
    rw [if_pos hf]
    exact hpulled
  cases hs with
  | pull hd _ | pullInterrupted hd _ _ => exact absurd hd hreadable
  | @interrupt i _ => rw [interrupted_ended ho i hf]; exact ⟨rfl, rfl, rfl, rfl, rfl⟩
  | @read result _ =>
    match result with
    | none | some (.chunk _) | some .done => exact ⟨rfl, rfl, rfl, rfl, rfl⟩
  | @afterRead result _ throws _ _ =>
    match result with
    | none =>
      show Over s s.catches
      rw [catches_ended hf]
      exact hpulled
    | some (.chunk chunk) => exact hgoes (.chunk chunk) config.chunkCalls throws
    | some .done => exact hgoes .done config.endCalls throws
  | @afterCall work call rest ok throws _ =>
    have hcalled : Outcome { s with calls := s.calls ++ [(call, ok)] } :=
      ho.of_same ⟨rfl, rfl, rfl, rfl, rfl, rfl, Iff.rfl⟩
    unfold State.afterCall
    dsimp only
    split_ifs with hok hguard
    · unfold State.goesOn
      rw [if_pos hf]
      exact ⟨rfl, rfl, rfl, rfl, rfl⟩
    · rw [stop_ended hcalled .publication hf]
      exact ⟨rfl, rfl, rfl, rfl, rfl⟩
    · rw [catches_ended (s := { s with calls := s.calls ++ [(call, ok)] }) hf]
      exact ⟨rfl, rfl, rfl, rfl, rfl⟩
  | thrown _ => rw [catches_ended hf]; exact hpulled
  | settle _ _ _ | reply _ _ _ _ | refused _ _ _ _ | fulfil _ _ | cancelled _ | retireSettled _ _ _ | retireHop _ _ _
  | retireClosed _ _ | retireJoined _ _ | retired _ _ | round _ => exact ⟨rfl, rfl, rfl, rfl, rfl⟩

/-! ## 2. Every run -/

structure Sound (config : Config) (s : State platform) : Prop where
  outcome : Outcome s
  bytes : Bytes config s
  chains : Chains s

theorem sound_step {a : Label} (h : Sound config s) (hs : Step config s a s') : Sound config s' :=
  ⟨outcome_step h.outcome hs, bytes_step h.outcome h.bytes hs, chains_step h.outcome h.chains hs⟩

theorem sound_fresh {continuation : HttpContinuation platform} (hown : continuation.owner.isSome)
    (hcount : continuation.publishedCount = continuation.evidence.length) :
    Sound config (start ⟨none⟩ continuation) := by
  have hreg : Registered continuation continuation.evidence :=
    ⟨hown, hcount.le, fun identity hm => List.mem_of_mem_take hm⟩
  refine ⟨⟨rfl, ?_, rfl, rfl, rfl, ?_⟩, ⟨⟨List.prefix_refl _, ?_, hreg⟩, fun _ =>
    ⟨rfl, rfl, fun _ => rfl⟩, ?_⟩,
    ⟨?_, ?_, ?_, ?_, ?_, ?_, ?_⟩⟩
  all_goals simp [start, Retirement.begun, Retirement.certified]

theorem start_aborted {cause : Cause} (continuation : HttpContinuation platform) :
    start ⟨some cause⟩ continuation = (start ⟨none⟩ continuation).interrupted (.abort cause) := by
  cases cause <;> rfl

theorem sound_start {operation : HttpOperation} {continuation : HttpContinuation platform}
    (hop : operation.ending ≠ some .complete) (hown : continuation.owner.isSome)
    (hcount : continuation.publishedCount = continuation.evidence.length) :
    Sound config (start operation continuation) := by
  have hfresh : Sound config (start ⟨none⟩ continuation) := sound_fresh hown hcount
  obtain ⟨ending⟩ := operation
  cases ending with
  | none => exact hfresh
  | some cause =>
    have hforeign : (Interrupt.abort cause).Foreign := fun e => hop (by rw [e])
    rw [start_aborted]
    exact sound_step hfresh (.interrupt hforeign)

theorem sound_run {operation : HttpOperation} {continuation : HttpContinuation platform}
    (hop : operation.ending ≠ some .complete) (hown : continuation.owner.isSome)
    (hcount : continuation.publishedCount = continuation.evidence.length) {tr : List Label}
    (h : Run (Step config) (start operation continuation) tr s) : Sound config s :=
  h.invariant (sound_start hop hown hcount) fun _ _ _ hi hs => sound_step hi hs

theorem over_run {tr : List Label} (hs : Sound config s) (hf : s.finished = true)
    (h : Run (Step config) s tr s') : Over s s' := by
  have hboth : Sound config s' ∧ Over s s' := by
    refine h.invariant (I := fun t => Sound config t ∧ Over s t) ⟨hs, ⟨rfl, rfl, rfl, rfl, rfl⟩⟩
      fun t a t' ht hstep => ?_
    obtain ⟨hsound, hover⟩ := ht
    have ho := step_over hsound.outcome (hover.finished.trans hf) hstep
    exact ⟨sound_step hsound hstep, ⟨ho.finished.trans hover.finished, ho.enqueued.trans hover.enqueued,
      ho.results.trans hover.results, ho.reads.trans hover.reads, ho.cancels.trans hover.cancels⟩⟩
  exact hboth.2

/-- A delivery that is open does not stand still: it waits for the stream to be pulled, for the read or
for the inspection, or the code goes on. -/
inductive Waits (config : Config) (s : State platform) : Prop
  | demand (h : s.pull = .idle)
  | source (h : s.pull = .reading)
  | inspection {work : Work} {call : Callback} {rest : List Callback} (h : s.pull = .awaiting work call rest)
  | code {a : Label} {s' : State platform} (ha : a = .settle ∨ a = .afterRead false ∨ a = .afterCall false ∨
      a = .thrown ∨ a = .round) (h : Step config s a s')

theorem Sound.waits (h : Sound config s) (hd : s.downstream = .readable) : Waits config s := by
  cases hp : s.pull with
  | idle => exact .demand hp
  | reading => exact .source hp
  | awaiting work call rest => exact .inspection hp
  | settled work call rest ok => exact .code (.inr (.inr (.inl rfl))) (.afterCall hp)
  | thrown => exact .code (.inr (.inr (.inr (.inl rfl)))) (.thrown hp)
  | read result hop due =>
    obtain ⟨_, _, _, hle⟩ := h.chains.due result hop due hp
    by_cases he : due = s.round
    · by_cases hlt : hop < finallyHops
      · exact .code (.inl rfl) (.settle hp hlt he)
      · obtain rfl : hop = finallyHops := by omega
        exact .code (.inr (.inl rfl)) (.afterRead hp he)
    · have hlive := h.outcome.live.mpr (h.outcome.downstream.mp hd)
      exact .code (.inr (.inr (.inr (.inr rfl)))) (.round (by simp [State.busy, hp, hlive, he]))

/-- **What holds of the delivery of a body**, in every state of it. -/
structure Observed (config : Config) (s : State platform) : Prop where
  /-- What went down is a prefix of what was read. -/
  bytes : s.enqueued.flatten <+: s.body.flatten
  /-- The result is one, from the moment the stream is closed, errored or cancelled. -/
  once : s.results.length = if s.downstream = .readable then 0 else 1
  waits : s.downstream = .readable → Waits config s
  /-- A completion had the end of the body read, all of it enqueued, and every promise fulfilled that
  was due for a chunk and for the end. -/
  complete : .complete ∈ s.results → s.ended = true ∧ s.enqueued.flatten = s.body.flatten ∧
    s.calls = chunkLog config s.enqueued.length ++ fulfilled config.endCalls
  /-- The next chunk goes down after its identities are published. -/
  published : ∀ a s', Step config s a s' → s'.enqueued ≠ s.enqueued →
    ∃ chunk, s'.enqueued = s.enqueued ++ [chunk] ∧
      ∀ identity ∈ config.identities s.enqueued chunk, identity ∈ s.published
  /-- After the result nothing is enqueued and nothing is resolved again. -/
  settled : s.results ≠ [] → ∀ tr s', Run (Step config) s tr s' →
    s'.enqueued = s.enqueued ∧ s'.results = s.results
  /-- The reader is cancelled once, unless the body was read to its end. -/
  cancels : s.input.cancels = if s.results = [] ∨ s.results = [.complete] then 0 else 1
  /-- Once the retirement has begun the reader is not called again. -/
  retiring : s.retirement ≠ .live → ∀ tr s', Run (Step config) s tr s' →
    s'.input.reads = s.input.reads ∧ s'.input.cancels = s.input.cancels
  /-- The retirement settles after the read, the cancellation and the pull. -/
  retired : s.retirement = .retired → s.pull = .idle ∧ s.input.cancelling = false

theorem Sound.observed (h : Sound config s) : Observed config s where
  bytes := by
    obtain ⟨rest, e⟩ := h.bytes.past.enqueued
    rw [← e, List.flatten_append]
    exact List.prefix_append _ _
  once := by
    rw [h.outcome.results]
    by_cases hd : s.downstream = .readable
    · rw [if_pos hd, h.outcome.downstream.mp hd]
      rfl
    · have hf : s.finished = true := by
        cases hf : s.finished with
        | true => rfl
        | false => exact absurd (h.outcome.downstream.mpr hf) hd
      rw [if_neg hd, hf]
      rfl
  waits := h.waits
  complete := by
    intro hm
    obtain ⟨hbody, hended, hcalls, _⟩ := h.bytes.completed hm
    exact ⟨hended, by rw [hbody], hcalls⟩
  published := by
    intro a s' hs hne
    rcases step_enqueues h.outcome hs with he | ⟨_, hpub, chunk, he⟩
    · exact absurd he hne
    · refine ⟨chunk, he, fun identity hm => ?_⟩
      have hlast := (sound_step h hs).bytes.past.published s.enqueued.length (by rw [he]; simp)
      simp only [he, List.take_left, List.getElem_concat_length] at hlast
      rw [← hpub]
      exact hlast identity hm
  settled := by
    intro hne tr s' hr
    have hf : s.finished = true := by
      cases hf : s.finished with
      | true => rfl
      | false => exact absurd (h.outcome.no_results hf) hne
    have ho := over_run h hf hr
    exact ⟨ho.enqueued, ho.results⟩
  cancels := h.outcome.cancels
  retiring := by
    intro hne tr s' hr
    have hf : s.finished = true := by
      cases hf : s.finished with
      | true => rfl
      | false => exact absurd (h.outcome.live.mpr hf) hne
    have ho := over_run h hf hr
    exact ⟨ho.reads, ho.cancels⟩
  retired := by
    intro hr
    exact ⟨h.chains.certified (by rw [hr]; rfl), h.chains.cancelled (by rw [hr]; rfl)⟩

/-- **Observed delivery is faithful**, whatever the order of pulls, reads, publications, aborts and
cancellations. The operation has not been completed by somebody else, the continuation has its owner,
and what it remembered earlier is published. -/
theorem observe_usage {operation : HttpOperation} {continuation : HttpContinuation platform}
    (hop : operation.ending ≠ some .complete) (hown : continuation.owner.isSome)
    (hcount : continuation.publishedCount = continuation.evidence.length) {tr : List Label}
    (h : Run (Step config) (start operation continuation) tr s) : Observed config s :=
  (sound_run hop hown hcount h).observed

/-- A platform whose tools never prove anything. -/
def plainPlatform : Platform where
  identityKey :=
  ResponseIdentity.value
  Tools := Unit
  createTools := fun _ => ()
  acceptFrame := fun tools _ => tools
  invalidate := fun tools => tools
  result := fun _ => none
  providerError := fun _ => false

/-- A continuation that is bound and has remembered nothing. -/
def plainContinuation : HttpContinuation plainPlatform where
  scope :=
  "scope"
  requested := false
  previous := none
  parentTools := .tokenOnly
  pinned := none
  evidence := []
  publishedCount := 0
  owner := some ⟨"openai", "responses", none, none, "route", "1"⟩
  producerId := "producer"
  tools := ()
  claim := none
  qualificationAttempted := false
  finalEvidence := none

def plainConfig : Config := ⟨false, none⟩

theorem settle_run {s₀ : State platform} {tr : List Label} (h : Run (Step config) s₀ tr s)
    {result : Option Work} (hp : s.pull = .read result 1 (s.round + 1)) (hlive : s.retirement = .live) :
    ∃ tr, Run (Step config) s₀ tr { s with
        pull := .read result finallyHops (s.round + 4), round := s.round + 4
        input := { s.input with pending := false } } := by
  have hround : ∀ (t : State platform) hop, t.pull = .read result hop (t.round + 1) →
      t.retirement = .live → Step config t .round { t with round := t.round + 1 } :=
    fun t hop ht hl => .round (by simp [State.busy, ht, hl])
  have h1 := h.next (hround s 1 hp hlive)
  have h2 := h1.next (.settle hp (by decide) rfl)
  have h3 := (h2.next (hround _ 2 rfl hlive)).next (.settle rfl (by decide) rfl)
  have h4 := (h3.next (hround _ 3 rfl hlive)).next (.settle rfl (by decide) rfl)
  exact ⟨_, h4.next (hround _ 4 rfl hlive)⟩

/-- A state of the delivery of a body of one chunk, without an inspection. -/
def plainState (enqueued body : List Chunk) (ended : Bool) (pull : Pull) (input : InputRetirement)
    (round : Nat) : State plainPlatform where
  operation := ⟨none⟩
  finished := false
  downstream := .readable
  enqueued := enqueued
  results := []
  body := body
  ended := ended
  pull := pull
  pulling := pull ≠ .idle
  input := input
  retirement := .live
  joins := false
  continuation := plainContinuation
  pushed := []
  published := []
  calls := []
  round := round

/-- A body of one chunk, to its completion. -/
theorem observe_usage_complete : ∃ s : State plainPlatform, s.enqueued = [[104, 105]] ∧
    s.results = [.complete] ∧ s.downstream = .closed ∧ Observed plainConfig s := by
  have hfirst : Run (Step plainConfig) (start ⟨none⟩ plainContinuation) _
      (plainState [] [[104, 105]] false (.read (some (.chunk [104, 105])) 1 1)
        ⟨true, false, 1, 0, false⟩ 0) :=
    (Run.start.next (.pull rfl rfl)).next (@Step.read _ _ _ (some (.chunk [104, 105])) rfl)
  obtain ⟨_, hsettled⟩ := settle_run hfirst rfl rfl
  have hread := hsettled.next (@Step.afterRead _ _ _ _ _ false rfl rfl)
  have hchunk : Run (Step plainConfig) (start ⟨none⟩ plainContinuation) _
      (plainState [[104, 105]] [[104, 105]] false .idle ⟨false, false, 1, 0, false⟩ 4) := hread
  have hsecond : Run (Step plainConfig) (start ⟨none⟩ plainContinuation) _
      (plainState [[104, 105]] [[104, 105]] true (.read (some .done) 1 5) ⟨true, false, 2, 0, false⟩ 4) :=
    (hchunk.next (.pull rfl rfl)).next (@Step.read _ _ _ (some .done) rfl)
  obtain ⟨_, hsettled'⟩ := settle_run hsecond rfl rfl
  have hdone := hsettled'.next (@Step.afterRead _ _ _ _ _ false rfl rfl)
  exact ⟨_, rfl, rfl, rfl, observe_usage (by decide) rfl rfl hdone⟩

end ClawRouter.ObserveUsage
