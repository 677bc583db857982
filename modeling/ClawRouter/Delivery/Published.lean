/-
  Subject:   Where the pull of a body is, and what of it was enqueued, scanned and registered by then.

  * `Bytes`, `bytes_step`: the invariant of the bytes, kept by every step.
-/
import ClawRouter.Delivery.Outcome

namespace ClawRouter.ObserveUsage

open Fallible Continuation

variable {platform : Platform} {config : Config} {s s' : State platform}

/-! ## 1. The identities remembered -/

/-- The identities that `flush` counts as published are. -/
structure Registered (c : HttpContinuation platform) (published : List ResponseIdentity) : Prop where
  owner : c.owner.isSome
  count : c.publishedCount ≤ c.evidence.length
  known : ∀ identity ∈ c.evidence.take c.publishedCount, identity ∈ published

/-- A continuation later on. -/
structure Remembers (c c' : HttpContinuation platform) : Prop where
  owner : c'.owner = c.owner
  count : c'.publishedCount = c.publishedCount
  evidence : c.evidence <+: c'.evidence

theorem remember_remembers {c c' : HttpContinuation platform} {identity : ResponseIdentity}
    (h : c.remember identity = .ok c') : Remembers c c' ∧ identity ∈ c'.evidence := by
  unfold HttpContinuation.remember at h
  split at h
  next known hfind =>
    split_ifs at h with hsame
    cases h
    rw [← hsame]
    exact ⟨⟨rfl, rfl, List.prefix_refl _⟩, List.mem_of_find?_eq_some hfind⟩
  next =>
    cases h
    exact ⟨⟨rfl, rfl, List.prefix_append _ _⟩, by simp⟩

theorem rememberAll_remembers (c : HttpContinuation platform) (identities : List ResponseIdentity) :
    Remembers c (c.rememberAll identities).1 ∧ ((c.rememberAll identities).2 = true →
        ∀ identity ∈ identities, identity ∈ (c.rememberAll identities).1.evidence) := by
  induction identities generalizing c with
  | nil => exact ⟨⟨rfl, rfl, List.prefix_refl _⟩, fun _ identity hm => by simp at hm⟩
  | cons identity rest ih =>
    unfold HttpContinuation.rememberAll
    cases hr : c.remember identity with
    | error error => exact ⟨⟨rfl, rfl, List.prefix_refl _⟩, fun hf => by simp at hf⟩
    | ok c' =>
      obtain ⟨hfirst, hin⟩ := remember_remembers hr
      obtain ⟨hrest, hall⟩ := ih c'
      refine ⟨⟨hrest.owner.trans hfirst.owner, hrest.count.trans hfirst.count,
        hfirst.evidence.trans hrest.evidence⟩, fun hok other hm => ?_⟩
      rcases List.mem_cons.mp hm with rfl | hm
      · exact hrest.evidence.subset hin
      · exact hall hok other hm

variable {published : List ResponseIdentity}

theorem Registered.remembers {c c' : HttpContinuation platform}
    (h : Registered c published) (hr : Remembers c c') : Registered c' published where
  owner := by rw [hr.owner]; exact h.owner
  count := by
    rw [hr.count]
    exact h.count.trans hr.evidence.length_le
  known := by
    intro identity hm
    obtain ⟨more, he⟩ := hr.evidence
    rw [hr.count, ← he, List.take_append_of_le_length h.count] at hm
    exact h.known identity hm

theorem Registered.flushed {c : HttpContinuation platform}
    (h : Registered c published) (hflushed : c.flushed = true) :
    ∀ identity ∈ c.evidence, identity ∈ published := by
  obtain ⟨owner, ho⟩ := Option.isSome_iff_exists.mp h.owner
  have hlength : c.evidence.length = c.publishedCount := by
    simpa [HttpContinuation.flushed, ho] using hflushed
  intro identity hm
  apply h.known
  rw [← hlength, List.take_length]
  exact hm

theorem Registered.answered {c c' : HttpContinuation platform}
    {reply : Answer ContinuationReply} (h : Registered c published) (hc : c.published reply = .ok c') :
    c'.evidence = c.evidence ∧ Registered c' (published ++ c'.evidence) := by
  have hc' : c'.evidence = c.evidence ∧ c'.owner = c.owner ∧ c'.publishedCount = c.evidence.length := by
    unfold HttpContinuation.published at hc
    split at hc
    · split at hc <;> cases hc <;> exact ⟨rfl, rfl, rfl⟩
    · cases hc
  obtain ⟨he, ho, hn⟩ := hc'
  refine ⟨he, ⟨by rw [ho]; exact h.owner, by rw [hn, he], fun identity hm => ?_⟩⟩
  exact List.mem_append_right _ (List.mem_of_mem_take hm)

/-! ## 2. Where a pull is -/

def fulfilled (calls : List Callback) : List (Callback × Bool) := calls.map fun call => (call, true)

def chunkLog (config : Config) (n : Nat) : List (Callback × Bool) :=
  (List.replicate n (fulfilled config.chunkCalls)).flatten

def Located (config : Config) (s : State platform) : Work → List Callback → Prop
  | .chunk chunk, rest => s.body = s.enqueued ++ [chunk] ∧ ∃ earlier, config.chunkCalls = earlier ++ rest ∧
      s.calls = chunkLog config s.enqueued.length ++ fulfilled earlier
  | .done, rest => s.body = s.enqueued ∧ s.ended = true ∧ ∃ earlier, config.endCalls = earlier ++ rest ∧
      s.calls = chunkLog config s.enqueued.length ++ fulfilled earlier

/-- The scanner has seen the chunk unless its push is among the `rest`. -/
def Scanned (config : Config) (s : State platform) : Work → List Callback → Prop
  | .chunk chunk, rest => config.scanner.isSome → if .push ∈ rest then s.pushed = s.enqueued
      else s.pushed = s.enqueued ++ [chunk] ∧ ∀ identity ∈ config.identities s.enqueued chunk,
        identity ∈ s.published
  | .done, _ => config.scanner.isSome → s.pushed = s.enqueued

/-- The same while a promise is pending, which may be that of the push. -/
def Scanning (config : Config) (s : State platform) : Work → Callback → List Callback → Prop
  | .chunk chunk, .push, rest => config.scanner.isSome → .push ∉ rest ∧ s.pushed = s.enqueued ++ [chunk] ∧
        ∀ identity ∈ config.identities s.enqueued chunk, identity ∈ s.continuation.evidence
  | work, _, rest => Scanned config s work rest

def PullOk (config : Config) (s : State platform) : Pull → Prop
  | .idle | .reading => s.body = s.enqueued ∧ s.calls = chunkLog config s.enqueued.length ∧
      (config.scanner.isSome → s.pushed = s.enqueued)
  | .read (some (.chunk chunk)) _ _ => Located config s (.chunk chunk) config.chunkCalls ∧
      Scanned config s (.chunk chunk) config.chunkCalls
  | .read (some .done) _ _ => Located config s .done config.endCalls ∧ Scanned config s .done config.endCalls
  | .awaiting work call rest => Located config s work (call :: rest) ∧ Scanning config s work call rest
  | .settled work call rest true => Located config s work (call :: rest) ∧ Scanned config s work rest
  | .read none _ _ | .settled _ _ _ false | .thrown => True

/-- What is enqueued was read, and its identities are published. -/
structure Past (config : Config) (s : State platform) : Prop where
  enqueued : s.enqueued <+: s.body
  published : ∀ i (h : i < s.enqueued.length),
    ∀ identity ∈ config.identities (s.enqueued.take i) s.enqueued[i], identity ∈ s.published
  registered : Registered s.continuation s.published

/-- What a delivery has enqueued and pushed. -/
structure Bytes (config : Config) (s : State platform) : Prop where
  past : Past config s
  working : s.finished = false → PullOk config s s.pull
  completed : .complete ∈ s.results → s.body = s.enqueued ∧ s.ended = true ∧
    s.calls = chunkLog config s.enqueued.length ++ fulfilled config.endCalls ∧ s.pull = .idle

variable {rest : List Callback}

theorem push_once {earlier : List Callback} (h : config.chunkCalls = earlier ++ .push :: rest) :
    .push ∉ rest := by
  intro hm
  have hcount : config.chunkCalls.count .push ≤ 1 := by
    unfold Config.chunkCalls
    cases config.observes <;> cases config.responses <;> cases config.inspection.isSome <;>
      cases config.qualifies <;> decide
  rw [h, List.count_append, List.count_cons_self] at hcount
  have := List.count_pos_iff.mpr hm
  omega

theorem push_mem (h : config.scanner.isSome) : .push ∈ config.chunkCalls := by
  have hi : config.inspection.isSome = true := by
    unfold Config.scanner at h
    cases he : config.inspection with
    | none => rw [he] at h; cases h
    | some _ => rfl
  unfold Config.chunkCalls
  rw [hi]
  cases config.observes <;> simp

variable {work : Work} {call : Callback}

theorem Scanning.of_scanned (h : Scanned config s work (call :: rest))
    (hne : call ≠ .push ∨ config.scanner = none) :
    Scanning config s work call rest := by
  cases work with
  | done => cases call <;> exact h
  | chunk chunk =>
    rcases hne with hne | hnone
    · have hiff : Callback.push ∈ call :: rest ↔ Callback.push ∈ rest := by simp [Ne.symm hne]
      cases call with
      | push => exact absurd rfl hne
      | inspect | qualify | finish | inspectEnd =>
        intro hs
        have h' := h hs
        simp only [hiff] at h'
        exact h'
    · have hno : ¬ config.scanner.isSome = true := by simp [hnone]
      cases call <;> exact fun hs => absurd hs hno

theorem Scanning.scanned (h : Scanning config s work call rest)
    (hp : config.scanner.isSome → call = .push → ∀ identity ∈ s.continuation.evidence,
      identity ∈ s.published) :
    Scanned config s work rest := by
  cases work with
  | done => cases call <;> exact h
  | chunk chunk =>
    cases call with
    | push =>
      intro hs
      obtain ⟨hnot, hpushed, hall⟩ := h hs
      rw [if_neg hnot]
      exact ⟨hpushed, fun identity hm => hp hs rfl identity (hall identity hm)⟩
    | inspect | qualify | finish | inspectEnd => exact h

/-! ## 3. A pull goes on -/

theorem scan_bytes
    {scanned : List ResponseIdentity × Bool} (h : Past config s) (hl : Located config s work (call :: rest))
    (hs : ∀ s' : State platform, s'.enqueued = s.enqueued → s'.pushed = s.pushed →
      s'.published = s.published → (∀ identity ∈ scanned.1, identity ∈ s'.continuation.evidence) →
        Scanning config s' work call rest) : Past config (s.scan work call rest scanned) ∧
      PullOk config (s.scan work call rest scanned) (s.scan work call rest scanned).pull := by
  obtain ⟨hrem, hall⟩ := rememberAll_remembers s.continuation scanned.1
  have hreg := h.registered.remembers hrem
  unfold State.scan
  dsimp only
  split_ifs with hok hflushed
  · exact ⟨⟨h.enqueued, h.published, hreg⟩, trivial⟩
  · have hok' : (s.continuation.rememberAll scanned.1).2 = true := by
      cases hr : (s.continuation.rememberAll scanned.1).2 with
      | true => rfl
      | false => simp [hr] at hok
    refine ⟨⟨h.enqueued, h.published, hreg⟩, ?_, ?_⟩
    · cases work <;> exact hl
    · have hscanning := hs { s with
          continuation := (s.continuation.rememberAll scanned.1).1
          pull := .settled work call rest true } rfl rfl rfl (hall hok')
      exact hscanning.scanned fun _ _ => hreg.flushed hflushed
  · have hok' : (s.continuation.rememberAll scanned.1).2 = true := by
      cases hr : (s.continuation.rememberAll scanned.1).2 with
      | true => rfl
      | false => simp [hr] at hok
    refine ⟨⟨h.enqueued, h.published, hreg⟩, ?_, hs _ rfl rfl rfl (hall hok')⟩
    cases work <;> exact hl

theorem invoke_bytes (h : Past config s)
    (hl : Located config s work (call :: rest)) (hs : Scanned config s work (call :: rest)) :
    Past config (s.invoke config work call rest) ∧
      PullOk config (s.invoke config work call rest) (s.invoke config work call rest).pull := by
  have hother : (call ≠ .push ∨ config.scanner = none) →
    Past config { s with pull := .awaiting work call rest } ∧
        PullOk config { s with pull := .awaiting work call rest } (.awaiting work call rest) := by
    intro hne
    refine ⟨⟨h.enqueued, h.published, h.registered⟩, ?_, ?_⟩
    · cases work <;> exact hl
    · refine Scanning.of_scanned ?_ hne
      cases work <;> exact hs
  cases hscanner : config.scanner with
  | none =>
    have he : s.invoke config work call rest = { s with pull := .awaiting work call rest } := by
      unfold State.invoke
      rw [hscanner]
    rw [he]
    exact hother (.inr hscanner)
  | some scanner =>
    have hsome : config.scanner.isSome = true := by rw [hscanner]; rfl
    cases call with
    | push =>
      cases work with
      | chunk chunk =>
        have hpushed : s.pushed = s.enqueued := by
          have h' := hs hsome
          rw [if_pos List.mem_cons_self] at h'
          exact h'
        have he : s.invoke config (.chunk chunk) .push rest =
            { s with pushed := s.pushed ++ [chunk] }.scan (.chunk chunk) .push rest
              (scanner.push s.pushed chunk) := by
          unfold State.invoke
          rw [hscanner]
        obtain ⟨hbody, earlier, hcalls, hlog⟩ := hl
        rw [he]
        refine scan_bytes ⟨h.enqueued, h.published, h.registered⟩
          ⟨hbody, earlier, hcalls, hlog⟩ fun s' hq hp _ hall _ => ⟨push_once hcalls, ?_, ?_⟩
        · rw [hp, hq, hpushed]
        · have hids : config.identities s'.enqueued chunk = (scanner.push s.pushed chunk).1 := by
            unfold Config.identities
            rw [hscanner, hq, hpushed]
          rw [hids]
          exact hall
      | done =>
        have he : s.invoke config .done .push rest = { s with pull := .awaiting .done .push rest } := by
          unfold State.invoke
          rw [hscanner]
        rw [he]
        exact ⟨⟨h.enqueued, h.published, h.registered⟩, hl, hs⟩
    | finish =>
      have he : s.invoke config work .finish rest = s.scan work .finish rest (scanner.finish s.pushed) := by
        unfold State.invoke
        rw [hscanner]
      rw [he]
      refine scan_bytes h hl fun s' hq hp hpub _ => Scanning.of_scanned ?_ (.inl (by decide))
      -- the end of the body: what the scanner still held belongs to no chunk
      cases work with
      | done => intro _; rw [hp, hq]; exact hs hsome
      | chunk chunk => intro _; rw [hp, hq, hpub]; exact hs hsome
    | inspect | qualify | inspectEnd =>
      unfold State.invoke
      rw [hscanner]
      exact hother (.inl (by decide))

theorem each_concat {α : Type} {P : List α → α → Prop} {l : List α} {x : α}
    (h : ∀ i (hi : i < l.length), P (l.take i) l[i]) (hx : P l x) :
    ∀ i (hi : i < (l ++ [x]).length), P ((l ++ [x]).take i) (l ++ [x])[i] := by
  intro i hi
  by_cases hlt : i < l.length
  · rw [List.take_append_of_le_length hlt.le, List.getElem_append_left hlt]
    exact h i hlt
  · rw [List.length_append, List.length_singleton] at hi
    obtain rfl : i = l.length := by omega
    rw [List.take_left, List.getElem_concat_length rfl]
    exact hx

theorem enqueue_bytes {chunk : Chunk} (h : Past config s) (hl : Located config s (.chunk chunk) [])
    (hs : Scanned config s (.chunk chunk) []) :
    Past config { s with enqueued := s.enqueued ++ [chunk] }.pulled ∧
      PullOk config { s with enqueued := s.enqueued ++ [chunk] }.pulled .idle := by
  obtain ⟨hbody, earlier, hcalls, hlog⟩ := hl
  rw [List.append_nil] at hcalls
  refine ⟨⟨?_, ?_, h.registered⟩, hbody, ?_, ?_⟩
  · exact ⟨[], by rw [List.append_nil, hbody]; rfl⟩
  · refine each_concat (P := fun before chunk =>
      ∀ identity ∈ config.identities before chunk, identity ∈ s.published) h.published ?_
    intro identity hm
    cases hscanner : config.scanner with
    | none =>
      unfold Config.identities at hm
      rw [hscanner] at hm
      cases hm
    | some scanner =>
      have h' := hs (by rw [hscanner]; rfl)
      rw [if_neg List.not_mem_nil] at h'
      exact h'.2 identity hm
  · show s.calls = chunkLog config (s.enqueued ++ [chunk]).length
    rw [hlog, ← hcalls, List.length_append, List.length_singleton]
    unfold chunkLog
    rw [List.replicate_succ', List.flatten_concat]
  · intro hsome
    have h' := hs hsome
    rw [if_neg List.not_mem_nil] at h'
    exact h'.1

theorem ends_past (h : Past config s) (cause : Cause) (downstream : Downstream) :
    Past config (s.ends cause downstream) := ⟨h.enqueued, h.published, h.registered⟩

theorem ends_bytes (ho : Outcome s) (h : Past config s) (hf : s.finished = false) {cause : Cause}
    (hc : cause ≠ .complete) (downstream : Downstream) : Bytes config (s.ends cause downstream) where
  past := ends_past h cause downstream
  working := fun he => by cases he
  completed := by
    intro hm
    change .complete ∈ s.results ++ [deliveryOf cause] at hm
    rw [ho.no_results hf, List.nil_append, List.mem_singleton] at hm
    exact absurd hm.symm (deliveryOf_ne hc)

theorem pulled_bytes (h : Bytes config s) (hf : s.finished = true) : Bytes config s.pulled where
  past := ⟨h.past.enqueued, h.past.published, h.past.registered⟩
  working := fun he => by rw [show s.pulled.finished = s.finished from rfl, hf] at he; cases he
  completed := fun hm => by
    obtain ⟨hb, hn, hc, _⟩ := h.completed hm
    exact ⟨hb, hn, hc, rfl⟩

theorem catches_bytes (ho : Outcome s) (h : Past config s)
    (hc : s.finished = true → Bytes config s) : Bytes config s.catches := by
  cases hf : s.finished with
  | true => rw [catches_ended hf]; exact pulled_bytes (hc hf) hf
  | false =>
    rw [catches_open ho hf]
    exact pulled_bytes (ends_bytes ho h hf (by decide) .errored) rfl

theorem goOn_bytes (ho : Outcome s) (h : Past config s) (hf : s.finished = false)
    (hl : Located config s work rest) (hs : Scanned config s work rest) :
    Bytes config (s.goOn config work rest) := by
  have hopen : ∀ {s' : State platform}, SameOutcome s s' → Past config s' ∧ PullOk config s' s'.pull →
      Bytes config s' := by
    intro s' he hp
    refine ⟨hp.1, fun _ => hp.2, fun hm => ?_⟩
    rw [he.results, ho.no_results hf] at hm
    cases hm
  cases rest with
  | cons call rest => exact hopen (goOn_same (.inr (by simp))) (invoke_bytes h hl hs)
  | nil =>
    cases work with
    | chunk chunk => exact hopen (goOn_same (.inl (by simp))) (enqueue_bytes h hl hs)
    | done =>
      obtain ⟨hbody, hended, earlier, hcalls, hlog⟩ := hl
      rw [List.append_nil] at hcalls
      rw [completes ho hf]
      refine ⟨⟨h.enqueued, h.published, h.registered⟩, fun he => (by cases he), fun _ => ?_⟩
      refine ⟨hbody, hended, ?_, rfl⟩
      rw [hcalls]
      exact hlog

theorem goesOn_bytes (ho : Outcome s) (h : Past config s)
    (hlate : s.finished = true → Bytes config s) (throws : Bool)
    (hw : s.finished = false → Located config s work rest ∧ Scanned config s work rest) :
    Bytes config (s.goesOn config work rest throws) := by
  unfold State.goesOn
  split_ifs with hf ht
  · exact pulled_bytes (hlate hf) hf
  · exact catches_bytes ho h hlate
  · have hopen : s.finished = false := by simpa using hf
    obtain ⟨hl, hs⟩ := hw hopen
    exact goOn_bytes ho h hopen hl hs

theorem late_bytes (pull : Pull) (h : Past config s) (hf : s.finished = true)
    (hc : .complete ∉ s.results) : Bytes config { s with pull := pull } where
  past := ⟨h.enqueued, h.published, h.registered⟩
  working := fun he => by
    rw [hf] at he
    cases he
  completed := fun hm => absurd hm hc

theorem ends_not_complete (ho : Outcome s) (hf : s.finished = false) {cause : Cause}
    (hc : cause ≠ .complete) (downstream : Downstream) : .complete ∉ (s.ends cause downstream).results := by
  intro hm
  change .complete ∈ s.results ++ [deliveryOf cause] at hm
  rw [ho.no_results hf, List.nil_append, List.mem_singleton] at hm
  exact absurd hm.symm (deliveryOf_ne hc)

theorem thrown_bytes (ho : Outcome s) (h : Past config s) (hc : .complete ∉ s.results) :
    Bytes config { s.stop .publication with pull := .thrown } := by
  cases hf : s.finished with
  | true =>
    rw [stop_ended ho .publication hf]
    exact late_bytes .thrown h hf hc
  | false =>
    rw [stop_open ho .publication hf]
    exact late_bytes .thrown (ends_past h .publication .errored) rfl
      (ends_not_complete ho hf (by decide) .errored)

theorem afterCall_bytes (ho : Outcome s) (h : Bytes config s)
    {ok : Bool} (throws : Bool) (hp : s.pull = .settled work call rest ok) :
    Bytes config (s.afterCall config work call rest ok throws) := by
  have hcalled : Outcome { s with calls := s.calls ++ [(call, ok)] } :=
    ho.of_same ⟨rfl, rfl, rfl, rfl, rfl, rfl, Iff.rfl⟩
  have hpast : Past config { s with calls := s.calls ++ [(call, ok)] } :=
    ⟨h.past.enqueued, h.past.published, h.past.registered⟩
  -- a pull that is still under way has not completed
  have hnot : .complete ∉ s.results := by
    intro hm
    have hidle := (h.completed hm).2.2.2
    rw [hp] at hidle
    cases hidle
  have hlate : s.finished = true → Bytes config { s with calls := s.calls ++ [(call, ok)] } :=
    fun hf => late_bytes s.pull hpast hf hnot
  unfold State.afterCall
  split_ifs with hok hguard
  · refine goesOn_bytes hcalled hpast hlate throws fun hf => ?_
    have hw := h.working hf
    rw [hp, hok] at hw
    obtain ⟨hl, hs⟩ := hw
    have hlog : ∀ {all earlier : List Callback}, all = earlier ++ call :: rest →
        s.calls = chunkLog config s.enqueued.length ++ fulfilled earlier →
        all = (earlier ++ [call]) ++ rest ∧ s.calls ++ [(call, ok)] =
          chunkLog config s.enqueued.length ++ fulfilled (earlier ++ [call]) := by
      intro all earlier hall hcalls
      refine ⟨by rw [hall, List.append_assoc]; rfl, ?_⟩
      rw [hcalls, hok, List.append_assoc]
      simp [fulfilled]
    cases work with
    | chunk chunk =>
      obtain ⟨hbody, earlier, hall, hcalls⟩ := hl
      exact ⟨⟨hbody, earlier ++ [call], hlog hall hcalls⟩, hs⟩
    | done =>
      obtain ⟨hbody, hended, earlier, hall, hcalls⟩ := hl
      exact ⟨⟨hbody, hended, earlier ++ [call], hlog hall hcalls⟩, hs⟩
  · exact thrown_bytes hcalled hpast hnot
  · exact catches_bytes hcalled hpast hlate

theorem afterRead_bytes (ho : Outcome s) (h : Bytes config s) {result : Option Work} {hop due : Nat}
    (throws : Bool) (hp : s.pull = .read result hop due) :
    Bytes config (s.afterRead config result throws) := by
  have hw := h.working
  rw [hp] at hw
  match result with
  | none => exact catches_bytes ho h.past fun _ => h
  | some (.chunk chunk) | some .done => exact goesOn_bytes ho h.past (fun _ => h) throws hw

theorem interrupted_bytes (ho : Outcome s) (h : Past config s)
    (hlate : s.finished = true → Bytes config s) {i : Interrupt} (hi : i.Foreign) :
    Bytes config (s.interrupted i) := by
  cases hf : s.finished with
  | true => rw [interrupted_ended ho i hf]; exact hlate hf
  | false =>
    obtain ⟨cause, downstream, hc, _, e⟩ := interrupted_open ho hi hf
    rw [e]
    exact ends_bytes ho h hf hc downstream

theorem answered_bytes (h : Bytes config s) (hp : s.pull = .reading) (result : Option Work) :
    Bytes config (s.answered result) := by
  have hidle : .complete ∉ s.results := by
    intro hm
    have hidle := (h.completed hm).2.2.2
    rw [hp] at hidle
    cases hidle
  have hw := h.working
  rw [hp] at hw
  match result with
  | none =>
    exact ⟨⟨h.past.enqueued, h.past.published, h.past.registered⟩, fun _ => trivial, fun hm =>
      absurd hm hidle⟩
  | some (.chunk chunk) =>
    refine ⟨⟨h.past.enqueued.trans (List.prefix_append _ _), h.past.published, h.past.registered⟩,
      fun hf => ?_, fun hm => absurd hm hidle⟩
    obtain ⟨hbody, hcalls, hpushed⟩ := hw hf
    refine ⟨⟨by show s.body ++ [chunk] = s.enqueued ++ [chunk]; rw [hbody], [], rfl, ?_⟩, ?_⟩
    · rw [fulfilled, List.map_nil, List.append_nil]
      exact hcalls
    · intro hsome
      rw [if_pos (push_mem hsome)]
      exact hpushed hsome
  | some .done =>
    refine ⟨⟨h.past.enqueued, h.past.published, h.past.registered⟩, fun hf => ?_, fun hm => absurd hm hidle⟩
    obtain ⟨hbody, hcalls, hpushed⟩ := hw hf
    refine ⟨⟨hbody, rfl, [], rfl, ?_⟩, hpushed⟩
    rw [fulfilled, List.map_nil, List.append_nil]
    exact hcalls

theorem reads_bytes (ho : Outcome s) (h : Bytes config s) (hd : s.downstream = .readable)
    (hp : s.pull = .idle) :
    Past config s.reads ∧ (PullOk config s.reads s.reads.pull) ∧ .complete ∉ s.reads.results := by
  have hf := ho.downstream.mp hd
  have hempty : .complete ∉ s.results := by
    rw [ho.no_results hf]
    exact List.not_mem_nil
  have hw := h.working hf
  rw [hp] at hw
  unfold State.reads
  split_ifs with hno
  · exact ⟨⟨h.past.enqueued, h.past.published, h.past.registered⟩, trivial, hempty⟩
  · exact ⟨⟨h.past.enqueued, h.past.published, h.past.registered⟩, hw, hempty⟩

theorem Bytes.under_way (h : Bytes config s) (hp : s.pull ≠ .idle) : .complete ∉ s.results :=
  fun hm => hp (h.completed hm).2.2.2

/-- The fields that `PullOk` speaks of are as they were. -/
structure SameBytes (s s' : State platform) : Prop where
  enqueued : s'.enqueued = s.enqueued
  body : s'.body = s.body
  ended : s'.ended = s.ended
  calls : s'.calls = s.calls
  pushed : s'.pushed = s.pushed
  published : s'.published = s.published
  continuation : s'.continuation = s.continuation

theorem PullOk.of_same {pull : Pull} (h : PullOk config s pull) (e : SameBytes s s') :
    PullOk config s' pull := by
  obtain ⟨he, hb, hn, hc, hp, hpub, hcont⟩ := e
  obtain ⟨operation, finished, downstream, enqueued, results, body, ended, own, pulling, input,
    retirement, joins, continuation, pushed, published, calls, round⟩ := s
  cases he
  cases hb
  cases hn
  cases hc
  cases hp
  cases hpub
  cases hcont
  exact h

theorem Past.of_same (h : Past config s) (e : SameBytes s s') : Past config s' where
  enqueued := by rw [e.enqueued, e.body]; exact h.enqueued
  published := by
    obtain ⟨he, _, _, _, _, hpub, _⟩ := e
    obtain ⟨operation, finished, downstream, enqueued, results, body, ended, own, pulling, input,
      retirement, joins, continuation, pushed, published, calls, round⟩ := s
    cases he
    cases hpub
    exact h.published
  registered := by rw [e.continuation, e.published]; exact h.registered

theorem Bytes.of_same (h : Bytes config s) (e : SameBytes s s') (hf : s'.finished = s.finished)
    (hp : s'.pull = s.pull) (hr : s'.results = s.results) : Bytes config s' where
  past := h.past.of_same e
  working := by
    rw [hf, hp]
    exact fun he => (h.working he).of_same e
  completed := by
    rw [hr, hp, e.body, e.enqueued, e.ended, e.calls]
    exact h.completed

theorem settled_bytes (h : Bytes config s) (hp : s.pull = .awaiting work call rest)
    {c : HttpContinuation platform}
    {more : List ResponseIdentity} (hc : c.evidence = s.continuation.evidence)
    (hreg : Registered c (s.published ++ more)) (hpush : config.scanner.isSome → call = .push →
      ∀ identity ∈ c.evidence, identity ∈ s.published ++ more) : Bytes config { s with
        pull := .settled work call rest true, continuation := c, published := s.published ++ more } := by
  have hnot := h.under_way (by rw [hp]; simp)
  have hpast : Past config { s with
        pull := .settled work call rest true
        continuation := c
        published := s.published ++ more } :=
    ⟨h.past.enqueued, fun i hi identity hm => List.mem_append_left
      _ (h.past.published i hi identity hm), hreg⟩
  refine ⟨hpast, fun hf => ?_, fun hm => absurd hm hnot⟩
  have hw := h.working hf
  rw [hp] at hw
  obtain ⟨hl, hscan⟩ := hw
  refine ⟨by cases work <;> exact hl, ?_⟩
  cases work with
  | done => cases call <;> exact hscan
  | chunk chunk =>
    refine @Scanning.scanned _ _ _ _ _ call ?_ hpush
    cases call with
    | push =>
      intro hsome
      obtain ⟨hnotin, hpushed, hall⟩ := hscan hsome
      exact ⟨hnotin, hpushed, fun identity hm => by
        rw [hc]
        exact hall identity hm⟩
    | inspect | qualify | finish | inspectEnd =>
      intro hsome
      have hs' := hscan hsome
      split_ifs at hs' ⊢ with hin
      · exact hs'
      · exact ⟨hs'.1, fun identity hm => List.mem_append_left _ (hs'.2 identity hm)⟩

/-- **Every step keeps it.** -/
theorem bytes_step {a : Label} (ho : Outcome s) (h : Bytes config s) (hs : Step config s a s') :
    Bytes config s' := by
  cases hs with
  | pull hd hp =>
    obtain ⟨hpast, hok, hnot⟩ := reads_bytes ho h hd hp
    exact ⟨hpast.of_same ⟨rfl, rfl, rfl, rfl, rfl, rfl, rfl⟩,
      fun _ => hok.of_same ⟨rfl, rfl, rfl, rfl, rfl, rfl, rfl⟩, fun hm => absurd hm hnot⟩
  | @pullInterrupted i hd hp hi =>
    obtain ⟨hpast, _, hnot⟩ := reads_bytes ho h hd hp
    have hf := ho.downstream.mp hd
    have hb := interrupted_bytes (ho.of_same (reads_same s)) hpast
      (fun he => by rw [(reads_same s).finished, hf] at he; cases he) hi
    exact hb.of_same ⟨rfl, rfl, rfl, rfl, rfl, rfl, rfl⟩ rfl rfl rfl
  | interrupt hi => exact interrupted_bytes ho h.past (fun _ => h) hi
  | read hp => exact answered_bytes h hp _
  | @settle result hop due hp _ _ =>
    have hnot := h.under_way (by rw [hp]; simp)
    have hw := h.working
    rw [hp] at hw
    refine ⟨h.past.of_same ⟨rfl, rfl, rfl, rfl, rfl, rfl, rfl⟩, fun hf => ?_, fun hm => absurd hm hnot⟩
    have hw' := hw hf
    match result with
    | none => trivial
    | some (.chunk _) | some .done => exact hw'
  | afterRead hp _ => exact afterRead_bytes ho h _ hp
  | @reply work call rest reply c hp _ _ hc =>
    obtain ⟨he, hreg⟩ := h.past.registered.answered hc
    exact settled_bytes h hp he hreg fun _ _ identity hm => List.mem_append_right _ hm
  | @refused work call rest reply error hp _ _ _ =>
    have hnot := h.under_way (by rw [hp]; simp)
    exact ⟨h.past.of_same ⟨rfl, rfl, rfl, rfl, rfl, rfl, rfl⟩, fun _ => trivial, fun hm => absurd hm hnot⟩
  | @fulfil work call rest ok hp hother =>
    cases ok with
    | false =>
      have hnot := h.under_way (by rw [hp]; simp)
      exact ⟨h.past.of_same ⟨rfl, rfl, rfl, rfl, rfl, rfl, rfl⟩, fun _ => trivial, fun hm => absurd hm hnot⟩
    | true =>
      have hset := @settled_bytes _ _ _ _ _ _ h hp _ [] rfl (by rw [List.append_nil]; exact h.past.registered)
        fun hsome hcall => by
          rcases hother with hnone | ⟨hne, _⟩
          · rw [hnone] at hsome; cases hsome
          · exact absurd hcall hne
      rw [List.append_nil] at hset
      exact hset
  | afterCall hp => exact afterCall_bytes ho h _ hp
  | thrown hp => exact catches_bytes ho h.past fun _ => h
  | cancelled _ | retireSettled _ _ _ | retireHop _ _ _ | retireClosed _ _ | retireJoined _ _
  | retired _ _ | round _ => exact h.of_same ⟨rfl, rfl, rfl, rfl, rfl, rfl, rfl⟩ rfl rfl rfl

end ClawRouter.ObserveUsage
