/-
  Subject:   The delivery of a body has one outcome.

  The operation, the stream downstream, the result and the reader end in one piece of code, `finish`,
  whoever calls it.

  * `outcome_step`: every step keeps `Outcome`.
-/
import ClawRouter.Delivery.ObserveUsage

namespace ClawRouter.ObserveUsage

open Continuation

variable {platform : Platform} {config : Config} {s s' : State platform}

/-! ## 1. One outcome -/

/-- What is told of an end, and what it has stopped. -/
structure Outcome (s : State platform) : Prop where
  ending : s.operation.ending.isSome = s.finished
  downstream : s.downstream = .readable ↔ s.finished = false
  results : s.results.length = if s.finished then 1 else 0
  stopped : s.input.stopped = s.finished
  cancels : s.input.cancels = if s.results = [] ∨ s.results = [.complete] then 0 else 1
  live : s.retirement = .live ↔ s.finished = false

theorem Outcome.no_results (h : Outcome s) (hf : s.finished = false) : s.results = [] := by
  have hlen := h.results
  rw [hf] at hlen
  exact List.length_eq_zero_iff.mp hlen

theorem Outcome.not_ended (h : Outcome s) (hf : s.finished = false) : s.operation.ending = none := by
  have he := h.ending
  rw [hf] at he
  exact Option.isNone_iff_eq_none.mp (by simpa using he)

def deliveryOf : Cause → Delivery
  | .complete => .complete
  | .caller => .canceled
  | _ => .failed

theorem deliveryOf_ne {cause : Cause} (h : cause ≠ .complete) : deliveryOf cause ≠ .complete := by
  cases cause <;> simp_all [deliveryOf]

/-- A delivery that ends, with the stream it ends. -/
def State.ends (s : State platform) (cause : Cause) (downstream : Downstream) : State platform :=
  { s with
    finished := true
    operation := ⟨some cause⟩
    results := s.results ++ [deliveryOf cause]
    input := s.input.retire (deliveryOf cause = .complete)
    retirement := .settling s.input.pending
    joins := s.pulling
    downstream := downstream }

/-- **A first `finish`**, in the words of the state before it. An operation that has ended already
keeps its cause. -/
theorem finish_ends {delivery : Delivery} {cause : Cause} (downstream : Downstream)
    (hf : s.finished = false) :
    { s.finish delivery cause with downstream := downstream } = s.ends
      (s.operation.ending.getD cause) downstream := by
  obtain ⟨⟨ending⟩, finished⟩ := s
  cases hf
  cases ending with
  | none => cases cause <;> rfl
  | some earlier => cases earlier <;> rfl

section

variable (h : Outcome s)
include h

theorem ends_outcome (hf : s.finished = false) (cause : Cause)
    (downstream : Downstream) (hd : downstream ≠ .readable) : Outcome (s.ends cause downstream) := by
  have hempty := h.no_results hf
  have hstopped : s.input.stopped = false := by rw [h.stopped, hf]
  have hcancels : s.input.cancels = 0 := by rw [h.cancels, if_pos (Or.inl hempty)]
  have hresults : (s.ends cause downstream).results = [deliveryOf cause] := by
    show s.results ++ [deliveryOf cause] = _
    rw [hempty, List.nil_append]
  have hinput : (s.ends cause downstream).input = if deliveryOf cause = .complete then
    { s.input with stopped := true }
      else { s.input with stopped := true, cancels := 1, cancelling := true } := by
    show s.input.retire _ = _
    unfold InputRetirement.retire
    rw [hstopped]
    by_cases hc : deliveryOf cause = .complete <;> simp [hc, hcancels]
  refine ⟨rfl, by simp [State.ends, hd], by rw [hresults]; rfl, ?_, ?_, by simp [State.ends]⟩
  · rw [hinput]
    by_cases hc : deliveryOf cause = .complete <;> simp [hc, State.ends]
  · rw [hinput, hresults]
    by_cases hc : deliveryOf cause = .complete <;> simp [hc, hcancels]

/-! What the functions of the model that may end a delivery do to an open one, and to one that has
ended. -/

theorem stop_open (cause : Cause) (hf : s.finished = false) : s.stop cause = s.ends cause .errored := by
  have he := h.not_ended hf
  unfold State.stop State.aborted
  rw [he]
  obtain ⟨⟨ending⟩, finished⟩ := s
  cases hf
  cases he
  exact finish_ends .errored rfl

theorem stop_ended (cause : Cause) (hf : s.finished = true) : s.stop cause = s := by
  have he : s.operation.ending.isSome = true := by rw [h.ending, hf]
  unfold State.stop
  rw [he]
  rfl

theorem interrupted_ended (i : Interrupt) (hf : s.finished = true) : s.interrupted i = s := by
  cases i with
  | abort cause => exact stop_ended h cause hf
  | cancel cause =>
    have hd : s.downstream ≠ .readable := fun e => by simp [h.downstream.mp e] at hf
    exact if_neg hd

theorem interrupted_open {i : Interrupt} (hi : i.Foreign) (hf : s.finished = false) :
    ∃ cause downstream, cause ≠ .complete ∧ downstream ≠ .readable ∧ s.interrupted i = s.ends cause
      downstream := by
  cases i with
  | abort cause => exact ⟨cause, .errored, hi, by decide, stop_open h cause hf⟩
  | cancel cause =>
    refine ⟨cause, .canceled, hi, by decide, ?_⟩
    have he := h.not_ended hf
    show (if s.downstream = .readable then _ else s) = _
    rw [if_pos (h.downstream.mpr hf)]
    have hopen : { s with downstream := .canceled }.finished = false := hf
    rw [show ({ s with downstream := .canceled } : State platform).finish .canceled cause =
      { { s with downstream := .canceled }.finish .canceled cause with downstream := .canceled } from ?_,
      finish_ends .canceled hopen]
    · rw [he]
      rfl
    · obtain ⟨⟨ending⟩, finished⟩ := s
      cases hf
      rfl

theorem catches_open (hf : s.finished = false) : s.catches = (s.ends .upstream .errored).pulled := by
  unfold State.catches
  rw [hf, finish_ends .errored hf, h.not_ended hf]
  rfl

end

theorem catches_ended (hf : s.finished = true) : s.catches = s.pulled := by
  unfold State.catches
  rw [hf]
  rfl

theorem completes (h : Outcome s) (hf : s.finished = false) :
    s.goOn config .done [] = (s.ends .complete .closed).pulled := by
  unfold State.goOn
  rw [finish_ends .closed hf, h.not_ended hf]
  rfl

/-- The fields that `Outcome` speaks of are as they were. -/
structure SameOutcome (s s' : State platform) : Prop where
  operation : s'.operation = s.operation
  finished : s'.finished = s.finished
  downstream : s'.downstream = s.downstream
  results : s'.results = s.results
  stopped : s'.input.stopped = s.input.stopped
  cancels : s'.input.cancels = s.input.cancels
  live : s'.retirement = .live ↔ s.retirement = .live

theorem Outcome.of_same (h : Outcome s) (e : SameOutcome s s') : Outcome s' where
  ending := by rw [e.operation, e.finished]; exact h.ending
  downstream := by rw [e.downstream, e.finished]; exact h.downstream
  results := by rw [e.results, e.finished]; exact h.results
  stopped := by rw [e.stopped, e.finished]; exact h.stopped
  cancels := by rw [e.cancels, e.results]; exact h.cancels
  live := by rw [e.live, e.finished]; exact h.live

theorem invoke_eq (work : Work) (call : Callback) (rest : List Callback) :
    ∃ pull continuation pushed, s.invoke config work call rest =
      { s with pull := pull, continuation := continuation, pushed := pushed } := by
  have hscan : ∀ (t : State platform) scanned, ∃ pull continuation, t.scan work call rest scanned =
      { t with pull := pull, continuation := continuation } := by
    intro t scanned
    unfold State.scan
    dsimp only
    split_ifs <;> exact ⟨_, _, rfl⟩
  unfold State.invoke
  split
  · obtain ⟨pull, continuation, e⟩ := hscan _ _
    exact ⟨pull, continuation, _, e⟩
  · obtain ⟨pull, continuation, e⟩ := hscan _ _
    exact ⟨pull, continuation, s.pushed, e⟩
  · exact ⟨_, s.continuation, s.pushed, rfl⟩

theorem goOn_same {work : Work} {rest : List Callback} (hne : work ≠ .done ∨ rest ≠ []) :
    SameOutcome s (s.goOn config work rest) := by
  cases rest with
  | cons call rest =>
    obtain ⟨pull, continuation, pushed, e⟩ := @invoke_eq _ config s work call rest
    show SameOutcome s (s.invoke config work call rest)
    rw [e]
    exact ⟨rfl, rfl, rfl, rfl, rfl, rfl, Iff.rfl⟩
  | nil =>
    cases work with
    | chunk chunk => exact ⟨rfl, rfl, rfl, rfl, rfl, rfl, Iff.rfl⟩
    | done => simp at hne

theorem catches_outcome (h : Outcome s) : Outcome s.catches := by
  cases hf : s.finished with
  | true =>
    rw [catches_ended hf]
    exact h.of_same ⟨rfl, rfl, rfl, rfl, rfl, rfl, Iff.rfl⟩
  | false =>
    rw [catches_open h hf]
    exact (ends_outcome h hf .upstream .errored (by decide)).of_same ⟨rfl, rfl, rfl, rfl, rfl, rfl, Iff.rfl⟩

theorem stop_outcome (h : Outcome s) (cause : Cause) : Outcome (s.stop cause) := by
  cases hf : s.finished with
  | true => rw [stop_ended h cause hf]; exact h
  | false => rw [stop_open h cause hf]; exact ends_outcome h hf cause .errored (by decide)

theorem interrupted_outcome (h : Outcome s) {i : Interrupt} (hi : i.Foreign) : Outcome (s.interrupted i) := by
  cases hf : s.finished with
  | true => rw [interrupted_ended h i hf]; exact h
  | false =>
    obtain ⟨cause, downstream, _, hd, e⟩ := interrupted_open h hi hf
    rw [e]
    exact ends_outcome h hf cause downstream hd

theorem goesOn_outcome (h : Outcome s) (work : Work) (rest : List Callback) (throws : Bool) :
    Outcome (s.goesOn config work rest throws) := by
  unfold State.goesOn
  split_ifs with hf ht
  · exact h.of_same ⟨rfl, rfl, rfl, rfl, rfl, rfl, Iff.rfl⟩
  · exact catches_outcome h
  · have hopen : s.finished = false := by simpa using hf
    by_cases hne : work ≠ .done ∨ rest ≠ []
    · exact h.of_same (goOn_same hne)
    · rw [not_or, not_not, not_not] at hne
      obtain ⟨rfl, rfl⟩ := hne
      rw [completes h hopen]
      exact (ends_outcome h hopen .complete .closed (by decide)).of_same
        ⟨rfl, rfl, rfl, rfl, rfl, rfl, Iff.rfl⟩

theorem reads_same (s : State platform) : SameOutcome s s.reads := by
  unfold State.reads
  split_ifs <;> exact ⟨rfl, rfl, rfl, rfl, rfl, rfl, Iff.rfl⟩

theorem answered_same (s : State platform) (result : Option Work) : SameOutcome s (s.answered result) := by
  unfold State.answered
  split <;> exact ⟨rfl, rfl, rfl, rfl, rfl, rfl, Iff.rfl⟩

/-- **Every step keeps it.** -/
theorem outcome_step {a : Label} (h : Outcome s) (hs : Step config s a s') : Outcome s' := by
  cases hs with
  | pull _ _ => exact (h.of_same (reads_same s)).of_same ⟨rfl, rfl, rfl, rfl, rfl, rfl, Iff.rfl⟩
  | pullInterrupted _ _ hi =>
    exact (interrupted_outcome (h.of_same (reads_same s)) hi).of_same ⟨rfl, rfl, rfl, rfl, rfl, rfl, Iff.rfl⟩
  | interrupt hi => exact interrupted_outcome h hi
  | read _ => exact h.of_same (answered_same s _)
  | settle _ _ _
  | reply _ _ _ _ | refused _ _ _ _ | fulfil _ _
  | cancelled _ => exact h.of_same ⟨rfl, rfl, rfl, rfl, rfl, rfl, Iff.rfl⟩
  | @afterRead result _ throws _ _ =>
    match result with
    | none => exact catches_outcome h
    | some (.chunk chunk) => exact goesOn_outcome h (.chunk chunk) config.chunkCalls throws
    | some .done => exact goesOn_outcome h .done config.endCalls throws
  | @afterCall work call rest ok throws _ =>
    have hcalled : Outcome { s with calls := s.calls ++ [(call, ok)] } :=
      h.of_same ⟨rfl, rfl, rfl, rfl, rfl, rfl, Iff.rfl⟩
    unfold State.afterCall
    split_ifs with hok hguard
    · exact goesOn_outcome hcalled work rest throws
    · exact (stop_outcome hcalled .publication).of_same ⟨rfl, rfl, rfl, rfl, rfl, rfl, Iff.rfl⟩
    · exact catches_outcome hcalled
  | thrown _ => exact catches_outcome h
  | retireSettled hr _ _ | retireHop hr _ _ | retireClosed hr _ | retireJoined hr _
  | retired hr _ => exact h.of_same ⟨rfl, rfl, rfl, rfl, rfl, rfl, by simp [hr]⟩
  | round _ => exact h.of_same ⟨rfl, rfl, rfl, rfl, rfl, rfl, Iff.rfl⟩

end ClawRouter.ObserveUsage
