/-
  Subject:   Machines that are fed one symbol at a time, and implementations that take chunks.

  * **`pushAll_simulates`**: an implementation whose every push is a feed of the chunk follows the
    machine on all chunks together, so its outputs do not depend on the cuts.
-/
import Mathlib.Data.List.Basic

namespace Chunked

variable {σ τ ι ω : Type}

def feed (step : σ → ι → σ × List ω) (s : σ) : List ι → σ × List ω
  | [] => (s, [])
  | x :: rest =>
    let r := step s x
    let t := feed step r.1 rest
    (t.1, r.2 ++ t.2)

theorem feed_append (step : σ → ι → σ × List ω) (s : σ) (xs ys : List ι) : feed step s (xs ++ ys) =
      ((feed step (feed step s xs).1 ys).1, (feed step s xs).2 ++ (feed step (feed step s xs).1 ys).2) := by
  induction xs generalizing s with
  | nil => rfl
  | cons x xs ih =>
    simp only [List.cons_append, feed, ih, List.append_assoc]

def pushAll (push : τ → List ι → τ × List ω) (t : τ) : List (List ι) → τ × List ω
  | [] => (t, [])
  | chunk :: rest =>
    let r := push t chunk
    let u := pushAll push r.1 rest
    (u.1, r.2 ++ u.2)

/-- Every push follows the machine from every pair of related states. -/
def Simulates (push : τ → List ι → τ × List ω) (step : σ → ι → σ × List ω) (R : τ → σ → Prop) : Prop :=
  ∀ t s chunk, R t s → R (push t chunk).1 (feed step s chunk).1 ∧ (push t chunk).2 = (feed step s chunk).2

theorem pushAll_simulates {push : τ → List ι → τ × List ω} {step : σ → ι → σ × List ω} {R : τ → σ → Prop}
    (h : Simulates push step R) {t : τ} {s : σ} (hts : R t s) (chunks : List (List ι)) :
    R (pushAll push t chunks).1 (feed step s chunks.flatten).1 ∧
      (pushAll push t chunks).2 = (feed step s chunks.flatten).2 := by
  induction chunks generalizing t s with
  | nil => exact ⟨hts, rfl⟩
  | cons chunk rest ih =>
    obtain ⟨hr, hout⟩ := h t s chunk hts
    obtain ⟨hr', hout'⟩ := ih hr
    rw [List.flatten_cons, feed_append]
    refine ⟨hr', ?_⟩
    show (push t chunk).2 ++ _ = _
    rw [hout, hout']

end Chunked
