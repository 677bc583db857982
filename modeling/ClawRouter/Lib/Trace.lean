/-
  Subject:   Runs of a system that takes labelled steps.

  A step relation says what a label may do; a run is a finite sequence of steps, and it keeps the
  sequence of its labels. Nothing is said about time.

  * `Run.trans`: runs compose.
-/
import Mathlib.Data.List.Basic

namespace Trace

universe u v

variable {σ : Type u} {α : Type v}

/-- A run from state `s₀`: its labels, oldest first, and the state reached. -/
inductive Run (step : σ → α → σ → Prop) (s₀ : σ) : List α → σ → Prop
  | start : Run step s₀ [] s₀
  | next {tr : List α} {s s' : σ} {a : α} :
      Run step s₀ tr s → step s a s' → Run step s₀ (tr ++ [a]) s'

namespace Run

variable {step : σ → α → σ → Prop} {s₀ s : σ} {tr : List α}

theorem invariant {I : σ → Prop} (h : Run step s₀ tr s) (h0 : I s₀)
    (hs : ∀ s a s', I s → step s a s' → I s') : I s := by
  induction h with
  | start => exact h0
  | next _ ha ih => exact hs _ _ _ ih ha

theorem invariant_along {I : List α → σ → Prop} (h : Run step s₀ tr s) (h0 : I [] s₀)
    (hs : ∀ tr s a s', I tr s → step s a s' → I (tr ++ [a]) s') : I tr s := by
  induction h with
  | start => exact h0
  | next _ ha ih => exact hs _ _ _ _ ih ha

theorem trans {s' : σ} {tr' : List α} (h : Run step s₀ tr s) (h' : Run step s tr' s') :
    Run step s₀ (tr ++ tr') s' := by
  induction h' with
  | start => rw [List.append_nil]; exact h
  | next _ ha ih => rw [← List.append_assoc]; exact ih.next ha

end Run

end Trace
