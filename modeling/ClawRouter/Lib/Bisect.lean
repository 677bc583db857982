/-
  Subject:   The first place where a test fails, found by halving.

  * `bisect`: the search; **`bisect_spec`**: what it finds, where the test fails at the upper end and does not
    hold again after it failed.
-/
import Mathlib.Algebra.Group.Int.Defs
import Mathlib.Data.Int.Order.Basic

namespace Bisect

/-- The search between two places, with so many steps. -/
def bisect (before : Int → Bool) : Nat → Int → Int → Int
  | 0, low, _ => low
  | steps + 1, low, high =>
    if low < high then
      let mid := low + (high - low) / 2
      if before mid = true then bisect before steps (mid + 1) high else bisect before steps low mid
    else low

/-- **Halving finds the first place where the test fails.** -/
theorem bisect_spec {before : Int → Bool} (steps : Nat) {low high : Int} (hle : low ≤ high)
    (hmono : ∀ a b, low ≤ a → a ≤ b → b ≤ high → before b = true → before a = true)
      (hhigh : before high = false)
    (hsteps : high - low < 2 ^ steps) :
    (low ≤ bisect before steps low high ∧ bisect before steps low high ≤ high) ∧
      before (bisect before steps low high) = false ∧
      ∀ place, low ≤ place → place < bisect before steps low high → before place = true := by
  induction steps generalizing low high with
  | zero =>
    have heq : low = high := by omega
    subst heq
    exact ⟨⟨le_refl _, le_refl _⟩, hhigh, fun place hlow hlt => absurd hlt (not_lt.mpr hlow)⟩
  | succ steps ih =>
    rw [Int.pow_succ] at hsteps
    unfold bisect
    by_cases hlt : low < high
    · rw [if_pos hlt]
      generalize hmid : low + (high - low) / 2 = mid
      by_cases hbefore : before mid = true
      · rw [if_pos hbefore]
        obtain ⟨⟨hfrom, hto⟩, hfails, hall⟩ := @ih (mid + 1) high (by omega)
          (fun a b ha => hmono a b (by omega)) hhigh (by omega)
        refine ⟨⟨by omega, hto⟩, hfails, fun place hlow hat => ?_⟩
        by_cases hle : place ≤ mid
        · exact hmono place mid hlow hle (by omega) hbefore
        · exact hall place (by omega) hat
      · rw [if_neg hbefore]
        obtain ⟨⟨hfrom, hto⟩, hfails, hall⟩ := @ih low mid (by omega)
          (fun a b ha hab hb => hmono a b ha hab (by omega)) (Bool.eq_false_iff.mpr hbefore) (by omega)
        exact ⟨⟨hfrom, by omega⟩, hfails, hall⟩
    · rw [if_neg hlt]
      have heq : low = high := by omega
      subst heq
      exact ⟨⟨le_refl _, le_refl _⟩, hhigh, fun place hlow hat => absurd hat (not_lt.mpr hlow)⟩

end Bisect
