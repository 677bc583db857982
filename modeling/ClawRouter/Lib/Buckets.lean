/-
  Subject:   Counting buckets by key, each an object of its own.

  A key has at most one live bucket. A bucket that is swept or falls to zero is no longer live; a later one
  under its key is another object, so what still holds the old one cannot credit the new one.

  * **`Counted.sweep`**, **`Counted.enter`**, **`Counted.leave`**: it is kept, with one more or one less held;
  * **`count_leave`**: what leaving credits.
-/
import Mathlib.Data.Int.Order.Basic
import Mathlib.Logic.Function.Basic

namespace Buckets

universe u

/-- A count, and when it ends. -/
structure Bucket where
  count : Nat
  resetAtMs : Int

/-- The live bucket of each key, and all buckets there ever were. -/
structure Store (κ : Type u) where
  live : κ → Option Nat
  objects : Nat → Bucket
  fresh : Nat

variable {κ : Type u}

namespace Store

/-- The buckets whose time is over are taken away. -/
def sweep (s : Store κ) (nowMs : Int) : Store κ :=
  { s with live := fun key => (s.live key).filter fun b => nowMs < (s.objects b).resetAtMs }

def count (s : Store κ) (key : κ) : Nat := ((s.live key).map fun b => (s.objects b).count).getD 0

theorem count_none {s : Store κ} {key : κ} (h : s.live key = none) : s.count key = 0 := by
  unfold count
  rw [h]
  rfl

def entry (s : Store κ) (key : κ) : Nat := (s.live key).getD s.fresh

variable [DecidableEq κ]

def enter (s : Store κ) (key : κ) (resetAtMs : Int) : Store κ :=
  match s.live key with
  | some b => { s with objects := Function.update s.objects b { s.objects b with count := (s.objects b).count + 1 } }
  | none =>
    { live := Function.update s.live key (some s.fresh)
      objects := Function.update s.objects s.fresh ⟨1, resetAtMs⟩
      fresh := s.fresh + 1 }

/-- One less in a bucket that is still the one of its key. -/
def leave (s : Store κ) (key : κ) (reserved : Nat) : Store κ :=
  if s.live key = some reserved then
    let bucket := { s.objects reserved with count := (s.objects reserved).count - 1 }
    { s with
      objects := Function.update s.objects reserved bucket
      live := if bucket.count = 0 then Function.update s.live key none else s.live }
  else s

end Store

/-- **The buckets count what is held in them**, within the limit of each key; what is held is in the
    live bucket
    as long as the time of that is not over. -/
structure Counted (limit : κ → Nat) (s : Store κ) (held : κ → Nat → Nat) (nowMs : Int) : Prop where
  fresh : ∀ key b, s.live key = some b → b < s.fresh
  used : ∀ key b, 0 < held key b → b < s.fresh
  inj : ∀ key key' b, s.live key = some b → s.live key' = some b → key = key'
  exact : ∀ key b, s.live key = some b → (s.objects b).count = held key b ∧ 0 < held key b
  bound : ∀ key b, held key b ≤ limit key
  kept : ∀ key b, 0 < held key b → nowMs < (s.objects b).resetAtMs → s.live key = some b

section Held

variable [DecidableEq κ]

def more (held : κ → Nat → Nat) (key : κ) (b : Nat) : κ → Nat → Nat :=
  fun k c => if k = key ∧ c = b then held k c + 1 else held k c

def less (held : κ → Nat → Nat) (key : κ) (b : Nat) : κ → Nat → Nat :=
  fun k c => if k = key ∧ c = b then held k c - 1 else held k c

end Held

namespace Counted

variable {limit : κ → Nat} {s : Store κ} {held : κ → Nat → Nat} {nowMs : Int}

theorem sweep (h : Counted limit s held nowMs) {later : Int} (hle : nowMs ≤ later) :
    Counted limit (s.sweep later) held later := by
  have hlive : ∀ {key b}, (s.sweep later).live key = some b → s.live key = some b := fun hb =>
    (Option.filter_eq_some_iff.mp hb).1
  exact
    { fresh := fun key b hb => h.fresh key b (hlive hb)
      used := h.used
      inj := fun key key' b hb hb' => h.inj key key' b (hlive hb) (hlive hb')
      exact := fun key b hb => h.exact key b (hlive hb)
      bound := h.bound
      kept := fun key b hheld hreset =>
        Option.filter_eq_some_iff.mpr ⟨h.kept key b hheld (Int.lt_of_le_of_lt hle hreset),
          decide_eq_true hreset⟩ }

theorem count_eq (h : Counted limit s held nowMs) {key : κ} {b : Nat} (hb : s.live key = some b) :
    s.count key = held key b := by
  unfold Store.count
  rw [hb]
  exact (h.exact key b hb).1

variable [DecidableEq κ]

theorem enter (h : Counted limit s held nowMs) {key : κ} (hroom : s.count key < limit key) (resetAtMs : Int) :
    Counted limit (s.enter key resetAtMs) (more held key (s.entry key)) nowMs ∧
      (s.enter key resetAtMs).live key = some (s.entry key) := by
  unfold Store.enter Store.entry
  cases hlive : s.live key with
  | some b =>
    obtain ⟨hexact, hpos⟩ := h.exact key b hlive
    have hcount := h.count_eq hlive
    dsimp only [Option.getD_some]
    refine ⟨⟨h.fresh, fun k c hc => ?_, h.inj, fun k c hc => ?_, fun k c => ?_, fun k c hc hreset =>
      ?_⟩, hlive⟩
    · unfold more at hc
      split at hc
      · rename_i heq
        rw [heq.2]
        exact h.fresh key b hlive
      · exact h.used k c hc
    · unfold more
      dsimp only
      by_cases hcb : c = b
      · obtain rfl := h.inj k key b (hcb ▸ hc) hlive
        rw [hcb, Function.update_self, if_pos ⟨rfl, rfl⟩]
        exact ⟨congrArg (· + 1) hexact, Nat.succ_pos _⟩
      · rw [Function.update_of_ne hcb, if_neg fun heq => hcb heq.2]
        exact h.exact k c hc
    · unfold more
      split
      · rename_i heq
        rw [heq.1, heq.2, ← hcount]
        exact hroom
      · exact h.bound k c
    · have hold : 0 < held k c := by
        unfold more at hc
        split at hc
        · rename_i heq
          rw [heq.1, heq.2]
          exact hpos
        · exact hc
      have hsame : (Function.update s.objects b { s.objects b with count :=
        (s.objects b).count + 1 } c).resetAtMs =
          (s.objects c).resetAtMs := by
        by_cases hcb : c = b
        · rw [hcb, Function.update_self]
        · rw [Function.update_of_ne hcb]
      rw [hsame] at hreset
      exact h.kept k c hold hreset
  | none =>
    have hnone : ∀ k, held k s.fresh = 0 := fun k =>
      Nat.eq_zero_of_not_pos fun hpos => Nat.lt_irrefl _ (h.used k s.fresh hpos)
    dsimp only [Option.getD_none]
    have hfresh : ∀ {k c}, s.live k = some c → c ≠ s.fresh := fun hc => Nat.ne_of_lt (h.fresh _ _ hc)
    have hcases : ∀ {k c}, Function.update s.live key (some s.fresh) k = some c →
        (k = key ∧ c = s.fresh) ∨ (k ≠ key ∧ s.live k = some c) := by
      intro k c hc
      by_cases hk : k = key
      · rw [hk, Function.update_self] at hc
        exact .inl ⟨hk, (Option.some.inj hc).symm⟩
      · rw [Function.update_of_ne hk] at hc
        exact .inr ⟨hk, hc⟩
    refine ⟨⟨fun k c hc => ?_, fun k c hc => ?_, fun k k' c hc hc' => ?_, fun k c hc => ?_, fun k c => ?_,
      fun k c hc hreset => ?_⟩, Function.update_self _ _ _⟩
    · rcases hcases hc with ⟨-, rfl⟩ | ⟨-, hc⟩
      · exact Nat.lt_succ_self _
      · exact Nat.lt_succ_of_lt (h.fresh k c hc)
    · unfold more at hc
      split at hc
      · rename_i heq
        rw [heq.2]
        exact Nat.lt_succ_self _
      · exact Nat.lt_succ_of_lt (h.used k c hc)
    · rcases hcases hc with ⟨rfl, rfl⟩ | ⟨-, hc⟩
      · rcases hcases hc' with ⟨rfl, -⟩ | ⟨-, hc'⟩
        · rfl
        · exact absurd rfl (hfresh hc')
      · rcases hcases hc' with ⟨-, rfl⟩ | ⟨-, hc'⟩
        · exact absurd rfl (hfresh hc)
        · exact h.inj k k' c hc hc'
    · unfold more
      dsimp only
      rcases hcases hc with ⟨rfl, rfl⟩ | ⟨hk, hc⟩
      · rw [Function.update_self, if_pos ⟨rfl, rfl⟩, hnone]
        exact ⟨rfl, Nat.succ_pos _⟩
      · rw [Function.update_of_ne (hfresh hc), if_neg fun heq => hk heq.1]
        exact h.exact k c hc
    · unfold more
      split
      · rename_i heq
        rw [heq.1, heq.2, hnone]
        exact Nat.lt_of_le_of_lt (Nat.zero_le _) hroom
      · exact h.bound k c
    · dsimp only at hreset ⊢
      by_cases hcb : c = s.fresh
      · unfold more at hc
        by_cases hk : k = key
        · rw [hk, hcb, Function.update_self]
        · rw [if_neg fun heq => hk heq.1, hcb, hnone] at hc
          exact absurd hc (Nat.lt_irrefl 0)
      · rw [Function.update_of_ne hcb] at hreset
        unfold more at hc
        rw [if_neg fun heq => hcb heq.2] at hc
        have hlive' := h.kept k c hc hreset
        rw [Function.update_of_ne fun hk => ?_]
        · exact hlive'
        · rw [hk, hlive] at hlive'
          cases hlive'

theorem count_enter (h : Counted limit s held nowMs) {key other : κ} (hne : other ≠ key) (resetAtMs : Int) :
    (s.enter key resetAtMs).count other = s.count other ∧ (s.enter key resetAtMs).live other =
      s.live other := by
  unfold Store.enter
  cases hlive : s.live key with
  | some b =>
    refine ⟨?_, rfl⟩
    unfold Store.count
    dsimp only
    cases hother : s.live other with
    | none => rfl
    | some c =>
      have hcb : c ≠ b := fun heq => hne (h.inj other key b (heq ▸ hother) hlive)
      rw [Option.map_some, Option.map_some, Function.update_of_ne hcb]
  | none =>
    have hsame : Function.update s.live key (some s.fresh) other = s.live other :=
      Function.update_of_ne hne _ _
    refine ⟨?_, hsame⟩
    unfold Store.count
    dsimp only
    rw [hsame]
    cases hother : s.live other with
    | none => rfl
    | some c =>
      have hcb : c ≠ s.fresh := Nat.ne_of_lt (h.fresh other c hother)
      rw [Option.map_some, Option.map_some, Function.update_of_ne hcb]

theorem leave (h : Counted limit s held nowMs) {key : κ} {b : Nat} (hheld : 0 < held key b) :
    Counted limit (s.leave key b) (less held key b) nowMs := by
  have hless : ∀ {k c}, 0 < less held key b k c → 0 < held k c := by
    intro k c hc
    unfold less at hc
    split at hc
    · omega
    · exact hc
  have hbound : ∀ k c, less held key b k c ≤ limit k := by
    intro k c
    have := h.bound k c
    unfold less
    split <;> omega
  unfold Store.leave
  by_cases hlive : s.live key = some b
  · obtain ⟨hexact, -⟩ := h.exact key b hlive
    rw [if_pos hlive]
    have hsub : ∀ {k c}, (if (s.objects b).count - 1 = 0 then Function.update s.live key none else
      s.live) k = some c →
        s.live k = some c ∧ (k = key → (s.objects b).count - 1 ≠ 0) := by
      intro k c hc
      split at hc
      · by_cases hk : k = key
        · rw [hk, Function.update_self] at hc
          cases hc
        · rw [Function.update_of_ne hk] at hc
          exact ⟨hc, fun e => absurd e hk⟩
      · rename_i hne
        exact ⟨hc, fun _ => hne⟩
    refine ⟨fun k c hc => h.fresh k c (hsub hc).1, fun k c hc => h.used k c (hless hc),
      fun k k' c hc hc' => h.inj k k' c (hsub hc).1 (hsub hc').1, fun k c hc =>
        ?_, hbound, fun k c hc hreset => ?_⟩
    · obtain ⟨hold, hne⟩ := hsub hc
      unfold less
      dsimp only
      by_cases hcb : c = b
      · obtain rfl := h.inj k key b (hcb ▸ hold) hlive
        have hpos := hne rfl
        rw [hcb, Function.update_self, if_pos ⟨rfl, rfl⟩]
        dsimp only
        omega
      · rw [Function.update_of_ne hcb, if_neg fun heq => hcb heq.2]
        exact h.exact k c hold
    · have hsame : (Function.update s.objects b { s.objects b with count :=
        (s.objects b).count - 1 } c).resetAtMs =
          (s.objects c).resetAtMs := by
        by_cases hcb : c = b
        · rw [hcb, Function.update_self]
        · rw [Function.update_of_ne hcb]
      rw [hsame] at hreset
      have hold := h.kept k c (hless hc) hreset
      dsimp only
      split
      · rename_i hzero
        by_cases hk : k = key
        · rw [hk, hlive] at hold
          obtain rfl := Option.some.inj hold
          unfold less at hc
          rw [if_pos ⟨hk, rfl⟩, hk] at hc
          omega
        · rw [Function.update_of_ne hk]
          exact hold
      · exact hold
  · rw [if_neg hlive]
    refine ⟨h.fresh, fun k c hc => h.used k c (hless hc), h.inj, fun k c hc => ?_, hbound,
      fun k c hc hreset => h.kept k c (hless hc) hreset⟩
    unfold less
    rw [if_neg fun heq : k = key ∧ c = b => hlive (heq.1 ▸ heq.2 ▸ hc)]
    exact h.exact k c hc

end Counted

section Leave

variable [DecidableEq κ] (s : Store κ) (key : κ) (reserved : Nat)

/-- **Leaving credits the bucket that was reserved, where it is still the one of its key, and no other.** -/
theorem count_leave (b : Nat) : ((s.leave key reserved).objects b).count =
      (s.objects b).count - if b = reserved ∧ s.live key = some reserved then 1 else 0 := by
  unfold Store.leave
  by_cases hlive : s.live key = some reserved
  · rw [if_pos hlive]
    dsimp only
    by_cases hb : b = reserved
    · rw [hb, Function.update_self, if_pos ⟨rfl, hlive⟩]
    · rw [Function.update_of_ne hb, if_neg fun h => hb h.1]
      rfl
  · rw [if_neg hlive, if_neg fun h => hlive h.2]
    rfl

theorem live_leave {other : κ} (h : other ≠ key) : (s.leave key reserved).live other = s.live other := by
  unfold Store.leave
  split
  · dsimp only
    split
    · exact Function.update_of_ne h _ _
    · rfl
  · rfl

end Leave

end Buckets
