/-
  Subject:   Where a list occurs first in another.

  * **`indexOf_quiet`**: after a quiet front the search finds what stands there.
-/
import Mathlib.Data.List.Infix

namespace Search

variable {α : Type}

/-! ## 1. Quiet fronts -/

/-- No occurrence begins in `front` when `back` comes after it. -/
def Quiet (needle : List α) : List α → List α → Prop
  | [], _ => True
  | c :: front, back => ¬ needle <+: c :: (front ++ back) ∧ Quiet needle front back

theorem Quiet.append {needle xs ys back : List α} (hx : Quiet needle xs (ys ++ back))
    (hy : Quiet needle ys back) :
    Quiet needle (xs ++ ys) back := by
  induction xs with
  | nil => exact hy
  | cons c xs ih =>
    refine ⟨?_, ih hx.2⟩
    have hfirst := hx.1
    rwa [← List.append_assoc] at hfirst

theorem Quiet.cons {c d : α} {needle front back : List α} (hne : c ≠ d) (h : Quiet (d :: needle) front back) :
    Quiet (d :: needle) (c :: front) back :=
  ⟨fun hoccurs => hne (List.cons_prefix_cons.mp hoccurs).1.symm, h⟩

theorem Quiet.of_absent {d : α} {needle front : List α} (h : d ∉ front) (back : List α) :
    Quiet (d :: needle) front back := by
  induction front with
  | nil => exact trivial
  | cons c front ih =>
    rw [List.mem_cons, not_or] at h
    exact .cons (fun hc => h.1 hc.symm) (ih h.2)

theorem Quiet.of_short {needle front back : List α} (hlt : front.length < needle.length)
    (h : ∀ c, back.head? = some c → c ∉ needle) : Quiet needle front back := by
  induction front with
  | nil => exact trivial
  | cons c front ih =>
    refine ⟨fun hoccurs => ?_, ih (Nat.lt_of_succ_lt hlt)⟩
    obtain ⟨rest, hrest⟩ := hoccurs
    -- the needle goes on into what comes after
    have hsplit : ∃ more, needle = c :: front ++ more ∧ more ++ rest = back := by
      have hle : (c :: front).length ≤ needle.length := Nat.le_of_lt hlt
      refine ⟨needle.drop (c :: front).length, ?_, ?_⟩
      · have htake := congrArg (List.take (c :: front).length) hrest
        rw [List.take_append_of_le_length hle, ← List.cons_append, List.take_left] at htake
        rw [← htake, List.length_take, Nat.min_eq_left hle, List.take_append_drop]
      · have hdrop := congrArg (List.drop (c :: front).length) hrest
        rwa [List.drop_append_of_le_length hle, ← List.cons_append, List.drop_left] at hdrop
    obtain ⟨more, hneedle, hback⟩ := hsplit
    cases more with
    | nil =>
      rw [List.append_nil] at hneedle
      rw [hneedle] at hlt
      exact Nat.lt_irrefl _ hlt
    | cons m more =>
      refine h m ?_ ?_
      · rw [← hback]
        rfl
      · rw [hneedle]
        exact List.mem_append_right _ List.mem_cons_self

theorem append_cons_inj {x : α} {xs ys as bs : List α} (hx : x ∉ xs) (hy : x ∉ ys)
    (h : xs ++ x :: as = ys ++ x :: bs) : xs = ys ∧ as = bs := by
  induction xs generalizing ys with
  | nil =>
    cases ys with
    | nil => exact ⟨rfl, (List.cons.inj h).2⟩
    | cons y ys => exact absurd (List.cons.inj h).1 fun e => hy (e ▸ List.mem_cons_self)
  | cons c xs ih =>
    cases ys with
    | nil => exact absurd (List.cons.inj h).1 fun e => hx (e ▸ List.mem_cons_self)
    | cons y ys =>
      rw [List.mem_cons, not_or] at hx hy
      obtain ⟨hhead, hrest⟩ := List.cons.inj h
      obtain ⟨e, e'⟩ := ih hx.2 hy.2 hrest
      exact ⟨by rw [hhead, e], e'⟩

/-! ## 2. The search -/

variable [DecidableEq α]

def indexOf (needle : List α) : List α → Option Nat
  | [] => if needle.isPrefixOf [] then some 0 else none
  | c :: rest => if needle.isPrefixOf (c :: rest) then some 0 else (indexOf needle rest).map (· + 1)

theorem indexOf_here {needle text : List α} (h : needle <+: text) : indexOf needle text = some 0 := by
  cases text with
  | nil | cons c text =>
    unfold indexOf
    rw [if_pos (List.isPrefixOf_iff_prefix.mpr h)]

theorem indexOf_later {needle text : List α} {c : α} (h : ¬ needle <+: c :: text) :
    indexOf needle (c :: text) = (indexOf needle text).map (· + 1) := by
  rw [indexOf, if_neg fun hprefix => h (List.isPrefixOf_iff_prefix.mp hprefix)]

/-- **After a quiet front the search goes on with what comes after.** -/
theorem indexOf_quiet {needle front back : List α} (h : Quiet needle front back) :
    indexOf needle (front ++ back) = (indexOf needle back).map (front.length + ·) := by
  induction front with
  | nil =>
    rw [List.nil_append]
    cases indexOf needle back with
    | none => rfl
    | some n => exact congrArg some (Nat.zero_add n).symm
  | cons c front ih =>
    rw [List.cons_append, indexOf_later h.1, ih h.2]
    cases indexOf needle back with
    | none => rfl
    | some n =>
      show some (front.length + n + 1) = some (front.length + 1 + n)
      congr 1
      omega

theorem indexOf_lt {d : α} {needle text : List α} {n : Nat} (h : indexOf (d :: needle) text = some n) :
    n < text.length := by
  induction text generalizing n with
  | nil => cases h
  | cons c text ih =>
    rw [List.length_cons]
    unfold indexOf at h
    split at h
    · cases h
      exact Nat.succ_pos _
    · obtain ⟨m, hm, rfl⟩ := Option.map_eq_some_iff.mp h
      exact Nat.succ_lt_succ (ih hm)

end Search
