/-
  Subject:   Replacing every occurrence of a needle, where the replacement marks some of its places.

  * **`replaceAll_quiet`**: no occurrence is left, where the mark is not in the needle.
-/
import ClawRouter.Lib.Search
import Mathlib.Data.List.Forall2

namespace Replace

open Search

variable {α : Type} {mark : α} {needle replacement : List α}

/-! ## 1. Marks and cuts -/

def Marked (mark : α) (before after : List α) : Prop := List.Forall₂ (fun a b => b = a ∨ b = mark) before after

theorem Marked.append {xs xs' ys ys' : List α} (h : Marked mark xs xs') (h' : Marked mark ys ys') :
    Marked mark (xs ++ ys) (xs' ++ ys') := by
  induction h with
  | nil => exact h'
  | cons hab _ ih => exact .cons hab ih

theorem Marked.prefix_of {target before after : List α} (h : Marked mark before after) (hmark : mark ∉ target)
    (hfound : target <+: after) : target <+: before := by
  induction h generalizing target with
  | nil => exact hfound
  | @cons a b before after hab _ ih =>
    cases target with
    | nil => exact List.nil_prefix
    | cons c target =>
      rw [List.cons_prefix_cons] at hfound ⊢
      rw [List.mem_cons, not_or] at hmark
      obtain ⟨hcb, hrest⟩ := hfound
      rcases hab with e | e
      · exact ⟨hcb.trans e, ih hmark.2 hrest⟩
      · exact absurd (hcb.trans e).symm hmark.1

theorem Marked.quiet {before after : List α} (h : Marked mark before after) (hmark : mark ∉ needle)
    (hquiet : Quiet needle before []) : Quiet needle after [] := by
  induction h with
  | nil => exact trivial
  | cons hab hrest ih =>
    refine ⟨fun hoccurs => hquiet.1 ?_, ih hquiet.2⟩
    rw [List.append_nil] at hoccurs ⊢
    exact Marked.prefix_of (.cons hab hrest) hmark hoccurs

theorem prefix_before {x : α} (hx : x ∉ needle) {front back : List α}
    (h : needle <+: front ++ x :: back) : needle <+: front := by
  induction front generalizing needle with
  | nil =>
    cases needle with
    | nil => exact List.nil_prefix
    | cons d needle => exact absurd (List.cons_prefix_cons.mp h).1 fun e => hx (e ▸ List.mem_cons_self)
  | cons c front ih =>
    cases needle with
    | nil => exact List.nil_prefix
    | cons d needle =>
      rw [List.mem_cons, not_or] at hx
      obtain ⟨hhead, hrest⟩ := List.cons_prefix_cons.mp h
      exact List.cons_prefix_cons.mpr ⟨hhead, ih hx.2 hrest⟩

/-! ## 2. The replacement -/

variable [DecidableEq α]

def replaceAll (needle replacement : List α) (hne : needle ≠ []) : List α → List α
  | [] => []
  | u :: rest =>
    if needle.isPrefixOf (u :: rest) then
      replacement ++ replaceAll needle replacement hne ((u :: rest).drop needle.length)
    else u :: replaceAll needle replacement hne rest
termination_by t => t.length
decreasing_by
  · have hpos := List.length_pos_of_ne_nil hne
    rw [List.length_drop, List.length_cons]
    omega
  · exact Nat.lt_succ_self _

variable {hne : needle ≠ []}

theorem replaceAll_cons (u : α) (rest : List α) : replaceAll needle replacement hne (u :: rest) =
    if needle.isPrefixOf (u :: rest) then
      replacement ++ replaceAll needle replacement hne ((u :: rest).drop needle.length)
    else u :: replaceAll needle replacement hne rest := by
  rw [replaceAll]

theorem replaceAll_marked (hne : needle ≠ []) (h : Marked mark needle replacement) (t : List α) :
    Marked mark t (replaceAll needle replacement hne t) := by
  induction t using replaceAll.induct needle hne with
  | case1 =>
    rw [replaceAll]
    exact .nil
  | case2 u rest hfound ih =>
    rw [replaceAll_cons, if_pos hfound]
    obtain ⟨back, hback⟩ := List.isPrefixOf_iff_prefix.mp hfound
    rw [← hback, List.drop_left] at ih ⊢
    exact h.append ih
  | case3 u rest hfound ih =>
    rw [replaceAll_cons, if_neg hfound]
    exact .cons (.inl rfl) ih

/-- **No occurrence is left**: none begins in a replacement, and one elsewhere would have been there. -/
theorem replaceAll_quiet (hne : needle ≠ []) (h : Marked mark needle replacement) (hmark : mark ∉ needle)
    (hself : ∀ back, Quiet needle replacement back) (t : List α) :
    Quiet needle (replaceAll needle replacement hne t) [] := by
  induction t using replaceAll.induct needle hne with
  | case1 =>
    rw [replaceAll]
    exact trivial
  | case2 u rest hfound ih =>
    rw [replaceAll_cons, if_pos hfound]
    exact (hself _).append ih
  | case3 u rest hfound ih =>
    rw [replaceAll_cons, if_neg hfound]
    refine ⟨fun hoccurs => hfound ?_, ih⟩
    rw [List.append_nil] at hoccurs
    have hmarked : Marked mark (u :: rest) (u :: replaceAll needle replacement hne rest) :=
      .cons (.inl rfl) (replaceAll_marked hne h rest)
    exact List.isPrefixOf_iff_prefix.mpr (hmarked.prefix_of hmark hoccurs)


theorem replaceAll_absent {d : α} (hfirst : needle.head? = some d) {t : List α} (h : d ∉ t) :
    replaceAll needle replacement hne t = t := by
  induction t with
  | nil => rw [replaceAll]
  | cons u rest ih =>
    rw [List.mem_cons, not_or] at h
    have hfound : ¬ needle.isPrefixOf (u :: rest) = true := by
      intro hfound
      obtain ⟨back, hback⟩ := List.isPrefixOf_iff_prefix.mp hfound
      cases needle with
      | nil => cases hfirst
      | cons c needle =>
        cases hfirst
        exact h.1 (List.cons.inj hback).1
    rw [replaceAll_cons, if_neg hfound, ih h.2]

/-- From no place on the text and the needle agree for as long as both go on. -/
def clashes (needle : List α) : List α → Bool
  | [] => true
  | u :: rest => !needle.isPrefixOf (u :: rest) && !(u :: rest).isPrefixOf needle && clashes needle rest

theorem quiet_of_clashes {front : List α} (h : clashes needle front = true) (back : List α) :
    Quiet needle front back := by
  induction front with
  | nil => exact trivial
  | cons u front ih =>
    rw [clashes, Bool.and_eq_true, Bool.and_eq_true, Bool.not_eq_true', Bool.not_eq_true'] at h
    refine ⟨fun hoccurs => ?_, ih h.2⟩
    rcases List.prefix_or_prefix_of_prefix hoccurs (List.prefix_append (u :: front) back) with hp | hp
    · rw [List.isPrefixOf_iff_prefix.mpr hp] at h
      exact Bool.noConfusion h.1.1
    · rw [List.isPrefixOf_iff_prefix.mpr hp] at h
      exact Bool.noConfusion h.1.2

/-! ## 3. Occurrences -/

def occurrences (needle : List α) : List α → Nat
  | [] => 0
  | u :: rest => (if needle.isPrefixOf (u :: rest) then 1 else 0) + occurrences needle rest

theorem occurrences_cons (needle : List α) (u : α) (rest : List α) : occurrences needle (u :: rest) =
    (if needle.isPrefixOf (u :: rest) then 1 else 0) + occurrences needle rest := rfl

theorem occurrences_cut {x : α} (hx : x ∉ needle) (front back : List α) :
    occurrences needle (front ++ x :: back) = occurrences needle front + occurrences needle (x :: back) := by
  induction front with
  | nil => exact (Nat.zero_add _).symm
  | cons c front ih =>
    have hfirst : needle.isPrefixOf (c :: (front ++ x :: back)) = needle.isPrefixOf (c :: front) := by
      rw [Bool.eq_iff_iff, List.isPrefixOf_iff_prefix, List.isPrefixOf_iff_prefix]
      exact ⟨fun h => prefix_before hx h, fun h => h.trans (List.prefix_append (c :: front) (x :: back))⟩
    rw [List.cons_append, occurrences_cons, occurrences_cons, ih, hfirst, Nat.add_assoc]

theorem occurrences_skip {front : List α} (hne : needle ≠ []) (h : ∀ u ∈ front, u ∉ needle) (back : List α) :
    occurrences needle (front ++ back) = occurrences needle back := by
  induction front with
  | nil => rfl
  | cons u front ih =>
    have hfirst : ¬ needle.isPrefixOf (u :: (front ++ back)) = true := by
      intro hfound
      cases needle with
      | nil => exact hne rfl
      | cons d needle =>
        have hhead := (List.cons_prefix_cons.mp (List.isPrefixOf_iff_prefix.mp hfound)).1
        exact h u List.mem_cons_self (hhead ▸ List.mem_cons_self)
    rw [List.cons_append, occurrences_cons, if_neg hfirst, ih fun v hv => h v
      (List.mem_cons_of_mem u hv), Nat.zero_add]

theorem occurrences_quiet {t : List α} (h : Quiet needle t []) : occurrences needle t = 0 := by
  induction t with
  | nil => rfl
  | cons u rest ih =>
    have hfirst : ¬ needle.isPrefixOf (u :: rest) = true := by
      intro hfound
      refine h.1 ?_
      rw [List.append_nil]
      exact List.isPrefixOf_iff_prefix.mp hfound
    rw [occurrences_cons, if_neg hfirst, ih h.2]

theorem occurrences_missing {m : α} (hm : m ∈ needle) {t : List α} (h : m ∉ t) : occurrences needle t = 0 := by
  induction t with
  | nil => rfl
  | cons u rest ih =>
    have hfirst : ¬ needle.isPrefixOf (u :: rest) = true := by
      intro hfound
      exact h ((List.isPrefixOf_iff_prefix.mp hfound).subset hm)
    rw [occurrences_cons, if_neg hfirst, ih fun hrest => h (List.mem_cons_of_mem u hrest)]

end Replace
