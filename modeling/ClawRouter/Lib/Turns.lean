/-
  Subject:   Taking turns by a cursor: the first item that comes after the cursor, or the first of all.

  The items stand in a list, the cursor and the items are compared by rank. Whether everyone gets a turn
  depends on whether the list stands in the order of the ranks.

  * **`turns_perm`**, `byRank_of_leads`: everyone gets one turn in a round, whatever the cursor, in a list by
    rank; and where everyone gets a turn at all, the list is one.
-/
import Mathlib.Data.List.Nodup
import Mathlib.Data.List.Perm.Basic
import Mathlib.Order.Lattice

namespace Turns

section Turns

variable {α β : Type*} [LinearOrder β] (rank : α → β)

def next (l : List α) (cursor : β) : Option α := (l.find? fun c => cursor < rank c).or l.head?

/-- So many turns, each with its rank as the next cursor. -/
def turns (l : List α) : Nat → β → List α
  | 0, _ => []
  | n + 1, cursor =>
    match next rank l cursor with
    | none => []
    | some c => c :: turns l n (rank c)

def ByRank (l : List α) : Prop := l.Pairwise fun a b => rank a < rank b

variable {rank} {l xs ys : List α} {cursor : β}

theorem find_after (hxs : ∀ x ∈ xs, ¬ cursor < rank x) (hys : ∀ y ∈ ys, cursor < rank y) :
    ((xs ++ ys).find? fun c => cursor < rank c) = ys.head? := by
  have hnone : (xs.find? fun c => cursor < rank c) = none := by
    rw [List.find?_eq_none]
    intro x hx
    rw [decide_eq_true_iff]
    exact hxs x hx
  rw [List.find?_append, hnone, Option.none_or]
  cases ys with
  | nil => rfl
  | cons y ys =>
    rw [List.find?_cons_of_pos]
    · rfl
    · exact decide_eq_true (hys y List.mem_cons_self)

theorem turns_sorted {n : Nat} (hsorted : ByRank rank (xs ++ ys)) (hn : n ≤ (xs ++ ys).length)
    (hxs : ∀ x ∈ xs, ¬ cursor < rank x) (hys : ∀ y ∈ ys, cursor < rank y) :
    turns rank (xs ++ ys) n cursor = (ys ++ xs).take n := by
  induction n generalizing xs ys cursor with
  | zero => rw [List.take_zero]; rfl
  | succ n ih =>
    have hfind := find_after hxs hys
    unfold turns next
    rw [hfind]
    cases ys with
    | cons y ys =>
      have hsplit : xs ++ y :: ys = (xs ++ [y]) ++ ys := by rw [List.append_assoc]; rfl
      have hbefore : ∀ x ∈ xs ++ [y], ¬ rank y < rank x := by
        intro x hx
        rcases List.mem_append.mp hx with hx | hx
        · exact lt_asymm ((List.pairwise_append.mp hsorted).2.2 x hx y List.mem_cons_self)
        · rw [List.mem_singleton.mp hx]
          exact lt_irrefl _
      have hafter : ∀ z ∈ ys, rank y < rank z :=
        fun z hz => (List.pairwise_cons.mp (List.pairwise_append.mp hsorted).2.1).1 z hz
      have hle : n ≤ (ys ++ xs).length := by
        simp only [List.length_append, List.length_cons] at hn ⊢
        omega
      show y :: turns rank (xs ++ y :: ys) n (rank y) = _
      rw [hsplit] at hsorted hn ⊢
      rw [ih hsorted (by omega) hbefore hafter, ← List.append_assoc, List.take_append_of_le_length hle]
      rfl
    | nil =>
      cases xs with
      | nil =>
        simp at hn
      | cons x xs =>
        have hsplit : (x :: xs) ++ [] = [x] ++ xs := List.append_nil _
        have hbefore : ∀ z ∈ [x], ¬ rank x < rank z := by
          intro z hz
          rw [List.mem_singleton.mp hz]
          exact lt_irrefl _
        have hafter : ∀ z ∈ xs, rank x < rank z := by
          rw [List.append_nil] at hsorted
          exact fun z hz => (List.pairwise_cons.mp hsorted).1 z hz
        have hle : n ≤ xs.length := by
          simp only [List.append_nil, List.length_cons] at hn
          omega
        show x :: turns rank (x :: xs ++ []) n (rank x) = _
        rw [hsplit] at hsorted hn ⊢
        rw [ih hsorted (by omega) hbefore hafter, List.take_append_of_le_length hle]
        rfl

theorem split_at (hsorted : ByRank rank l) (cursor : β) :
    ∃ xs ys, l = xs ++ ys ∧ (∀ x ∈ xs, ¬ cursor < rank x) ∧ ∀ y ∈ ys, cursor < rank y := by
  induction l with
  | nil => exact ⟨[], [], rfl, fun _ h => absurd h List.not_mem_nil, fun _ h => absurd h List.not_mem_nil⟩
  | cons a l ih =>
    obtain ⟨hfirst, hrest⟩ := List.pairwise_cons.mp hsorted
    by_cases ha : cursor < rank a
    · refine ⟨[], a :: l, rfl, fun _ h => absurd h List.not_mem_nil, fun y hy => ?_⟩
      rcases List.mem_cons.mp hy with rfl | hy
      · exact ha
      · exact lt_trans ha (hfirst y hy)
    · obtain ⟨xs, ys, rfl, hxs, hys⟩ := ih hrest
      refine ⟨a :: xs, ys, rfl, fun x hx => ?_, hys⟩
      rcases List.mem_cons.mp hx with rfl | hx
      · exact ha
      · exact hxs x hx

def Leads (rank : α → β) (l : List α) (c : α) : Prop := ∃ xs ys, l = xs ++ c :: ys ∧ ∀ x ∈ xs, rank x < rank c

theorem next_leads {c : α} (h : next rank l cursor = some c) : Leads rank l c := by
  unfold next at h
  cases hfind : l.find? fun c => cursor < rank c with
  | none =>
    rw [hfind] at h
    cases l with
    | nil => cases h
    | cons a l =>
      cases h
      exact ⟨[], l, rfl, fun _ h => absurd h List.not_mem_nil⟩
  | some d =>
    rw [hfind] at h
    cases h
    obtain ⟨hc, xs, ys, rfl, hbefore⟩ := List.find?_eq_some_iff_append.mp hfind
    refine ⟨xs, ys, rfl, fun x hx => ?_⟩
    have hx := hbefore x hx
    rw [Bool.not_eq_true', decide_eq_false_iff_not] at hx
    exact lt_of_le_of_lt (not_lt.mp hx) (of_decide_eq_true hc)

theorem turns_lead {n : Nat} {c : α} (h : c ∈ turns rank l n cursor) : Leads rank l c := by
  induction n generalizing cursor with
  | zero => cases h
  | succ n ih =>
    unfold turns at h
    split at h
    · cases h
    · rename_i d hnext
      rcases List.mem_cons.mp h with rfl | h
      · exact next_leads hnext
      · exact ih h

theorem byRank_of_leads (hnodup : l.Nodup) (h : ∀ c ∈ l, Leads rank l c) : ByRank rank l := by
  unfold ByRank
  rw [List.pairwise_iff_getElem]
  intro i j hi hj hij
  obtain ⟨xs, ys, hsplit, hbefore⟩ := h l[j] (List.getElem_mem hj)
  have hlt : xs.length < l.length := by
    rw [hsplit, List.length_append, List.length_cons]
    omega
  have hplace : l[xs.length] = l[j] := by
    rw [List.getElem_of_eq hsplit, List.getElem_append_right (Nat.le_refl _)]
    simp
  have hj' : xs.length = j := (List.Nodup.getElem_inj_iff hnodup).mp hplace
  refine hbefore _ ?_
  have hi' : l[i] = xs[i] := by
    rw [List.getElem_of_eq hsplit, List.getElem_append_left]
  rw [hi']
  exact List.getElem_mem _

/-- **In a list by rank everyone gets one turn in a round**, whatever the cursor. -/
theorem turns_perm (hsorted : ByRank rank l) (cursor : β) : (turns rank l l.length cursor).Perm l := by
  obtain ⟨xs, ys, rfl, hxs, hys⟩ := split_at hsorted cursor
  rw [turns_sorted hsorted (Nat.le_refl _) hxs hys, List.length_append, Nat.add_comm, ← List.length_append,
    List.take_length]
  exact List.perm_append_comm

end Turns

end Turns
