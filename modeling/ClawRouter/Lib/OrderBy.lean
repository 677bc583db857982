/-
  Subject:   `ORDER BY` of rows that no two of are in the same place: the result does not depend on
             the order the rows were found in.

  * **`mergeSort_eq_of_perm`**: sorting two orders of the same rows gives one list.
-/
import Mathlib.Data.String.Basic
import Mathlib.Data.List.Sort

namespace OrderBy

universe u

section Permuted

variable {α : Type u} {le : α → α → Bool} {l l' : List α}

theorem mergeSort_eq_of_perm (trans : ∀ a b c, le a b = true → le b c = true → le a c = true)
    (total : ∀ a b, (le a b || le b a) = true)
    (antisymm : ∀ a ∈ l, ∀ b ∈ l, le a b = true → le b a = true → a = b) (h : l.Perm l') :
    l.mergeSort le = l'.mergeSort le := by
  have hl := List.mergeSort_perm l le
  have hl' := List.mergeSort_perm l' le
  have hperm : (l.mergeSort le).Perm (l'.mergeSort le) := hl.trans (h.trans hl'.symm)
  have hsorted := List.pairwise_mergeSort trans total l
  have hsorted' := List.pairwise_mergeSort trans total l'
  refine List.Perm.eq_of_pairwise ?_ hsorted hsorted' hperm
  intro a b ha hb
  exact antisymm a (hl.mem_iff.mp ha) b (h.mem_iff.mpr (hl'.mem_iff.mp hb))

end Permuted

/-- `ORDER BY at DESC, name COLLATE BINARY DESC`. -/
def newestFirst (a b : Int × String) : Bool := b.1 < a.1 || (a.1 == b.1 && b.2 ≤ a.2)

theorem newestFirst_iff {a b : Int × String} :
    newestFirst a b = true ↔ b.1 < a.1 ∨ (a.1 = b.1 ∧ b.2 ≤ a.2) := by
  simp [newestFirst]

theorem newestFirst_trans (a b c : Int × String) (h : newestFirst a b = true)
    (h' : newestFirst b c = true) : newestFirst a c = true := by
  rw [newestFirst_iff] at h h' ⊢
  rcases h with h | ⟨e, h⟩
  · rcases h' with h' | ⟨e', -⟩
    · exact .inl (by omega)
    · exact .inl (by omega)
  · rcases h' with h' | ⟨e', h'⟩
    · exact .inl (by omega)
    · exact .inr ⟨e.trans e', h'.trans h⟩

theorem newestFirst_total (a b : Int × String) : (newestFirst a b || newestFirst b a) = true := by
  rw [Bool.or_eq_true, newestFirst_iff, newestFirst_iff]
  rcases lt_trichotomy a.1 b.1 with h | h | h
  · exact .inr (.inl h)
  · rcases le_total b.2 a.2 with h' | h'
    · exact .inl (.inr ⟨h, h'⟩)
    · exact .inr (.inr ⟨h.symm, h'⟩)
  · exact .inl (.inl h)

theorem newestFirst_antisymm {a b : Int × String} (h : newestFirst a b = true)
    (h' : newestFirst b a = true) : a = b := by
  rw [newestFirst_iff] at h h'
  rcases h with h | ⟨e, h⟩
  · rcases h' with h' | ⟨e', -⟩ <;> omega
  · rcases h' with h' | ⟨-, h'⟩
    · omega
    · exact Prod.ext e (le_antisymm h' h)

def nullsFirst : Option String → Option String → Bool
  | none, _ => true
  | some _, none => false
  | some a, some b => a ≤ b

theorem nullsFirst_trans (a b c : Option String) (h : nullsFirst a b = true)
    (h' : nullsFirst b c = true) : nullsFirst a c = true := by
  cases a with
  | none => rfl
  | some a =>
    cases b with
    | none => cases h
    | some b =>
      cases c with
      | none => cases h'
      | some c =>
        simp only [nullsFirst, decide_eq_true_eq] at h h' ⊢
        exact h.trans h'

theorem nullsFirst_total (a b : Option String) : (nullsFirst a b || nullsFirst b a) = true := by
  cases a with
  | none => rfl
  | some a =>
    cases b with
    | none => rfl
    | some b =>
      simp only [nullsFirst, Bool.or_eq_true, decide_eq_true_eq]
      exact le_total a b

theorem nullsFirst_antisymm {a b : Option String} (h : nullsFirst a b = true)
    (h' : nullsFirst b a = true) : a = b := by
  cases a with
  | none =>
    cases b with
    | none => rfl
    | some b => cases h'
  | some a =>
    cases b with
    | none => cases h
    | some b =>
      simp only [nullsFirst, decide_eq_true_eq] at h h'
      rw [le_antisymm h h']

end OrderBy
