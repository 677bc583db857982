/-
  Subject:   One page of a keyed table: the rows in a range of keys, in order, up to a limit.

  A migration visits the rows with `lo < key ≤ hi` a page at a time and moves `lo` to the last key
  it has seen, or to `hi` where the page is empty.

  * **`mem_page_iff`**: the page is exactly the rows up to that key.
-/
import ClawRouter.Lib.Keyed
import Mathlib.Data.List.Sort

namespace Paging

open Keyed

universe u

variable {ρ : Type u} {key : ρ → Int}

/-- `SELECT … WHERE key > lo AND key <= hi ORDER BY key LIMIT n`. -/
def page (T : Table key) (lo hi : Int) (n : Nat) : List ρ :=
  ((T.rows.filter fun r => lo < key r && key r ≤ hi).mergeSort fun a b => key a ≤ key b).take n

/-- The last key of a page, `hi` where it is empty. -/
def pageEnd (T : Table key) (lo hi : Int) (n : Nat) : Int := ((page T lo hi n).getLast?.map key).getD hi

section Sorted

def range (T : Table key) (lo hi : Int) : List ρ :=
  (T.rows.filter fun r => lo < key r && key r ≤ hi).mergeSort fun a b => key a ≤ key b

theorem mem_range {T : Table key} {lo hi : Int} {r : ρ} :
    r ∈ range T lo hi ↔ r ∈ T.rows ∧ lo < key r ∧ key r ≤ hi := by
  unfold range
  rw [List.mem_mergeSort]
  simp

theorem range_sorted (T : Table key) (lo hi : Int) : (range T lo hi).Pairwise fun a b => key a < key b := by
  have hle : (range T lo hi).Pairwise fun a b => (decide (key a ≤ key b)) = true :=
    List.pairwise_mergeSort (fun a b c h h' => by
      simp only [decide_eq_true_eq] at h h' ⊢
      omega) (fun a b => by
      simp only [Bool.or_eq_true, decide_eq_true_eq]
      omega) _
  have hne : (range T lo hi).Pairwise fun a b => key a ≠ key b := by
    have hperm := List.mergeSort_perm (T.rows.filter fun r => lo < key r && key r ≤ hi)
      fun a b => decide (key a ≤ key b)
    have hnodup : ((range T lo hi).map key).Nodup :=
      (hperm.map key).nodup_iff.mpr (T.nodup.sublist (List.filter_sublist.map key))
    exact List.pairwise_map.mp hnodup
  refine (hle.and hne).imp fun h => ?_
  obtain ⟨h, hne⟩ := h
  simp only [decide_eq_true_eq] at h
  omega

end Sorted

variable {T : Table key} {lo hi : Int} {n : Nat}

theorem mem_page {r : ρ} (h : r ∈ page T lo hi n) : r ∈ T.rows ∧ lo < key r ∧ key r ≤ hi :=
  mem_range.mp (List.mem_of_mem_take h)

theorem lt_of_mem_drop {r last : ρ} (hr : r ∈ (range T lo hi).drop n)
    (hlast : (page T lo hi n).getLast? = some last) : key last < key r := by
  have hsplit : page T lo hi n ++ (range T lo hi).drop n = range T lo hi := List.take_append_drop n _
  have hsorted := range_sorted T lo hi
  rw [← hsplit, List.pairwise_append] at hsorted
  exact hsorted.2.2 last (List.mem_of_getLast? hlast) r hr

theorem le_of_mem_page {r last : ρ} (hr : r ∈ page T lo hi n)
    (hlast : (page T lo hi n).getLast? = some last) : key r ≤ key last := by
  have hsorted : (page T lo hi n).Pairwise fun a b => key a < key b :=
    (range_sorted T lo hi).sublist (List.take_sublist n _)
  obtain ⟨init, hinit⟩ := List.getLast?_eq_some_iff.mp hlast
  rw [hinit] at hr hsorted
  rcases List.mem_append.mp hr with hr | hr
  · have := (List.pairwise_append.mp hsorted).2.2 r hr last (List.mem_singleton_self _)
    omega
  · rw [List.mem_singleton.mp hr]

theorem page_eq_nil (hn : 0 < n) (h : page T lo hi n = []) {r : ρ} (hr : r ∈ T.rows)
    (hlo : lo < key r) : hi < key r := by
  by_contra hle
  have hmem : r ∈ range T lo hi := mem_range.mpr ⟨hr, hlo, by omega⟩
  rcases List.take_eq_nil_iff.mp h with h0 | hnil
  · omega
  · have hrange : range T lo hi = [] := hnil
    rw [hrange] at hmem
    cases hmem

theorem pageEnd_le : pageEnd T lo hi n ≤ hi := by
  unfold pageEnd
  cases hlast : (page T lo hi n).getLast? with
  | none => exact Int.le_refl hi
  | some last => exact (mem_page (List.mem_of_getLast? hlast)).2.2

/-- **A page is exactly the rows of the range up to its end.** -/
theorem mem_page_iff (hn : 0 < n) {r : ρ} :
    r ∈ page T lo hi n ↔ r ∈ T.rows ∧ lo < key r ∧ key r ≤ pageEnd T lo hi n := by
  have hend : pageEnd T lo hi n ≤ hi := pageEnd_le
  unfold pageEnd at hend ⊢
  cases hlast : (page T lo hi n).getLast? with
  | none =>
    have hnil : page T lo hi n = [] := List.getLast?_eq_none_iff.mp hlast
    rw [hnil]
    refine ⟨nofun, fun ⟨hr, hlo, hle⟩ => ?_⟩
    have := page_eq_nil hn hnil hr hlo
    have : key r ≤ hi := hle
    omega
  | some last =>
    rw [hlast] at hend
    have hend : key last ≤ hi := hend
    show _ ↔ r ∈ T.rows ∧ lo < key r ∧ key r ≤ key last
    constructor
    · intro hr
      obtain ⟨hm, hlo, -⟩ := mem_page hr
      exact ⟨hm, hlo, le_of_mem_page hr hlast⟩
    · rintro ⟨hm, hlo, hle⟩
      have hmem : r ∈ range T lo hi := mem_range.mpr ⟨hm, hlo, by omega⟩
      rw [← List.take_append_drop n (range T lo hi)] at hmem
      rcases List.mem_append.mp hmem with hmem | hmem
      · exact hmem
      · have := lt_of_mem_drop hmem hlast
        omega

theorem le_pageEnd (h : lo ≤ hi) : lo ≤ pageEnd T lo hi n := by
  unfold pageEnd
  cases hlast : (page T lo hi n).getLast? with
  | none => exact h
  | some last =>
    have := (mem_page (List.mem_of_getLast? hlast)).2.1
    show lo ≤ key last
    omega

theorem pageEnd_of_le (h : hi ≤ lo) : pageEnd T lo hi n = hi := by
  unfold pageEnd
  cases hlast : (page T lo hi n).getLast? with
  | none => rfl
  | some last =>
    obtain ⟨-, h1, h2⟩ := mem_page (List.mem_of_getLast? hlast)
    omega

theorem page_covers (hn : 0 < n) (h : (page T lo hi n).length < n ∨ pageEnd T lo hi n = hi) {r : ρ}
    (hr : r ∈ T.rows)
    (hlo : pageEnd T lo hi n < key r) : hi < key r := by
  rcases h with hshort | hend
  · by_contra hle
    have hlo' : lo < key r := by
      by_contra hno
      unfold pageEnd at hlo
      cases hlast : (page T lo hi n).getLast? with
      | none =>
        rw [hlast] at hlo
        have : hi < key r := hlo
        omega
      | some last =>
        rw [hlast] at hlo
        have h1 : key last < key r := hlo
        have h2 := (mem_page (List.mem_of_getLast? hlast)).2.1
        omega
    have hmem : r ∈ range T lo hi := mem_range.mpr ⟨hr, hlo', by omega⟩
    have hall : page T lo hi n = range T lo hi := by
      refine List.take_of_length_le ?_
      have : (page T lo hi n).length = min n (range T lo hi).length := List.length_take
      show (range T lo hi).length ≤ n
      omega
    rw [← hall] at hmem
    have := ((mem_page_iff hn).mp hmem).2.2
    omega
  · omega

theorem le_foldl_max (l : List Int) (a : Int) : a ≤ l.foldl max a ∧ ∀ x ∈ l, x ≤ l.foldl max a := by
  induction l generalizing a with
  | nil => exact ⟨Int.le_refl a, nofun⟩
  | cons y l ih =>
    obtain ⟨h1, h2⟩ := ih (max a y)
    refine ⟨(Int.le_max_left a y).trans h1, fun x hx => ?_⟩
    rcases List.mem_cons.mp hx with rfl | hx
    · exact (Int.le_max_right a x).trans h1
    · exact h2 x hx

end Paging
