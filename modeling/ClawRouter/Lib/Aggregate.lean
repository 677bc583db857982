/-
  Subject:   Grouping rows, and grouping the groups again.

  `aggregate` is a `GROUP BY` with sums. Grouping totals under a coarser key gives the totals of
  the rows themselves under that key, whatever the finer key was; a condition on the finer key
  selects the rows whose key meets it.

  * **`aggregate_totals`**: the totals of the totals are the totals of the rows.
-/
import ClawRouter.Lib.Grouped

namespace Grouped

open Keyed

universe u v w z

section Groups

variable {ρ : Type w} {κ : Type u} {ι : Type v} [DecidableEq κ]

def sumBy (rows : List ρ) (groupOf : ρ → κ) (count : ρ → ι → Int) : κ → ι → Int :=
  fun k i => ((rows.filter fun r => groupOf r = k).map fun r => count r i).sum

/-- `SELECT …, SUM(…) FROM rows GROUP BY groupOf`. -/
def aggregate (rows : List ρ) (groupOf : ρ → κ) (count : ρ → ι → Int) : Totals κ ι :=
  addPage Table.empty (rows.map fun r => (groupOf r, count r))

def Sums (number : ι) (rows : List ρ) (groupOf : ρ → κ) (count : ρ → ι → Int) (T : Totals κ ι) : Prop :=
  Holds number T (sumBy rows groupOf count)

variable {number : ι} {rows : List ρ} {groupOf : ρ → κ} {count : ρ → ι → Int} {T : Totals κ ι}

theorem sum_pos_of_mem {l : List Int} (h : ∀ x ∈ l, 0 < x) : 0 ≤ l.sum ∧ (l ≠ [] → 0 < l.sum) := by
  induction l with
  | nil => exact ⟨Int.le_refl 0, fun h => absurd rfl h⟩
  | cons x l ih =>
    have hx := h x List.mem_cons_self
    have hl := (ih fun y hy => h y (List.mem_cons_of_mem _ hy)).1
    rw [List.sum_cons]
    exact ⟨by omega, fun _ => by omega⟩

section

variable (hpos : ∀ r ∈ rows, 0 < count r number)
include hpos

theorem sumBy_pos {k : κ} : 0 ≤ sumBy rows groupOf count k number ∧
      (sumBy rows groupOf count k number ≠ 0 ↔ ∃ r ∈ rows, groupOf r = k) := by
  have hmem : ∀ x ∈ (rows.filter fun r => groupOf r = k).map fun r => count r number, 0 < x := by
    intro x hx
    obtain ⟨r, hr, rfl⟩ := List.mem_map.mp hx
    exact hpos r (List.mem_filter.mp hr).1
  obtain ⟨hn, hp⟩ := sum_pos_of_mem hmem
  refine ⟨hn, ⟨fun hz => ?_, fun ⟨r, hr, e⟩ => ?_⟩⟩
  · by_contra hno
    push Not at hno
    refine hz ?_
    have e : (rows.filter fun r => groupOf r = k) = [] := by
      rw [List.filter_eq_nil_iff]
      intro r hr
      simpa using hno r hr
    unfold sumBy
    rw [e]
    rfl
  · have hne : ((rows.filter fun r => groupOf r = k).map fun r => count r number) ≠ [] := by
      refine List.ne_nil_of_mem (List.mem_map_of_mem (List.mem_filter.mpr ⟨hr, ?_⟩))
      simpa using e
    have := hp hne
    unfold sumBy
    omega

theorem holds_addRows {G : κ → ι → Int}
    (h : Holds number T G) (hG : Counts number G) :
    Holds number (addPage T (rows.map fun r => (groupOf r, count r)))
      fun k => G k + sumBy rows groupOf count k := by
  induction rows generalizing T G with
  | nil =>
    have e : (fun k => G k + sumBy [] groupOf count k) = G := by
      funext k i
      show G k i + 0 = G k i
      omega
    rw [e]
    exact h
  | cons r rows ih =>
    have hr := hpos r List.mem_cons_self
    have h' := ih (fun r hr => hpos r (List.mem_cons_of_mem _ hr))
      (holds_add h hG hr (k := groupOf r)) (counts_plus hG hr)
    have e : (fun k => plus G (groupOf r) (count r) k + sumBy rows groupOf count k) =
        fun k => G k + sumBy (r :: rows) groupOf count k := by
      funext k i
      unfold plus sumBy
      by_cases hk : k = groupOf r
      · subst hk
        simp [add_assoc]
      · simp [hk, Ne.symm hk]
    rw [← e]
    exact h'

theorem sums_aggregate : Sums number rows groupOf count (aggregate rows groupOf count) := by
  have h : Holds number (aggregate rows groupOf count) fun k =>
      (fun _ _ => 0 : κ → ι → Int) k + sumBy rows groupOf count k :=
    holds_addRows hpos (fun _ => rfl) ⟨fun _ => Int.le_refl 0, fun _ _ => rfl⟩
  have e : (fun k => (fun _ _ => 0 : κ → ι → Int) k + sumBy rows groupOf count k) = sumBy rows
    groupOf count := by
    funext k i
    exact zero_add _
  rw [e] at h
  exact h

end

theorem sum_by_keys (keys : List κ) (hkeys : keys.Nodup) (f : ρ → Int)
    (hcover : ∀ r ∈ rows, groupOf r ∈ keys) :
    (keys.map fun k => ((rows.filter fun r => groupOf r = k).map f).sum).sum = (rows.map f).sum := by
  induction rows with
  | nil => simp
  | cons r rows ih =>
    have hr := hcover r List.mem_cons_self
    have hone : (keys.map fun k => if groupOf r = k then f r else 0).sum = f r := by
      clear ih hcover
      induction keys with
      | nil => cases hr
      | cons k keys ih =>
        obtain ⟨hk, hkeys⟩ := List.nodup_cons.mp hkeys
        rw [List.map_cons, List.sum_cons]
        by_cases e : groupOf r = k
        · have hzero : (keys.map fun k => if groupOf r = k then f r else 0).sum = 0 := by
            refine List.sum_eq_zero fun x hx => ?_
            obtain ⟨y, hy, rfl⟩ := List.mem_map.mp hx
            rw [if_neg]
            intro e'
            exact hk (e ▸ e' ▸ hy)
          rw [if_pos e, hzero, add_zero]
        · rcases List.mem_cons.mp hr with hr | hr
          · exact absurd hr e
          · rw [if_neg e, ih hkeys hr, zero_add]
    have hsplit : (fun k => (((r :: rows).filter fun r => groupOf r = k).map f).sum) =
        fun k => (if groupOf r = k then f r else 0) + ((rows.filter fun r => groupOf r = k).map f).sum := by
      funext k
      by_cases e : groupOf r = k
      · simp [e]
      · simp [e]
    rw [hsplit, List.sum_map_add, hone, ih fun r hr => hcover r (List.mem_cons_of_mem _ hr),
      List.map_cons, List.sum_cons]

theorem total_eq (h : Sums number rows groupOf count T) {t : Total κ ι} (ht : t ∈ T.rows) :
    t.counts = sumBy rows groupOf count t.key ∧ sumBy rows groupOf count t.key number ≠ 0 := by
  have hk := h t.key
  rw [Table.find?_eq_some.mpr ⟨ht, rfl⟩] at hk
  split at hk
  · cases hk
  · rename_i hz
    exact ⟨congrArg Total.counts (Option.some_inj.mp hk), hz⟩

theorem total_of_row (hpos : ∀ r ∈ rows, 0 < count r number)
    (h : Sums number rows groupOf count T) {r : ρ} (hr : r ∈ rows) : ∃ t ∈ T.rows, t.key = groupOf r := by
  have hz : sumBy rows groupOf count (groupOf r) number ≠ 0 := (sumBy_pos hpos).2.mpr ⟨r, hr, rfl⟩
  have hk := h (groupOf r)
  rw [if_neg hz] at hk
  obtain ⟨ht, e⟩ := Table.find?_eq_some.mp hk
  exact ⟨_, ht, e⟩

/-- **A sum over the totals whose key meets a condition is the sum over the rows whose key does.** -/
theorem sum_totals (hpos : ∀ r ∈ rows, 0 < count r number)
    (h : Sums number rows groupOf count T) (p : κ → Bool) (i : ι) :
    ((T.rows.filter fun t => p t.key).map fun t => t.counts i).sum =
      ((rows.filter fun r => p (groupOf r)).map fun r => count r i).sum := by
  have hnodup : ((T.rows.filter fun t => p t.key).map Total.key).Nodup :=
    T.nodup.sublist (List.filter_sublist.map _)
  have hcover : ∀ r ∈ rows.filter fun r => p (groupOf r),
      groupOf r ∈ (T.rows.filter fun t => p t.key).map Total.key := by
    intro r hr
    obtain ⟨hr, hp⟩ := List.mem_filter.mp hr
    obtain ⟨t, ht, e⟩ := total_of_row hpos h hr
    exact List.mem_map.mpr ⟨t, List.mem_filter.mpr ⟨ht, by rw [e]; exact hp⟩, e⟩
  rw [← sum_by_keys _ hnodup (fun r => count r i) hcover, List.map_map]
  refine congrArg List.sum (List.map_congr_left fun t ht => ?_)
  obtain ⟨ht, hp⟩ := List.mem_filter.mp ht
  rw [(total_eq h ht).1, Function.comp_apply, List.filter_filter]
  refine congrArg (fun l : List ρ => (l.map fun r => count r i).sum) (List.filter_congr fun r _ => ?_)
  by_cases e : groupOf r = t.key
  · simp [e, hp]
  · simp [e]

end Groups

section Regroup

variable {ρ : Type w} {κ : Type u} {μ : Type z} {ι : Type v} [DecidableEq κ] [DecidableEq μ]
  {number : ι} {rows : List ρ} {groupOf : ρ → κ} {count : ρ → ι → Int} {T : Totals κ ι}

omit [DecidableEq κ] in
theorem perm_of_holds {G : κ → ι → Int} {T T' : Totals κ ι} [DecidableEq κ]
    (h : Holds number T G) (h' : Holds number T' G) : T.rows.Perm T'.rows := by
  refine (List.perm_ext_iff_of_nodup (List.Nodup.of_map _ T.nodup)
    (List.Nodup.of_map _ T'.nodup)).mpr fun t => ?_
  have e : T.find? t.key = T'.find? t.key := (h t.key).trans (h' t.key).symm
  constructor
  · intro ht
    rw [Table.find?_eq_some.mpr ⟨ht, rfl⟩] at e
    exact (Table.find?_eq_some.mp e.symm).1
  · intro ht
    rw [Table.find?_eq_some.mpr ⟨ht, rfl⟩] at e
    exact (Table.find?_eq_some.mp e).1

omit [DecidableEq μ] in
theorem total_pos (hpos : ∀ r ∈ rows, 0 < count r number)
    (h : Sums number rows groupOf count T) {t : Total κ ι} (ht : t ∈ T.rows) : 0 < t.counts number := by
  obtain ⟨e, hz⟩ := total_eq h ht
  have hn : 0 ≤ sumBy rows groupOf count t.key number := (sumBy_pos hpos).1
  rw [e]
  omega

omit [DecidableEq μ] in
theorem aggregate_perm (groupOf : ρ → κ) {rows' : List ρ} (hpos : ∀ r ∈ rows, 0 < count r number)
    (h : rows.Perm rows') : (aggregate rows groupOf count).rows.Perm (aggregate rows' groupOf count).rows := by
  have hsums : Sums number rows groupOf count (aggregate rows groupOf count) := sums_aggregate hpos
  have hsums' : Sums number rows' groupOf count (aggregate rows' groupOf count) :=
    sums_aggregate fun r hr => hpos r (h.mem_iff.mpr hr)
  have e : sumBy rows' groupOf count = sumBy rows groupOf count := by
    funext k i
    exact ((h.filter _).map _).sum_eq.symm
  unfold Sums at hsums hsums'
  rw [e] at hsums'
  exact perm_of_holds hsums hsums'

/-- **Grouping the selected totals gives the grouping of the selected rows.** -/
theorem aggregate_totals (hpos : ∀ r ∈ rows, 0 < count r number)
    (h : Sums number rows groupOf count T) {p : κ → Bool} {q : ρ → Bool}
    (hpq : ∀ r ∈ rows, p (groupOf r) = q r) {f : κ → μ} {g : ρ → μ}
    (hfg : ∀ r ∈ rows, q r = true → f (groupOf r) = g r) :
    (aggregate (T.rows.filter fun t => p t.key) (fun t => f t.key) Total.counts).rows.Perm
      (aggregate (rows.filter q) g count).rows := by
  have hpos' : ∀ t ∈ T.rows.filter fun t => p t.key, 0 < t.counts number :=
    fun t ht => total_pos hpos h (List.mem_filter.mp ht).1
  have hT : Sums number (T.rows.filter fun t => p t.key) (fun t => f t.key) Total.counts _ :=
    sums_aggregate hpos'
  have hR : Sums number (rows.filter q) g count _ := sums_aggregate fun r hr =>
    hpos r (List.mem_filter.mp hr).1
  have e : sumBy (T.rows.filter fun t => p t.key) (fun t => f t.key) Total.counts = sumBy
    (rows.filter q) g count := by
    funext m i
    unfold sumBy
    rw [List.filter_filter, List.filter_filter]
    have hsum := sum_totals hpos h (fun k => decide (f k = m) && p k) i
    rw [hsum]
    refine congrArg (fun l : List ρ => (l.map fun r => count r i).sum) (List.filter_congr fun r hr => ?_)
    rw [hpq r hr]
    cases hq : q r with
    | false => simp
    | true => rw [hfg r hr hq]
  unfold Sums at hT hR
  rw [e] at hT
  exact perm_of_holds hT hR

theorem aggregate_all_totals (hpos : ∀ r ∈ rows, 0 < count r number)
    (h : Sums number rows groupOf count T) (f : κ → μ) :
    (aggregate T.rows (fun t => f t.key) Total.counts).rows.Perm
      (aggregate rows (fun r => f (groupOf r)) count).rows := by
  have hall := aggregate_totals hpos h (p := fun _ => true) (q := fun _ => true)
    (fun _ _ => rfl) (f := f) (g := fun r => f (groupOf r)) fun _ _ _ => rfl
  rw [List.filter_true, List.filter_true] at hall
  exact hall

theorem sums_of_exact {η : Type u} [DecidableEq η] {rowKey : ρ → η} {E : Table rowKey}
    {counted : ρ → Bool} (h : Exact number E counted groupOf count T)
    (hall : ∀ r ∈ E.rows, counted r = true) : Sums number E.rows groupOf count T := by
  have e : groupSum E counted groupOf count = sumBy E.rows groupOf count := by
    funext k i
    rw [groupSum_apply]
    refine congrArg (fun l : List ρ => (l.map fun r => count r i).sum) (List.filter_congr fun r hr => ?_)
    rw [hall r hr, Bool.true_and]
  unfold Sums
  rw [← e]
  exact h

end Regroup

end Grouped
