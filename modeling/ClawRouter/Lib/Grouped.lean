/-
  Subject:   A table of totals kept beside the rows it sums.

  The totals have one row for each group of the counted rows, with one sum for each counter. Rows
  come and go one at a time (`add`, `subtract`, as triggers do) or a whole page becomes counted at
  once (`addPage`, as a backfill does); one counter counts the rows, and a group without rows has
  no total.

  * **`exact_insert`, `exact_delete`, `exact_addPage`**: the statements keep them exact.
-/
import ClawRouter.Lib.Keyed
import Mathlib.Data.List.Dedup

namespace Grouped

open Keyed

universe u v w

structure Total (κ : Type u) (ι : Type v) where
  key : κ
  counts : ι → Int

abbrev Totals (κ : Type u) (ι : Type v) : Type (max u v) := Table (Total.key : Total κ ι → κ)

section Statements

variable {κ : Type u} {ι : Type v} [DecidableEq κ]

/-- `INSERT … ON CONFLICT (key) DO UPDATE SET count = count + excluded.count`. -/
def add (T : Totals κ ι) (k : κ) (counts : ι → Int) : Totals κ ι :=
  match T.find? k with
  | some _ => T.update (fun r => r.key = k) (fun r => { r with counts := r.counts + counts }) fun _ => rfl
  | none => T.insert ⟨k, counts⟩

/-- `DELETE` under a key where nothing is counted. -/
def dropEmpty (number : ι) (T : Totals κ ι) (k : κ) : Totals κ ι :=
  T.delete fun r => r.key = k && r.counts number = 0

/-- `UPDATE … SET count = count - ?` under a key, then `DELETE` where nothing is left. -/
def subtract (number : ι) (T : Totals κ ι) (k : κ) (counts : ι → Int) : Totals κ ι :=
  dropEmpty number (T.update (fun r => r.key = k)
    (fun r => { r with counts := r.counts - counts }) fun _ => rfl) k

/-- `INSERT … SELECT … GROUP BY` with the same conflict rule. -/
def addPage (T : Totals κ ι) : List (κ × (ι → Int)) → Totals κ ι
  | [] => T
  | (k, counts) :: rest => addPage (add T k counts) rest

/-- The totals hold `G`, and nothing where `G` has no rows. -/
def Holds (number : ι) (T : Totals κ ι) (G : κ → ι → Int) : Prop :=
  ∀ k, T.find? k = if G k number = 0 then none else some ⟨k, G k⟩

/-- Sums of rows each of which counts one: no negative number of rows, and no rows no sums. -/
structure Counts (number : ι) (G : κ → ι → Int) : Prop where
  nonneg : ∀ k, 0 ≤ G k number
  empty : ∀ k, G k number = 0 → G k = 0

variable {number : ι} {T : Totals κ ι} {G : κ → ι → Int}

def plus (G : κ → ι → Int) (k : κ) (counts : ι → Int) :
    κ → ι → Int := fun x => if x = k then G x + counts else G x

theorem holds_add (h : Holds number T G) (hG : Counts number G) {k : κ} {counts : ι → Int}
    (hpos : 0 < counts number) : Holds number (add T k counts) (plus G k counts) := by
  intro x
  have hk := h k
  have hx := h x
  have hn := hG.nonneg k
  unfold add plus
  by_cases hz : G k number = 0
  · rw [if_pos hz] at hk
    rw [hk]
    rw [Table.find?_insert hk]
    by_cases e : x = k
    · subst e
      rw [if_pos rfl, if_pos rfl, hG.empty x hz, zero_add, if_neg (by omega)]
    · rw [if_neg (Ne.symm e), if_neg e]
      exact hx
  · rw [if_neg hz] at hk
    rw [hk]
    rw [Table.find?_update]
    by_cases e : x = k
    · subst e
      rw [hk, Option.map_some, if_pos rfl, if_pos (by simp), if_neg]
      show ¬ G x number + counts number = 0
      omega
    · rw [if_neg e, hx]
      split
      · rfl
      · simp [e]

theorem holds_dropEmpty (h : Holds number T G) (k : κ) : Holds number (dropEmpty number T k) G := by
  intro x
  have hx := h x
  unfold dropEmpty
  rw [Table.find?_delete, hx]
  split
  · rfl
  · rename_i hz
    rw [Option.filter_some_pos]
    simp [hz]

theorem holds_subtract (h : Holds number T G) {k : κ} {counts : ι → Int}
    (hle : counts number ≤ G k number) (hpos : 0 < counts number) :
    Holds number (subtract number T k counts) (plus G k (-counts)) := by
  intro x
  have hx := h x
  unfold subtract dropEmpty plus
  rw [Table.find?_delete, Table.find?_update]
  by_cases e : x = k
  · subst e
    rw [if_neg (by omega)] at hx
    rw [hx, if_pos rfl, Option.map_some, if_pos (by simp)]
    have hc : (G x - counts) number = (G x + -counts) number := by
      rw [sub_eq_add_neg]
    by_cases hz : (G x + -counts) number = 0
    · rw [if_pos hz, Option.filter_some_neg]
      simp [hc, hz]
    · rw [if_neg hz, Option.filter_some_pos, ← sub_eq_add_neg]
      simp only [decide_true, Bool.true_and, Bool.not_eq_true', decide_eq_false_iff_not]
      rw [hc]
      exact hz
  · rw [if_neg e, hx]
    split
    · rfl
    · simp [e]

theorem counts_plus (hG : Counts number G) {k : κ} {counts : ι → Int} (hpos : 0 < counts number) :
    Counts number (plus G k counts) where
  nonneg := fun x => by
    have := hG.nonneg x
    unfold plus
    split
    · show 0 ≤ G x number + counts number
      omega
    · exact this
  empty := fun x hx => by
    have := hG.nonneg x
    unfold plus at hx ⊢
    split at hx
    · have hx : G x number + counts number = 0 := hx
      omega
    · rename_i e
      rw [if_neg e]
      exact hG.empty x hx

theorem holds_addPage (page : List (κ × (ι → Int))) (hnodup : (page.map Prod.fst).Nodup)
    (hpos : ∀ g ∈ page, 0 < g.2 number) (h : Holds number T G) (hG : Counts number G) :
    Holds number (addPage T page) fun k => G k + (page.lookup k).getD 0 := by
  induction page generalizing T G with
  | nil => simpa [addPage] using h
  | cons g page ih =>
    obtain ⟨k, counts⟩ := g
    obtain ⟨hk, hnodup⟩ := List.nodup_cons.mp hnodup
    have hcounts : 0 < counts number := hpos (k, counts) List.mem_cons_self
    have h' := ih hnodup (fun g hg => hpos g (List.mem_cons_of_mem _ hg))
      (holds_add h hG hcounts : Holds number (add T k counts) (plus G k counts))
      (counts_plus hG hcounts)
    have e : (fun x => plus G k counts x + (page.lookup x).getD 0) =
        fun x => G x + (((k, counts) :: page).lookup x).getD 0 := by
      funext x
      unfold plus
      rw [List.lookup_cons]
      by_cases hx : x = k
      · -- the key of the first group is in no other
        have hnone : page.lookup x = none := by
          rw [List.lookup_eq_none_iff]
          intro p hp
          have : p.1 ≠ k := fun e => hk (List.mem_map.mpr ⟨p, hp, e⟩)
          simpa [hx, beq_iff_eq] using Ne.symm this
        rw [if_pos hx, hnone, hx]
        simp
      · rw [if_neg hx]
        have : (x == k) = false := by simpa using hx
        rw [this]
    rw [← e]
    exact h'

end Statements

section Sums

variable {ρ : Type w} {η : Type u} {rowKey : ρ → η} {κ : Type u} {ι : Type v}
  [DecidableEq η] [DecidableEq κ]

/-- The sum of one counter over the counted rows of a group. -/
def groupSum (E : Table rowKey) (counted : ρ → Bool) (groupOf : ρ → κ) (count : ρ → ι → Int) : κ → ι → Int :=
  fun k i => E.sumOn (fun r => counted r && groupOf r = k) fun r => count r i

/-- **The totals are the group sums of the counted rows.** -/
def Exact (number : ι) (E : Table rowKey) (counted : ρ → Bool) (groupOf : ρ → κ)
    (count : ρ → ι → Int) (T : Totals κ ι) : Prop :=
  Holds number T (groupSum E counted groupOf count)

variable {number : ι} {E : Table rowKey} {counted : ρ → Bool} {groupOf : ρ → κ}
  {count : ρ → ι → Int} {T : Totals κ ι}

omit [DecidableEq η] in
theorem sumOn_eq_zero {E : Table rowKey} {p : ρ → Bool} {col : ρ → Int}
    (h : ∀ r ∈ E.rows, p r = false) : E.sumOn p col = 0 := by
  have e : E.rows.filter p = [] := by
    rw [List.filter_eq_nil_iff]
    intro r hr
    simp [h r hr]
  unfold Table.sumOn
  rw [e]
  rfl

theorem groupSum_pos (hone : ∀ r, count r number = 1) {k : κ} : 0 < groupSum E counted groupOf count k number ↔
      ∃ r ∈ E.rows, counted r = true ∧ groupOf r = k := by
  constructor
  · intro hpos
    by_contra hno
    push Not at hno
    have hz : groupSum E counted groupOf count k number = 0 := by
      refine sumOn_eq_zero fun r hr => ?_
      cases hc : counted r with
      | false => rfl
      | true => simpa using hno r hr hc
    omega
  · rintro ⟨r, hr, hc, hk⟩
    have hshare : E.shareOf (rowKey r) (fun r => counted r && groupOf r = k)
      (fun r => count r number) = 1 := by
      unfold Table.shareOf
      rw [Table.find?_eq_some.mpr ⟨hr, rfl⟩]
      simp [hc, hk, hone]
    have hsplit := Table.sumOn_split E (rowKey r) (fun r => counted r && groupOf r = k) fun r => count r number
    have hrest : 0 ≤ E.sumOn (fun x => (counted x && groupOf x = k) && rowKey x ≠ rowKey r)
        (fun r => count r number) := Table.sumOn_nonneg fun x _ => by
      rw [hone]
      decide
    unfold groupSum
    omega

theorem counts_groupSum (hone : ∀ r, count r number = 1) :
    Counts number (groupSum E counted groupOf count) where
  nonneg := fun k => Table.sumOn_nonneg fun r _ => by
    rw [hone]
    decide
  empty := fun k hk => by
    funext i
    refine sumOn_eq_zero fun r hr => ?_
    by_contra hc
    rw [Bool.not_eq_false, Bool.and_eq_true, decide_eq_true_eq] at hc
    have hpos : 0 < groupSum E counted groupOf count k number := (groupSum_pos hone).mpr ⟨r, hr, hc.1, hc.2⟩
    omega

omit [DecidableEq η] in
theorem groupSum_apply (E : Table rowKey) (counted : ρ → Bool) (groupOf : ρ → κ)
    (count : ρ → ι → Int) (k : κ) (i : ι) :
    groupSum E counted groupOf count k i = E.sumOn (fun r => counted r && groupOf r = k) fun r =>
      count r i := rfl

theorem groupSum_insert {r : ρ} (h : E.find? (rowKey r) = none) : groupSum (E.insert r) counted groupOf count =
      if counted r then plus (groupSum E counted groupOf count) (groupOf r) (count r)
      else groupSum E counted groupOf count := by
  funext k i
  rw [groupSum_apply, Table.sumOn_insert h]
  cases hc : counted r with
  | false => simp [groupSum_apply]
  | true =>
    unfold plus
    by_cases e : k = groupOf r
    · subst e
      simp [groupSum_apply, add_comm]
    · simp [groupSum_apply, e, Ne.symm e]

theorem sumOn_deleteKey {E : Table rowKey} {r : ρ} (h : E.find? (rowKey r) = some r) (p : ρ → Bool)
    (col : ρ → Int) :
    (E.delete fun x => rowKey x = rowKey r).sumOn p col = E.sumOn p col - if p r then col r else 0 := by
  rw [Table.sumOn_delete, Table.sumOn_split E (rowKey r) p col]
  unfold Table.shareOf
  rw [h]
  have e : E.sumOn (fun x => p x && !decide (rowKey x = rowKey r)) col =
      E.sumOn (fun x => p x && rowKey x ≠ rowKey r) col :=
    Table.sumOn_congr (fun x _ => by simp) fun _ _ => rfl
  rw [e]
  dsimp only
  omega

theorem groupSum_delete {r : ρ} (h : E.find? (rowKey r) = some r) :
    groupSum (E.delete fun x => rowKey x = rowKey r) counted groupOf count =
      if counted r then plus (groupSum E counted groupOf count) (groupOf r) (-count r)
      else groupSum E counted groupOf count := by
  funext k i
  rw [groupSum_apply, sumOn_deleteKey h]
  cases hc : counted r with
  | false => simp [groupSum_apply]
  | true =>
    unfold plus
    by_cases e : k = groupOf r
    · subst e
      simp [groupSum_apply, sub_eq_add_neg]
    · simp [groupSum_apply, e, Ne.symm e]

/-! ## The statements keep the totals exact -/

/-- **A row comes**: it is added if it is counted. -/
theorem exact_insert (hone : ∀ r, count r number = 1) (h : Exact number E counted groupOf count T)
    {r : ρ} (hr : E.find? (rowKey r) = none) : Exact number (E.insert r) counted groupOf count
      (if counted r then add T (groupOf r) (count r) else T) := by
  unfold Exact
  rw [groupSum_insert hr]
  cases hc : counted r with
  | false => exact h
  | true => exact holds_add h (counts_groupSum hone) (by rw [hone]; decide)

/-- **A row goes**: it is subtracted if it was counted. -/
theorem exact_delete (hone : ∀ r, count r number = 1) (h : Exact number E counted groupOf count T)
    {r : ρ} (hr : E.find? (rowKey r) = some r) :
    Exact number (E.delete fun x => rowKey x = rowKey r) counted groupOf count
      (if counted r then subtract number T (groupOf r) (count r) else dropEmpty number T (groupOf r)) := by
  unfold Exact
  rw [groupSum_delete hr]
  cases hc : counted r with
  | false => exact holds_dropEmpty h _
  | true =>
    have hpos : 0 < groupSum E counted groupOf count (groupOf r) number :=
      (groupSum_pos hone).mpr ⟨r, (Table.find?_eq_some.mp hr).1, hc, rfl⟩
    refine holds_subtract h ?_ (by rw [hone]; decide)
    rw [hone]
    exact hpos

omit [DecidableEq η] in
theorem exact_congr {counted' : ρ → Bool} {groupOf' : ρ → κ} {count' : ρ → ι → Int}
    (h : Exact number E counted groupOf count T) (hc : ∀ r ∈ E.rows, counted' r = counted r)
    (hk : ∀ r ∈ E.rows, counted r = true → groupOf' r = groupOf r ∧ count' r = count r) :
    Exact number E counted' groupOf' count' T := by
  have e : groupSum E counted' groupOf' count' = groupSum E counted groupOf count := by
    funext k i
    rw [groupSum_apply, groupSum_apply, Table.sumOn_eq, Table.sumOn_eq]
    refine congrArg List.sum (List.map_congr_left fun r hr => ?_)
    rw [hc r hr]
    cases hcr : counted r with
    | false => simp
    | true =>
      obtain ⟨e1, e2⟩ := hk r hr hcr
      rw [e1, e2]
  unfold Exact
  rw [e]
  exact h

/-- The groups of a page of rows with their sums. -/
def pageGroups (E : Table rowKey) (page : ρ → Bool) (groupOf : ρ → κ) (count : ρ → ι → Int) :
    List (κ × (ι → Int)) :=
  ((E.rows.filter page).map groupOf).dedup.map fun k => (k, groupSum E page groupOf count k)

theorem lookup_map_pair {κ : Type u} {α : Type v} [DecidableEq κ] (f : κ → α) (k : κ) :
    ∀ l : List κ, (l.map fun x => (x, f x)).lookup k = if k ∈ l then some (f k) else none
  | [] => rfl
  | x :: l => by
    rw [List.map_cons, List.lookup_cons, lookup_map_pair f k l]
    by_cases e : k = x
    · simp [e]
    · have : (k == x) = false := by simpa using e
      simp [e, this]

/-- **A page of rows becomes counted**: its groups are added. -/
theorem exact_addPage (hone : ∀ r, count r number = 1) (h : Exact number E counted groupOf count T)
    {page : ρ → Bool} (hnew : ∀ r ∈ E.rows, page r = true → counted r = false) :
    Exact number E (fun r => counted r || page r) groupOf count
      (addPage T (pageGroups E page groupOf count)) := by
  have hmem : ∀ k, k ∈ ((E.rows.filter page).map groupOf).dedup ↔ ∃ r ∈ E.rows, page r = true ∧
    groupOf r = k := by
    intro k
    simp [and_assoc]
  have hpage : ∀ g ∈ pageGroups E page groupOf count, 0 < g.2 number := by
    intro g hg
    obtain ⟨k, hk, rfl⟩ := List.mem_map.mp hg
    exact (groupSum_pos hone).mpr ((hmem k).mp hk)
  have hfst : (pageGroups E page groupOf count).map Prod.fst = ((E.rows.filter page).map groupOf).dedup := by
    unfold pageGroups
    rw [List.map_map]
    exact List.map_id _
  have hsum := holds_addPage (pageGroups E page groupOf count)
    (by rw [hfst]; exact List.nodup_dedup _) hpage h (counts_groupSum hone)
  have e : (fun k => groupSum E counted groupOf count k +
    ((pageGroups E page groupOf count).lookup k).getD 0) =
        groupSum E (fun r => counted r || page r) groupOf count := by
    funext k i
    have hlook : ((pageGroups E page groupOf count).lookup k).getD 0 i = groupSum E page groupOf
      count k i := by
      unfold pageGroups
      rw [lookup_map_pair]
      split
      · rfl
      · rename_i hno
        refine (sumOn_eq_zero fun r hr => ?_).symm
        by_contra hc
        rw [Bool.not_eq_false, Bool.and_eq_true, decide_eq_true_eq] at hc
        exact hno ((hmem k).mpr ⟨r, hr, hc.1, hc.2⟩)
    show groupSum E counted groupOf count k i + _ = _
    rw [hlook, groupSum_apply, groupSum_apply, groupSum_apply, Table.sumOn_eq, Table.sumOn_eq,
      Table.sumOn_eq, ← List.sum_map_add]
    refine congrArg List.sum (List.map_congr_left fun r hr => ?_)
    cases hp : page r with
    | false => simp
    | true => simp [hnew r hr hp]
  unfold Exact
  rw [← e]
  exact hsum

end Sums

end Grouped
