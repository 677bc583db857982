/-
  Subject:   Tables with a primary key, the part of SQL the ledgers use.

  A table is a list of rows whose keys are pairwise different; the structure carries that fact,
  so every operation returns a table again. The statements modelled are `SELECT … WHERE key = ?`
  (`find?`), `INSERT … ON CONFLICT DO NOTHING` (`insert`), `INSERT … ON CONFLICT DO UPDATE`
  (`upsert`), `UPDATE … SET … WHERE p` (`update`), `DELETE … WHERE p` (`delete`) and
  `SELECT SUM(col) … WHERE p` (`sumOn`).

  * `countP_upsert`, `countP_split`: the same for a number of rows.
-/
import Mathlib.Algebra.Order.BigOperators.Group.List
import Mathlib.Data.List.Nodup
import Mathlib.Tactic.Ring

namespace Keyed

universe u v

/-- Rows under a primary key: no two rows share one. -/
structure Table {ρ : Type u} {κ : Type v} (key : ρ → κ) where
  rows : List ρ
  nodup : (rows.map key).Nodup

namespace Table

variable {ρ : Type u} {κ : Type v} {key : ρ → κ}

def empty : Table key := ⟨[], List.nodup_nil⟩

theorem ext_rows : ∀ {T T' : Table key}, T.rows = T'.rows → T = T'
  | ⟨_, _⟩, ⟨_, _⟩, rfl => rfl

theorem eq_of_key {T : Table key} {r r' : ρ} (h : r ∈ T.rows) (h' : r' ∈ T.rows)
    (e : key r = key r') : r = r' :=
  List.inj_on_of_nodup_map T.nodup h h' e

section Statements

/-- `UPDATE … SET f WHERE p`, for an `f` that leaves the key alone. -/
def update (T : Table key) (p : ρ → Bool) (f : ρ → ρ) (hf : ∀ r, key (f r) = key r) : Table key where
  rows :=
  T.rows.map fun r => if p r then f r else r
  nodup := by
    have e : (T.rows.map fun r => if p r then f r else r).map key = T.rows.map key := by
      rw [List.map_map]
      refine List.map_congr_left fun r _ => ?_
      show key (if p r then f r else r) = key r
      split
      · exact hf r
      · rfl
    rw [e]
    exact T.nodup

def delete (T : Table key) (p : ρ → Bool) : Table key where
  rows :=
  T.rows.filter fun r => !p r
  nodup := T.nodup.sublist (List.filter_sublist.map key)

variable [DecidableEq κ]

def find? (T : Table key) (k : κ) : Option ρ := T.rows.find? fun r => key r = k

theorem find?_eq_none {T : Table key} {k : κ} : T.find? k = none ↔ ∀ r ∈ T.rows, key r ≠ k := by
  simp [find?]

theorem find?_eq_some {T : Table key} {k : κ} {r : ρ} : T.find? k = some r ↔ r ∈ T.rows ∧ key r = k := by
  constructor
  · intro h
    exact ⟨List.mem_of_find?_eq_some h, by simpa using List.find?_some h⟩
  · rintro ⟨hm, hk⟩
    cases hf : T.find? k with
    | none => exact absurd hk (find?_eq_none.mp hf r hm)
    | some r' =>
      have hm' : r' ∈ T.rows := List.mem_of_find?_eq_some hf
      have hk' : key r' = k := by simpa using List.find?_some hf
      rw [eq_of_key hm hm' (hk.trans hk'.symm)]

def insert (T : Table key) (r : ρ) : Table key :=
  if h : T.find? (key r) = none then
    { rows := r :: T.rows
      nodup := by
        refine List.nodup_cons.mpr ⟨fun hm => ?_, T.nodup⟩
        obtain ⟨r', hr', e⟩ := List.mem_map.mp hm
        exact find?_eq_none.mp h r' hr' e }
  else T

theorem rows_insert {T : Table key} {r : ρ} (h : T.find? (key r) = none) :
    (T.insert r).rows = r :: T.rows := by
  simp [insert, h]

theorem mem_insert {T : Table key} {r x : ρ} (h : T.find? (key r) = none) :
    x ∈ (T.insert r).rows ↔ x = r ∨ x ∈ T.rows := by
  rw [rows_insert h, List.mem_cons]

theorem find?_insert {T : Table key} {r : ρ} (h : T.find? (key r) = none) (k : κ) :
    (T.insert r).find? k = if key r = k then some r else T.find? k := by
  unfold find?
  rw [rows_insert h]
  split <;> rename_i hk <;> simp [hk]

/-- `INSERT … ON CONFLICT(key) DO UPDATE`: the row takes the place of the one under its key. -/
def upsert (T : Table key) (r : ρ) : Table key :=
  if (T.find? (key r)).isSome then
    T.update (fun _ => true) (fun x => if key x = key r then r else x) fun x => by
      split
      · rename_i e
        exact e.symm
      · rfl
  else T.insert r

omit [DecidableEq κ] in
theorem mem_update {T : Table key} {p : ρ → Bool} {f : ρ → ρ} (hf : ∀ r, key (f r) = key r)
    {x : ρ} : x ∈ (T.update p f hf).rows ↔ ∃ r ∈ T.rows, (if p r then f r else r) = x :=
  List.mem_map

theorem find?_update (T : Table key) (p : ρ → Bool) (f : ρ → ρ) (hf : ∀ r, key (f r) = key r) (k : κ) :
    (T.update p f hf).find? k = (T.find? k).map fun r => if p r then f r else r := by
  have hkey : ∀ r, key (if p r then f r else r) = key r := by
    intro r
    split
    · exact hf r
    · rfl
  cases h : T.find? k with
  | none =>
    refine find?_eq_none.mpr fun x hx => ?_
    obtain ⟨r, hr, rfl⟩ := (mem_update hf).mp hx
    rw [hkey]
    exact find?_eq_none.mp h r hr
  | some r =>
    obtain ⟨hm, hk⟩ := find?_eq_some.mp h
    exact find?_eq_some.mpr ⟨(mem_update hf).mpr ⟨r, hm, rfl⟩, (hkey r).trans hk⟩

theorem find?_upsert (T : Table key) (r : ρ) (k : κ) :
    (T.upsert r).find? k = if key r = k then some r else T.find? k := by
  unfold upsert
  split
  · rename_i h
    rw [find?_update]
    by_cases e : key r = k
    · subst e
      obtain ⟨x, hx⟩ := Option.isSome_iff_exists.mp h
      have hk : key x = key r := (find?_eq_some.mp hx).2
      rw [hx, if_pos rfl, Option.map_some, if_pos rfl, if_pos hk]
    · rw [if_neg e]
      cases hx : T.find? k with
      | none => rfl
      | some x =>
        have hk : key x = k := (find?_eq_some.mp hx).2
        rw [Option.map_some, if_pos rfl, if_neg fun e' => e (e'.symm.trans hk)]
  · rename_i h
    exact find?_insert (Option.not_isSome_iff_eq_none.mp h) k

theorem mem_rows_iff {T : Table key} {r : ρ} : r ∈ T.rows ↔ T.find? (key r) = some r :=
  ⟨fun h => find?_eq_some.mpr ⟨h, rfl⟩, fun h => (find?_eq_some.mp h).1⟩

theorem mem_upsert {T : Table key} {r x : ρ} : x ∈ (T.upsert r).rows ↔ x = r ∨ x ∈ T.rows ∧ key x ≠ key r := by
  rw [mem_rows_iff, find?_upsert]
  split
  · rename_i e
    constructor
    · intro h
      exact .inl (Option.some.inj h).symm
    · rintro (rfl | ⟨_, hne⟩)
      · rfl
      · exact absurd e.symm hne
  · rename_i e
    rw [← mem_rows_iff]
    constructor
    · intro h
      exact .inr ⟨h, fun e' => e e'.symm⟩
    · rintro (rfl | ⟨h, _⟩)
      · exact absurd rfl e
      · exact h

theorem filter_upsert {T : Table key} {r : ρ} {p : ρ → Bool} (h : ∀ x, key x = key r → p x = false) :
    (T.upsert r).rows.filter p = T.rows.filter p := by
  unfold upsert
  split
  · show (T.rows.map _).filter p = _
    have hmap : ∀ l : List ρ, (l.map fun x => if key x = key r then r else x).filter p = l.filter p := by
      intro l
      induction l with
      | nil => rfl
      | cons x l ih =>
        rw [List.map_cons]
        by_cases e : key x = key r
        · rw [if_pos e, List.filter_cons_of_neg (by simp [h r rfl]), List.filter_cons_of_neg (by simp [h x e])]
          exact ih
        · rw [if_neg e, List.filter_cons, List.filter_cons, ih]
    simpa using hmap T.rows
  · rename_i hnone
    rw [rows_insert (Option.not_isSome_iff_eq_none.mp hnone), List.filter_cons_of_neg (by simp [h r rfl])]

omit [DecidableEq κ] in
theorem mem_delete {T : Table key} {p : ρ → Bool} {x : ρ} :
    x ∈ (T.delete p).rows ↔ x ∈ T.rows ∧ p x = false := by
  simp [delete]

omit [DecidableEq κ] in
theorem delete_delete (T : Table key) (p q : ρ → Bool) :
    (T.delete p).delete q = T.delete fun r => p r || q r := by
  refine ext_rows ?_
  show (T.rows.filter _).filter _ = T.rows.filter _
  rw [List.filter_filter]
  refine List.filter_congr fun r _ => ?_
  rw [Bool.not_or, Bool.and_comm]

omit [DecidableEq κ] in
theorem delete_eq_self {T : Table key} {p : ρ → Bool} (h : ∀ r ∈ T.rows, p r = false) : T.delete p = T :=
  ext_rows (List.filter_eq_self.mpr fun r hr => by rw [h r hr]; rfl)

theorem find?_delete (T : Table key) (p : ρ → Bool) (k : κ) :
    (T.delete p).find? k = (T.find? k).filter fun r => !p r := by
  cases h : T.find? k with
  | none =>
    exact find?_eq_none.mpr fun x hx => find?_eq_none.mp h x (mem_delete.mp hx).1
  | some r =>
    obtain ⟨hm, hk⟩ := find?_eq_some.mp h
    cases hp : p r with
    | false =>
      rw [Option.filter_some_pos (by simp [hp])]
      exact find?_eq_some.mpr ⟨mem_delete.mpr ⟨hm, hp⟩, hk⟩
    | true =>
      rw [Option.filter_some_neg (by simp [hp])]
      refine find?_eq_none.mpr fun x hx e => ?_
      obtain ⟨hx, hpx⟩ := mem_delete.mp hx
      rw [eq_of_key hx hm (e.trans hk.symm), hp] at hpx
      cases hpx

end Statements

section Sums

/-- `SELECT COALESCE(SUM(col), 0) … WHERE p`. -/
def sumOn (T : Table key) (p : ρ → Bool) (col : ρ → Int) : Int := ((T.rows.filter p).map col).sum

theorem sum_filter_map (p : ρ → Bool) (col : ρ → Int) :
    ∀ l : List ρ, ((l.filter p).map col).sum = (l.map fun r => if p r then col r else 0).sum
  | [] => rfl
  | r :: l => by
    have ih := sum_filter_map p col l
    cases hp : p r <;> simp [hp, ih]

theorem sumOn_eq (T : Table key) (p : ρ → Bool) (col : ρ → Int) :
    T.sumOn p col = (T.rows.map fun r => if p r then col r else 0).sum :=
  sum_filter_map p col T.rows

theorem sumOn_nonneg {T : Table key} {p : ρ → Bool} {col : ρ → Int}
    (h : ∀ r ∈ T.rows, 0 ≤ col r) : 0 ≤ T.sumOn p col := by
  refine List.sum_nonneg fun x hx => ?_
  obtain ⟨r, hr, rfl⟩ := List.mem_map.mp hx
  exact h r (List.mem_filter.mp hr).1

theorem sumOn_congr {T : Table key} {p q : ρ → Bool} {col col' : ρ → Int}
    (hp : ∀ r ∈ T.rows, p r = q r) (hc : ∀ r ∈ T.rows, col r = col' r) : T.sumOn p col = T.sumOn q col' := by
  rw [sumOn_eq, sumOn_eq]
  refine congrArg List.sum (List.map_congr_left fun r hr => ?_)
  rw [hp r hr, hc r hr]

theorem sumOn_mono {T : Table key} {p q : ρ → Bool} {col : ρ → Int}
    (h0 : ∀ r ∈ T.rows, 0 ≤ col r) (h : ∀ r ∈ T.rows, p r = true → q r = true) :
    T.sumOn p col ≤ T.sumOn q col := by
  rw [sumOn_eq, sumOn_eq]
  refine List.sum_le_sum fun r hr => ?_
  split
  · rename_i hp
    rw [if_pos (h r hr hp)]
  · split
    · exact h0 r hr
    · exact le_refl 0

theorem sumOn_update (T : Table key) (p : ρ → Bool) (f : ρ → ρ) (hf : ∀ r, key (f r) = key r)
    (q : ρ → Bool) (col : ρ → Int) :
    (T.update p f hf).sumOn q col = T.sumOn (fun r => q (if p r then f r else r))
      fun r => col (if p r then f r else r) := by
  rw [sumOn_eq, sumOn_eq]
  show ((T.rows.map _).map _).sum = _
  rw [List.map_map]
  rfl

theorem sumOn_update_le {T : Table key} {p : ρ → Bool} {f : ρ → ρ} (hf : ∀ r, key (f r) = key r)
    {q : ρ → Bool} {col : ρ → Int} (hq : ∀ r, q (f r) = q r)
      (hc : ∀ r ∈ T.rows, p r = true → col (f r) ≤ col r) :
    (T.update p f hf).sumOn q col ≤ T.sumOn q col := by
  rw [sumOn_update, sumOn_eq, sumOn_eq]
  refine List.sum_le_sum fun r hr => ?_
  cases hp : p r with
  | false => simp
  | true =>
    simp only [if_true, hq r]
    split
    · exact hc r hr hp
    · exact le_refl 0

theorem sumOn_delete (T : Table key) (p q : ρ → Bool) (col : ρ → Int) :
    (T.delete p).sumOn q col = T.sumOn (fun r => q r && !p r) col := by
  show (((T.rows.filter _).filter _).map _).sum = _
  rw [List.filter_filter]
  rfl

theorem sumOn_delete_le {T : Table key} {p q : ρ → Bool} {col : ρ → Int}
    (h : ∀ r ∈ T.rows, 0 ≤ col r) : (T.delete p).sumOn q col ≤ T.sumOn q col := by
  rw [sumOn_delete]
  refine sumOn_mono h fun r _ hr => ?_
  exact (Bool.and_eq_true_iff.mp hr).1

variable [DecidableEq κ]

theorem sumOn_insert {T : Table key} {r : ρ} (h : T.find? (key r) = none) (p : ρ → Bool) (col : ρ → Int) :
    (T.insert r).sumOn p col = (if p r then col r else 0) + T.sumOn p col := by
  rw [sumOn_eq, sumOn_eq, rows_insert h, List.map_cons, List.sum_cons]

def shareOf (T : Table key) (k : κ) (p : ρ → Bool) (col : ρ → Int) : Int :=
  match T.find? k with
  | some r => if p r then col r else 0
  | none => 0

theorem sumOn_split (T : Table key) (k : κ) (p : ρ → Bool) (col : ρ → Int) :
    T.sumOn p col = T.shareOf k p col + T.sumOn (fun r => p r && key r ≠ k) col := by
  obtain ⟨l, hl⟩ := T
  unfold shareOf find?
  rw [sumOn_eq, sumOn_eq]
  -- only the first row under `k` counts as the share, and there is no second one
  induction l with
  | nil => rfl
  | cons x l ih =>
    obtain ⟨hx, hl⟩ := List.nodup_cons.mp hl
    have ih := ih hl
    by_cases hk : key x = k
    · have hrest : ∀ r ∈ l, (if p r = true ∧ ¬key r = k then col r else 0) = if p r = true then
        col r else 0 := by
        intro r hr
        have : key r ≠ k := fun e => hx (List.mem_map.mpr ⟨r, hr, e.trans hk.symm⟩)
        simp [this]
      simp [hk, List.map_congr_left hrest]
    · simp [hk] at ih ⊢
      omega

theorem sumOn_upsert (T : Table key) (r : ρ) (p : ρ → Bool) (col : ρ → Int) : (T.upsert r).sumOn p col =
      (if p r then col r else 0) + T.sumOn (fun x => p x && key x ≠ key r) col := by
  rw [sumOn_split (T.upsert r) (key r)]
  have hshare : (T.upsert r).shareOf (key r) p col = if p r then col r else 0 := by
    unfold shareOf
    rw [find?_upsert, if_pos rfl]
  rw [hshare]
  refine congrArg _ ?_
  unfold upsert
  split
  · rw [sumOn_update, sumOn_eq, sumOn_eq]
    refine congrArg List.sum (List.map_congr_left fun x _ => ?_)
    by_cases e : key x = key r
    · simp [e]
    · simp [e]
  · rename_i h
    have h := Option.not_isSome_iff_eq_none.mp h
    rw [sumOn_insert h]
    simp

omit [DecidableEq κ] in
theorem sumOn_one (T : Table key) (p : ρ → Bool) : T.sumOn p (fun _ => 1) = T.rows.countP p := by
  unfold sumOn
  rw [List.map_const', List.sum_replicate, List.countP_eq_length_filter]
  simp

theorem countP_upsert (T : Table key) (r : ρ) (p : ρ → Bool) : (T.upsert r).rows.countP p =
      (if p r then 1 else 0) + T.rows.countP fun x => p x && key x ≠ key r := by
  have h := sumOn_upsert T r p fun _ => 1
  rw [sumOn_one, sumOn_one] at h
  split at h <;> rename_i hp <;> simp only [hp, if_true, if_false, Bool.false_eq_true] <;> omega

/-- A row that is counted, and the rows besides. -/
theorem countP_split {T : Table key} {r : ρ} {p : ρ → Bool} (hr : r ∈ T.rows) (hp : p r = true) :
    T.rows.countP p = 1 + T.rows.countP fun x => p x && key x ≠ key r := by
  have h := sumOn_split T (key r) p fun _ => 1
  have hshare : T.shareOf (key r) p (fun _ => 1) = 1 := by
    unfold shareOf
    rw [mem_rows_iff.mp hr]
    exact if_pos hp
  rw [sumOn_one, sumOn_one, hshare] at h
  omega

end Sums

end Table

end Keyed
