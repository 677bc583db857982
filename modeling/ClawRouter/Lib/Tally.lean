/-
  Subject:   Cells under keys, each of which takes the rows of its key one at a time.

  A row goes to the first cell with its key, or to a new one at the end; taking it can throw. What
  the cells are to hold is a relation `R` between a cell and the rows it took.

  * **`tallied_tally`**, `tally_error`: a row keeps that, or its own cell throws.
-/
import ClawRouter.Lib.Fallible
import Mathlib.Data.List.Nodup

namespace Tally

open Fallible

universe u v w z

variable {β : Type u} {κ ε : Type v} {ρ : Type w} [DecidableEq κ]

/-- `find(c => key(c) === k) ?? push(new)`, and then the row is taken. -/
def tally (key : β → κ) (fresh : κ → β) (take : β → ρ → Except ε β) (k : κ) (r : ρ) :
    List β → Except ε (List β)
  | [] => (take (fresh k) r).map fun cell => [cell]
  | cell :: cells =>
    if key cell = k then (take cell r).map fun cell => cell :: cells
    else (tally key fresh take k r cells).map fun cells => cell :: cells

/-- One cell for each key that occurred, with the rows of it. -/
structure Tallied (key : β → κ) (keyOf : ρ → κ) (R : β → List ρ → Prop) (cells : List β)
    (rows : List ρ) : Prop where
  nodup : (cells.map key).Nodup
  keys : ∀ k, k ∈ cells.map key ↔ ∃ r ∈ rows, keyOf r = k
  holds : ∀ cell ∈ cells, R cell (rows.filter fun r => keyOf r = key cell)

variable {key : β → κ} {fresh : κ → β} {take : β → ρ → Except ε β} {keyOf : ρ → κ}
  {R : β → List ρ → Prop} {cells cells' : List β} {rows : List ρ} {k : κ} {r : ρ}

theorem map_ok {α γ : Type u} {f : α → γ} {x : Except ε α} {c : γ} :
    x.map f = .ok c ↔ ∃ a, x = .ok a ∧ f a = c := by
  cases x with
  | ok a =>
    constructor
    · intro h
      cases h
      exact ⟨a, rfl, rfl⟩
    · rintro ⟨a', h, rfl⟩
      cases h
      rfl
  | error e =>
    constructor
    · intro h
      cases h
    · rintro ⟨_, h, _⟩
      cases h

theorem map_error {α γ : Type u} {f : α → γ} {x : Except ε α} {e : ε} : x.map f = .error e ↔ x = .error e := by
  cases x with
  | ok a => exact ⟨nofun, nofun⟩
  | error e' =>
    constructor
    · intro h
      cases h
      rfl
    · intro h
      cases h
      rfl

theorem tally_cases (h : tally key fresh take k r cells = .ok cells') :
    (∃ before cell after cell', cells = before ++ cell :: after ∧ key cell = k ∧
      take cell r = .ok cell' ∧ cells' = before ++ cell' :: after) ∨
    (k ∉ cells.map key ∧ ∃ cell', take (fresh k) r = .ok cell' ∧ cells' = cells ++ [cell']) := by
  induction cells generalizing cells' with
  | nil =>
    obtain ⟨cell', htake, rfl⟩ := map_ok.mp h
    exact .inr ⟨List.not_mem_nil, cell', htake, rfl⟩
  | cons cell cells ih =>
    unfold tally at h
    by_cases e : key cell = k
    · rw [if_pos e] at h
      obtain ⟨cell', htake, rfl⟩ := map_ok.mp h
      exact .inl ⟨[], cell, cells, cell', rfl, e, htake, rfl⟩
    · rw [if_neg e] at h
      obtain ⟨rest, hrest, rfl⟩ := map_ok.mp h
      rcases ih hrest with ⟨before, c, after, c', hsplit, hkey, htake, rfl⟩ |
        ⟨hnone, c', htake, rfl⟩
      · exact .inl ⟨cell :: before, c, after, c', by rw [hsplit]; rfl, hkey, htake, rfl⟩
      · refine .inr ⟨?_, c', htake, rfl⟩
        rw [List.map_cons, List.mem_cons]
        rintro (h' | h')
        · exact e h'.symm
        · exact hnone h'

/-- **A row keeps the tally.** -/
theorem tallied_tally (hfresh : ∀ k, key (fresh k) = k ∧ R (fresh k) [])
    (htake : ∀ cell cell' rows, R cell rows → take cell r = .ok cell' → key cell' = key cell ∧
      R cell' (rows ++ [r]))
    (h : Tallied key keyOf R cells rows) (hrun : tally key fresh take (keyOf r) r cells = .ok cells') :
    Tallied key keyOf R cells' (rows ++ [r]) := by
  have hfilter : ∀ k, (rows ++ [r]).filter (fun x => keyOf x = k) =
      rows.filter (fun x => keyOf x = k) ++ if keyOf r = k then [r] else [] := by
    intro k
    rw [List.filter_append]
    by_cases e : keyOf r = k
    · rw [if_pos e, List.filter_cons_of_pos (by rw [e]; exact decide_eq_true rfl), List.filter_nil]
    · rw [if_neg e, List.filter_cons_of_neg (by rwa [decide_eq_true_eq]), List.filter_nil]
  have hkeys : ∀ k, (∃ x ∈ rows ++ [r], keyOf x = k) ↔ k ∈ cells.map key ∨ k = keyOf r := by
    intro k
    rw [h.keys k]
    constructor
    · rintro ⟨x, hx, rfl⟩
      rcases List.mem_append.mp hx with hx | hx
      · exact .inl ⟨x, hx, rfl⟩
      · rw [List.mem_singleton.mp hx]
        exact .inr rfl
    · rintro (⟨x, hx, e⟩ | e)
      · exact ⟨x, List.mem_append_left _ hx, e⟩
      · exact ⟨r, List.mem_append_right _ (List.mem_singleton_self r), e.symm⟩
  -- a cell with another key takes nothing
  have hother : ∀ cell ∈ cells, key cell ≠ keyOf r →
    R cell ((rows ++ [r]).filter fun x => keyOf x = key cell) := by
    intro cell hcell hne
    rw [hfilter, if_neg (Ne.symm hne), List.append_nil]
    exact h.holds cell hcell
  rcases tally_cases hrun with ⟨before, cell, after, cell', rfl, hkey, htook, rfl⟩ |
    ⟨hnone, cell', htook, rfl⟩
  · have hcell := h.holds cell (List.mem_append_right before List.mem_cons_self)
    obtain ⟨hkey', hR⟩ := htake cell cell' _ hcell htook
    have hmap : (before ++ cell' :: after).map key = (before ++ cell :: after).map key := by
      rw [List.map_append, List.map_append, List.map_cons, List.map_cons, hkey']
    refine ⟨hmap ▸ h.nodup, fun k => ?_, fun c hc => ?_⟩
    · rw [hmap, hkeys]
      refine ⟨Or.inl, fun hk => hk.elim id ?_⟩
      rintro rfl
      rw [← hkey]
      exact List.mem_map_of_mem (List.mem_append_right before List.mem_cons_self)
    · have hc' : c = cell' ∨ (c ∈ before ++ cell :: after ∧ c ∈ before ++ after) := by
        rcases List.mem_append.mp hc with hc | hc
        · exact .inr ⟨List.mem_append_left _ hc, List.mem_append_left _ hc⟩
        · rcases List.mem_cons.mp hc with hc | hc
          · exact .inl hc
          · exact .inr ⟨List.mem_append_right _ (List.mem_cons_of_mem _ hc), List.mem_append_right _ hc⟩
      rcases hc' with rfl | ⟨hmem, hrest⟩
      · rw [hkey', hkey, hfilter, if_pos rfl, ← hkey]
        exact hR
      · refine hother c hmem fun e => ?_
        have hnodup := h.nodup
        rw [List.map_append, List.map_cons, List.nodup_middle, ← List.map_append] at hnodup
        refine (List.nodup_cons.mp hnodup).1 ?_
        rw [hkey, ← e]
        exact List.mem_map_of_mem hrest
  · obtain ⟨hkeyf, hRf⟩ := hfresh (keyOf r)
    obtain ⟨hkey', hR⟩ := htake (fresh (keyOf r)) cell' [] hRf htook
    rw [hkeyf] at hkey'
    refine ⟨?_, fun k => ?_, fun c hc => ?_⟩
    · rw [List.map_append, List.nodup_append]
      refine ⟨h.nodup, List.nodup_singleton _, fun a ha b hb e => hnone ?_⟩
      rw [← hkey', ← List.mem_singleton.mp hb, ← e]
      exact ha
    · rw [hkeys, List.map_append, List.mem_append]
      refine or_congr Iff.rfl ?_
      rw [List.map_singleton, hkey', List.mem_singleton]
    · rcases List.mem_append.mp hc with hc | hc
      · refine hother c hc fun e => hnone ?_
        rw [← e]
        exact List.mem_map_of_mem hc
      · rw [List.mem_singleton.mp hc, hkey', hfilter, if_pos rfl]
        have hempty : rows.filter (fun x => keyOf x = keyOf r) = [] := by
          rw [List.filter_eq_nil_iff]
          intro x hx e
          exact hnone ((h.keys _).mpr ⟨x, hx, of_decide_eq_true e⟩)
        rw [hempty]
        exact hR

/-- **A row that throws** does so in the cell of its key. -/
theorem tally_error (hfresh : ∀ k, R (fresh k) []) (h : Tallied key keyOf R cells rows) {e : ε}
    (hrun : tally key fresh take (keyOf r) r cells = .error e) :
    ∃ cell, R cell (rows.filter fun x => keyOf x = keyOf r) ∧ take cell r = .error e := by
  have hcases : ∀ cells : List β, tally key fresh take (keyOf r) r cells = .error e →
      (∃ cell ∈ cells, key cell = keyOf r ∧ take cell r = .error e) ∨
        (keyOf r ∉ cells.map key ∧ take (fresh (keyOf r)) r = .error e) := by
    intro cells
    induction cells with
    | nil => exact fun hrun => .inr ⟨List.not_mem_nil, map_error.mp hrun⟩
    | cons cell cells ih =>
      intro hrun
      unfold tally at hrun
      by_cases hkey : key cell = keyOf r
      · rw [if_pos hkey] at hrun
        exact .inl ⟨cell, List.mem_cons_self, hkey, map_error.mp hrun⟩
      · rw [if_neg hkey] at hrun
        rcases ih (map_error.mp hrun) with ⟨c, hc, hckey, htook⟩ | ⟨hnone, htook⟩
        · exact .inl ⟨c, List.mem_cons_of_mem _ hc, hckey, htook⟩
        · refine .inr ⟨?_, htook⟩
          rw [List.map_cons, List.mem_cons]
          rintro (h' | h')
          · exact hkey h'.symm
          · exact hnone h'
  rcases hcases cells hrun with ⟨cell, hcell, hkey, htook⟩ | ⟨hnone, htook⟩
  · refine ⟨cell, ?_, htook⟩
    rw [← hkey]
    exact h.holds cell hcell
  · refine ⟨fresh (keyOf r), ?_, htook⟩
    have hempty : rows.filter (fun x => keyOf x = keyOf r) = [] := by
      rw [List.filter_eq_nil_iff]
      intro x hx e
      exact hnone ((h.keys _).mpr ⟨x, hx, of_decide_eq_true e⟩)
    rw [hempty]
    exact hfresh _

end Tally
