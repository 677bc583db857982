/-
  Subject:   The newest entry under each key: a map that keeps an entry until one that is no older
             arrives under its key.

  * `newest_perm`: where no two entries of a key are of one time, their order does not matter.
-/
import Mathlib.Data.List.Nodup
import Mathlib.Order.Lattice
import Mathlib.Data.List.Perm.Basic

namespace Newest

universe u v w

variable {α : Type u} {κ : Type v} {τ : Type w} [DecidableEq κ] [LinearOrder τ]

section Later

variable (time : α → τ)

def later : Option α → Option α → Option α
  | none, r => r
  | l, none => l
  | some a, some b => if time a ≤ time b then some b else some a

@[simp] theorem later_none_left (r : Option α) : later time none r = r := rfl

@[simp] theorem later_none_right (l : Option α) : later time l none = l := by
  cases l <;> rfl

theorem later_some (a b : α) : later time (some a) (some b) = if time a ≤ time b then some b else some a := rfl

theorem later_assoc (a b c : Option α) : later time (later time a b) c = later time a (later time b c) := by
  cases a with
  | none => rfl
  | some a =>
    cases b with
    | none => rfl
    | some b =>
      cases c with
      | none => rw [later_none_right, later_none_right]
      | some c =>
        rw [later_some, later_some]
        by_cases hab : time a ≤ time b
        · rw [if_pos hab, later_some]
          by_cases hbc : time b ≤ time c
          · rw [if_pos hbc, later_some, if_pos (le_trans hab hbc)]
          · rw [if_neg hbc, later_some, if_pos hab]
        · rw [if_neg hab, later_some]
          by_cases hbc : time b ≤ time c
          · rw [if_pos hbc, later_some]
          · have hac : ¬ time a ≤ time c := fun h =>
              hab (le_trans h (le_of_lt (not_le.mp hbc)))
            rw [if_neg hbc, if_neg hac, later_some, if_neg hab]

end Later

section Entries

variable (key : α → κ) (time : α → τ)

def newest (entries : List α) (k : κ) : Option α :=
  entries.foldl (fun found e => if key e = k then later time found (some e) else found) none

theorem newest_foldl (entries : List α) (k : κ) (found : Option α) :
    entries.foldl (fun found e => if key e = k then later time found (some e) else found) found =
      later time found (newest key time entries k) := by
  unfold newest
  induction entries generalizing found with
  | nil => exact (later_none_right time found).symm
  | cons e rest ih =>
    rw [List.foldl_cons, List.foldl_cons, ih]
    by_cases h : key e = k
    · rw [if_pos h, if_pos h, ih (later time none (some e)), later_assoc]
      rfl
    · rw [if_neg h, if_neg h]

theorem newest_append (l l' : List α) (k : κ) :
    newest key time (l ++ l') k = later time (newest key time l k) (newest key time l' k) := by
  show (l ++ l').foldl _ none = _
  rw [List.foldl_append]
  exact newest_foldl key time l' k _

theorem newest_cons (e : α) (l : List α) (k : κ) : newest key time (e :: l) k =
      if key e = k then later time (some e) (newest key time l k) else newest key time l k := by
  show (e :: l).foldl _ none = _
  rw [List.foldl_cons, newest_foldl]
  split
  · rfl
  · rfl

theorem newest_eq_none {l : List α} {k : κ} (h : newest key time l k = none) : ∀ e ∈ l, key e ≠ k := by
  induction l with
  | nil => exact fun e he => by cases he
  | cons a l ih =>
    rw [newest_cons] at h
    split at h
    · cases hl : newest key time l k with
      | none => rw [hl] at h; cases h
      | some b =>
        rw [hl, later_some] at h
        split at h
        · cases h
        · cases h
    · rename_i ha
      intro e he
      rcases List.mem_cons.mp he with rfl | hm
      · exact ha
      · exact ih h e hm

theorem newest_some {l : List α} {k : κ} {e : α} (h : newest key time l k = some e) :
    e ∈ l ∧ key e = k ∧ ∀ e' ∈ l, key e' = k → time e' ≤ time e := by
  induction l generalizing e with
  | nil => cases h
  | cons a l ih =>
    rw [newest_cons] at h
    split at h
    · rename_i ha
      cases hl : newest key time l k with
      | none =>
        rw [hl, later_none_right] at h
        cases h
        refine ⟨List.mem_cons_self, ha, fun e' he' hk => ?_⟩
        rcases List.mem_cons.mp he' with rfl | hm
        · exact le_refl _
        · exact absurd hk (newest_eq_none key time hl e' hm)
      | some b =>
        obtain ⟨hmem, hkey, hmax⟩ := ih hl
        rw [hl, later_some] at h
        split at h
        · rename_i hab
          cases h
          refine ⟨List.mem_cons_of_mem _ hmem, hkey, fun e' he' hk => ?_⟩
          rcases List.mem_cons.mp he' with rfl | hm
          · exact hab
          · exact hmax e' hm hk
        · rename_i hab
          cases h
          refine ⟨List.mem_cons_self, ha, fun e' he' hk => ?_⟩
          rcases List.mem_cons.mp he' with rfl | hm
          · exact le_refl _
          · exact le_trans (hmax e' hm hk) (le_of_lt (not_le.mp hab))
    · rename_i ha
      obtain ⟨hmem, hkey, hmax⟩ := ih h
      refine ⟨List.mem_cons_of_mem _ hmem, hkey, fun e' he' hk => ?_⟩
      rcases List.mem_cons.mp he' with rfl | hm
      · exact absurd hk ha
      · exact hmax e' hm hk

/-- Entries of one key that are of one time are one entry. -/
def Distinct (l : List α) : Prop := ∀ e ∈ l, ∀ e' ∈ l, key e = key e' → time e = time e' → e = e'

theorem newest_eq_some {l : List α} (hl : Distinct key time l) {k : κ} {e : α} (hmem : e ∈ l)
    (hkey : key e = k) (hmax : ∀ e' ∈ l, key e' = k → time e' ≤ time e) : newest key time l k = some e := by
  cases h : newest key time l k with
  | none => exact absurd hkey (newest_eq_none key time h e hmem)
  | some b =>
    obtain ⟨hb, hbk, hbmax⟩ := newest_some key time h
    have htime : time b = time e := le_antisymm (hmax b hb hbk) (hbmax e hmem hkey)
    rw [hl b hb e hmem (hbk.trans hkey.symm) htime]

/-- **The newest entry is the same in every order**, if no two of a key are of one time. -/
theorem newest_perm {l l' : List α} (h : l.Perm l') (hl : Distinct key time l) (k : κ) :
    newest key time l k = newest key time l' k := by
  cases hn : newest key time l' k with
  | none =>
    cases ho : newest key time l k with
    | none => rfl
    | some e =>
      obtain ⟨hmem, hkey, -⟩ := newest_some key time ho
      exact absurd hkey (newest_eq_none key time hn e (h.mem_iff.mp hmem))
  | some e =>
    obtain ⟨hmem, hkey, hmax⟩ := newest_some key time hn
    exact newest_eq_some key time hl (h.mem_iff.mpr hmem) hkey fun e' he' => hmax e' (h.mem_iff.mp he')

/-! ## Maps -/

def record (map : List α) (entry : α) : List α :=
  match map.find? fun e => key e = key entry with
  | none => map ++ [entry]
  | some retained =>
    if time retained ≤ time entry then map.map fun e => if key e = key entry then entry else e
    else map

def collect (entries : List α) : List α := entries.foldl (record key time) []

variable {key time}

theorem record_none {map : List α} {entry : α} (h : (map.find? fun e => key e = key entry) = none) :
    record key time map entry = map ++ [entry] := by
  unfold record
  rw [h]

theorem record_some {map : List α} {entry retained : α}
    (h : (map.find? fun e => key e = key entry) = some retained) :
    record key time map entry =
      if time retained ≤ time entry then map.map fun e => if key e = key entry then entry else e else map := by
  unfold record
  rw [h]

omit [LinearOrder τ] in
theorem key_replace (entry e : α) : key (if key e = key entry then entry else e) = key e := by
  split
  · rename_i h
    exact h.symm
  · rfl

omit [LinearOrder τ] in
theorem find_replace (map : List α) (entry : α) (k : κ) :
    ((map.map fun e => if key e = key entry then entry else e).find? fun e => key e = k) =
      (map.find? fun e => key e = k).map fun e => if key e = key entry then entry else e := by
  have hp : ((fun e => decide (key e = k)) ∘ fun e => if key e = key entry then entry else e) =
      fun e => decide (key e = k) := by
    funext e
    exact congrArg (fun x => decide (x = k)) (key_replace entry e)
  rw [List.find?_map, hp]

theorem nodup_record {map : List α} {entry : α} (h : (map.map key).Nodup) :
    ((record key time map entry).map key).Nodup := by
  cases hfind : map.find? fun e => key e = key entry with
  | none =>
    rw [record_none hfind, List.map_append, List.nodup_append]
    refine ⟨h, List.nodup_singleton _, ?_⟩
    intro a ha b hb e
    obtain ⟨x, hx, rfl⟩ := List.mem_map.mp ha
    rw [List.map_singleton, List.mem_singleton] at hb
    exact absurd (e.trans hb) (by simpa using List.find?_eq_none.mp hfind x hx)
  | some retained =>
    rw [record_some hfind]
    split
    · have e : (map.map fun e => if key e = key entry then entry else e).map key = map.map key := by
        rw [List.map_map]
        exact List.map_congr_left fun x _ => key_replace entry x
      rw [e]
      exact h
    · exact h

theorem find_record {map : List α} {entry : α} (k : κ) :
    ((record key time map entry).find? fun e => key e = k) =
      if key entry = k then later time (map.find? fun e => key e = k) (some entry)
      else map.find? fun e => key e = k := by
  cases hfind : map.find? fun e => key e = key entry with
  | none =>
    rw [record_none hfind, List.find?_append]
    by_cases hk : key entry = k
    · subst hk
      rw [hfind, if_pos rfl]
      simp
    · rw [if_neg hk]
      simp [hk]
  | some retained =>
    have hretained : key retained = key entry := by simpa using List.find?_some hfind
    rw [record_some hfind]
    by_cases hk : key entry = k
    · subst hk
      rw [hfind, if_pos rfl, later_some]
      split
      · rw [find_replace, hfind, Option.map_some, if_pos hretained]
      · exact hfind
    · rw [if_neg hk]
      split
      · rw [find_replace]
        cases hk' : map.find? fun e => key e = k with
        | none => rfl
        | some e =>
          have he : key e = k := by simpa using List.find?_some hk'
          rw [Option.map_some, if_neg fun h => hk (h.symm.trans he)]
      · rfl

theorem collect_foldl (entries map : List α) (h : (map.map key).Nodup) :
    ((entries.foldl (record key time) map).map key).Nodup ∧
      ∀ k, ((entries.foldl (record key time) map).find? fun e => key e = k) =
        later time (map.find? fun e => key e = k) (newest key time entries k) := by
  induction entries generalizing map with
  | nil => exact ⟨h, fun k => (later_none_right time _).symm⟩
  | cons e rest ih =>
    obtain ⟨hnodup, hfind⟩ := ih (record key time map e) (nodup_record h)
    refine ⟨hnodup, fun k => ?_⟩
    rw [List.foldl_cons, hfind k, find_record, newest_cons]
    split
    · exact later_assoc time _ _ _
    · rfl

theorem nodup_collect (entries : List α) : ((collect key time entries).map key).Nodup :=
  (collect_foldl entries [] List.nodup_nil).1

theorem find_collect (entries : List α) (k : κ) :
    ((collect key time entries).find? fun e => key e = k) = newest key time entries k :=
  (collect_foldl entries [] List.nodup_nil).2 k

theorem newest_of_nodup {map : List α} (h : (map.map key).Nodup) (k : κ) :
    newest key time map k = map.find? fun e => key e = k := by
  induction map with
  | nil => rfl
  | cons e rest ih =>
    rw [List.map_cons, List.nodup_cons] at h
    rw [newest_cons]
    by_cases hk : key e = k
    · have hnone : newest key time rest k = none := by
        rw [ih h.2]
        refine List.find?_eq_none.mpr fun x hx => ?_
        have hne : key x ≠ k := fun e' => h.1 (List.mem_map.mpr ⟨x, hx, e'.trans hk.symm⟩)
        simpa using hne
      rw [if_pos hk, hnone, later_none_right]
      simp [hk]
    · rw [if_neg hk, ih h.2]
      simp [hk]

theorem mem_collect {entries : List α} {e : α} :
    e ∈ collect key time entries ↔ newest key time entries (key e) = some e := by
  rw [← find_collect]
  constructor
  · intro h
    cases hfind : (collect key time entries).find? fun x => key x = key e with
    | none =>
      have hne : key e ≠ key e := by simpa using List.find?_eq_none.mp hfind e h
      exact absurd rfl hne
    | some x =>
      have hx : key x = key e := by simpa using List.find?_some hfind
      rw [List.inj_on_of_nodup_map (nodup_collect entries) (List.mem_of_find?_eq_some hfind) h hx]
  · exact fun h => List.mem_of_find?_eq_some h

theorem collect_eq_nil {entries : List α} (h : collect key time entries = []) : entries = [] := by
  refine List.eq_nil_iff_forall_not_mem.mpr fun e he => ?_
  have hnone : newest key time entries (key e) = none := by
    rw [← find_collect, h]
    rfl
  exact newest_eq_none key time hnone e he rfl

theorem newest_filter {map : List α} (h : (map.map key).Nodup) (p : α → Bool) (k : κ) :
    newest key time (map.filter p) k = (newest key time map k).filter p := by
  rw [newest_of_nodup (h.sublist (List.filter_sublist.map key)), newest_of_nodup h]
  induction map with
  | nil => rfl
  | cons e rest ih =>
    rw [List.map_cons, List.nodup_cons] at h
    have hih := ih h.2
    by_cases hk : key e = k
    · have hnone : (rest.find? fun e => key e = k) = none := by
        refine List.find?_eq_none.mpr fun x hx => ?_
        have hne : key x ≠ k := fun e' => h.1 (List.mem_map.mpr ⟨x, hx, e'.trans hk.symm⟩)
        simpa using hne
      cases hp : p e with
      | true =>
        rw [List.filter_cons_of_pos hp]
        simp [hk, Option.filter, hp]
      | false =>
        rw [List.filter_cons_of_neg (by simp [hp]), hih, hnone]
        simp [hk, Option.filter, hp]
    · cases hp : p e with
      | true =>
        rw [List.filter_cons_of_pos hp]
        simpa [hk] using hih
      | false =>
        rw [List.filter_cons_of_neg (by simp [hp]), hih]
        simp [hk]

end Entries

end Newest
