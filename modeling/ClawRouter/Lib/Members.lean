/-
  Subject:   What is looked up in the members of an object that is built up, and the latest of values.

  * `latest`: the last value there is.
-/
import ClawRouter.Lib.Value

namespace Js

open Utf16

/-! ## 1. Lookups -/

def Distinct (members : Members) : Prop := (members.map Prod.fst).Nodup

variable {name q : Text} {members : Members}

theorem lookup_cons {value : Value} :
    List.lookup q ((name, value) :: members) = if q = name then some value else members.lookup q := by
  rw [List.lookup_cons]
  by_cases h : q = name
  · rw [if_pos h, beq_iff_eq.mpr h]
  · rw [if_neg h, beq_false_of_ne h]

theorem lookup_eq_none (h : q ∉ members.map Prod.fst) : members.lookup q = none := by
  induction members with
  | nil => rfl
  | cons m members ih =>
    rw [List.map_cons, List.mem_cons, not_or] at h
    obtain ⟨name, value⟩ := m
    rw [lookup_cons, if_neg h.1, ih h.2]

theorem lookup_append {xs ys : Members} : (xs ++ ys).lookup q = (xs.lookup q).or (ys.lookup q) := by
  induction xs with
  | nil => rfl
  | cons m xs ih =>
    obtain ⟨name, value⟩ := m
    rw [List.cons_append, lookup_cons, lookup_cons, ih]
    split <;> rfl

theorem lookup_map_set {value : Value} (q : Text) :
    (members.map fun m => if m.1 == name then (name, value) else m).lookup q =
      if q = name then (members.lookup q).map fun _ => value else members.lookup q := by
  induction members with
  | nil => exact (ite_self _).symm
  | cons m members ih =>
    obtain ⟨key, held⟩ := m
    rw [List.map_cons]
    by_cases hkey : key = name
    · subst hkey
      rw [if_pos (beq_self_eq_true key), lookup_cons, lookup_cons, ih]
      by_cases hq : q = key
      · rw [if_pos hq, if_pos hq, if_pos hq]
        rfl
      · rw [if_neg hq, if_neg hq, if_neg hq, if_neg hq]
    · rw [if_neg (by rw [beq_iff_eq]; exact hkey), lookup_cons, lookup_cons, ih]
      by_cases hq : q = key
      · rw [if_pos hq, if_pos hq, if_neg fun h => hkey (hq.symm.trans h)]
      · rw [if_neg hq, if_neg hq]

theorem any_key : members.any (·.1 == name) = (members.lookup name).isSome := by
  induction members with
  | nil => rfl
  | cons m members ih =>
    obtain ⟨key, held⟩ := m
    rw [List.any_cons, lookup_cons, ih]
    by_cases hkey : name = key
    · subst hkey
      rw [if_pos rfl, beq_self_eq_true]
      rfl
    · rw [if_neg hkey, beq_false_of_ne fun h => hkey h.symm]
      rfl

theorem lookup_set (members : Members) (name : Text) (value : Value) (q : Text) :
    (set members name value).lookup q = if q = name then some value else members.lookup q := by
  unfold set
  split
  · rename_i hany
    rw [lookup_map_set]
    by_cases hq : q = name
    · subst hq
      rw [if_pos rfl, if_pos rfl]
      rw [any_key] at hany
      obtain ⟨held, hheld⟩ := Option.isSome_iff_exists.mp hany
      rw [hheld]
      rfl
    · rw [if_neg hq, if_neg hq]
  · rename_i hany
    rw [lookup_append, lookup_cons]
    by_cases hq : q = name
    · subst hq
      rw [any_key] at hany
      rw [if_pos rfl, if_pos rfl, Option.not_isSome_iff_eq_none.mp hany]
      rfl
    · rw [if_neg hq, if_neg hq]
      exact Option.or_none

theorem set_again (members : Members) (name : Text) (first second : Value) :
    set (set members name first) name second = set members name second := by
  unfold set
  by_cases h : members.any (·.1 == name) = true
  · have hagain : (members.map fun m => if m.1 == name then (name, first) else m).any
      (·.1 == name) = true := by
      obtain ⟨m, hm, hkey⟩ := List.any_eq_true.mp h
      refine List.any_eq_true.mpr ⟨_, List.mem_map_of_mem hm, ?_⟩
      rw [if_pos hkey]
      exact beq_self_eq_true name
    rw [if_pos h, if_pos hagain, if_pos h, List.map_map]
    refine List.map_congr_left fun m _ => ?_
    dsimp only [Function.comp_apply]
    split
    · rw [if_pos (beq_self_eq_true name)]
    · rfl
  · have hagain : (members ++ [(name, first)]).any (·.1 == name) = true := by
      rw [List.any_append, List.any_cons, beq_self_eq_true, Bool.true_or, Bool.or_true]
    have hsame : (members.map fun m => if m.1 == name then (name, second) else m) = members := by
      refine (List.map_congr_left fun m hm => ?_).trans (List.map_id members)
      rw [if_neg fun hkey => h (List.any_eq_true.mpr ⟨m, hm, hkey⟩)]
      rfl
    rw [if_neg h, if_pos hagain, if_neg h, List.map_append, hsame, List.map_cons, List.map_nil,
      if_pos (beq_self_eq_true name)]

theorem keys_set (members : Members) (name : Text) (value : Value) : (set members name value).map Prod.fst =
      if members.any (·.1 == name) then members.map Prod.fst else members.map Prod.fst ++ [name] := by
  unfold set
  split
  · rw [List.map_map]
    refine List.map_congr_left fun m _ => ?_
    show (if m.1 == name then (name, value) else m).1 = m.1
    split
    · rename_i h
      exact (beq_iff_eq.mp h).symm
    · rfl
  · rw [List.map_append]
    rfl

theorem Distinct.set (h : Distinct members) (name : Text) (value : Value) :
    Distinct (Js.set members name value) := by
  unfold Distinct
  rw [keys_set]
  split
  · exact h
  · rename_i hany
    refine List.nodup_append.mpr ⟨h, List.nodup_singleton name, ?_⟩
    intro x hx y hy hxy
    obtain rfl := List.mem_singleton.mp hy
    subst hxy
    obtain ⟨m, hm, rfl⟩ := List.mem_map.mp hx
    exact hany (List.any_eq_true.mpr ⟨m, hm, beq_self_eq_true m.1⟩)

theorem Distinct.filter (h : Distinct members) (p : Text × Value → Bool) : Distinct (members.filter p) :=
  List.Nodup.sublist (List.Sublist.map Prod.fst (List.filter_sublist)) h

theorem lookup_filter (h : Distinct members) (p : Text × Value → Bool) (q : Text) :
    (members.filter p).lookup q = (members.lookup q).filter fun value => p (q, value) := by
  induction members with
  | nil => rfl
  | cons m members ih =>
    obtain ⟨name, value⟩ := m
    obtain ⟨hnew, hrest⟩ := List.nodup_cons.mp h
    rw [lookup_cons, List.filter_cons]
    by_cases hq : q = name
    · subst hq
      rw [if_pos rfl, Option.filter_some]
      split
      · rw [lookup_cons, if_pos rfl]
      · rw [ih hrest, lookup_eq_none hnew]
        rfl
    · rw [if_neg hq, ← ih hrest]
      split
      · rw [lookup_cons, if_neg hq]
      · rfl

theorem lookup_assign {updates : Members} (h : Distinct updates) (members : Members) (q : Text) :
    (assign members updates).lookup q = (updates.lookup q).or (members.lookup q) := by
  unfold assign
  induction updates generalizing members with
  | nil => rfl
  | cons m updates ih =>
    obtain ⟨name, value⟩ := m
    obtain ⟨hnew, hrest⟩ := List.nodup_cons.mp h
    rw [List.foldl_cons, ih hrest, lookup_set, lookup_cons]
    by_cases hq : q = name
    · subst hq
      rw [if_pos rfl, if_pos rfl, lookup_eq_none hnew]
      rfl
    · rw [if_neg hq, if_neg hq]

/-! ## 2. Objects from names -/

/-- The members a function has under some names. -/
def pick (names : List Text) (f : Text → Option Value) : Members :=
  names.filterMap fun name => (f name).map fun value => (name, value)

theorem lookup_pick (names : List Text) (f : Text → Option Value) (q : Text) :
    (pick names f).lookup q = if q ∈ names then f q else none := by
  induction names with
  | nil => rfl
  | cons name names ih =>
    cases hf : f name with
    | none =>
      have hcons : pick (name :: names) f = pick names f := List.filterMap_cons_none (by rw [hf]; rfl)
      rw [hcons, ih]
      by_cases hq : q = name
      · subst hq
        rw [hf, ite_self, ite_self]
      · simp only [List.mem_cons, hq, false_or]
    | some value =>
      have hcons : pick (name :: names) f = (name, value) :: pick names f :=
        List.filterMap_cons_some (by rw [hf]; rfl)
      rw [hcons, lookup_cons, ih]
      by_cases hq : q = name
      · subst hq
        rw [if_pos rfl, if_pos List.mem_cons_self, hf]
      · simp only [List.mem_cons, hq, false_or, if_false]

theorem distinct_pick {names : List Text} (h : names.Nodup) (f : Text → Option Value) :
    Distinct (pick names f) := by
  have hsub : ∀ names : List Text, ((pick names f).map Prod.fst).Sublist names := by
    intro names
    induction names with
    | nil => exact .slnil
    | cons name names ih =>
      unfold pick
      rw [List.filterMap_cons]
      cases f name with
      | none => exact ih.cons name
      | some value => exact ih.cons_cons name
  exact h.sublist (hsub names)

/-! ## 3. The latest value -/

def latest {α : Type} (values : List (Option α)) : Option α :=
  values.foldl (fun found value => value.or found) none

theorem latest_snoc {α : Type} (values : List (Option α)) (value : Option α) :
    latest (values ++ [value]) = value.or (latest values) := by
  unfold latest
  rw [List.foldl_append]
  rfl

theorem latest_none {α : Type} {values : List (Option α)} (h : ∀ value ∈ values, value = none) :
    latest values = none := by
  unfold latest
  induction values with
  | nil => rfl
  | cons value values ih =>
    rw [List.foldl_cons, h value List.mem_cons_self]
    exact ih fun value hvalue => h value (List.mem_cons_of_mem _ hvalue)

theorem latest_singleton {α : Type} (value : Option α) : latest [value] = value := Option.or_none

end Js
