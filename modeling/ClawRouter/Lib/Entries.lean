/-
  Subject:   Maps as lists of entries in the order of insertion, as those of JavaScript are.

  * `lookup_of_mem`: of keys that are all different each is found.
-/
import Mathlib.Data.List.Basic

namespace Entries

universe u v

variable {κ : Type u} {α : Type v} [BEq κ] [LawfulBEq κ]

theorem lookup_isSome (entries : List (κ × α)) (key : κ) :
    (entries.any (·.1 == key)) = (entries.lookup key).isSome := by
  induction entries with
  | nil => rfl
  | cons entry rest ih =>
    rw [List.any_cons, List.lookup_cons, ih, BEq.comm]
    cases key == entry.1 <;> rfl

theorem mem_of_lookup {entries : List (κ × α)} {key : κ} {value : α} (h : entries.lookup key = some value) :
    (key, value) ∈ entries := by
  induction entries with
  | nil => cases h
  | cons entry rest ih =>
    rw [List.lookup_cons] at h
    cases hkey : key == entry.1 with
    | true =>
      rw [hkey] at h
      cases h
      rw [eq_of_beq hkey]
      exact List.mem_cons_self
    | false =>
      rw [hkey] at h
      exact List.mem_cons_of_mem _ (ih h)

/-- An entry is the one of its key, where those of a key are alike. -/
theorem lookup_of_mem {entries : List (κ × α)}
    (h : ∀ e ∈ entries, ∀ e' ∈ entries, e.1 = e'.1 → e.2 = e'.2) {e : κ × α} (he : e ∈ entries) :
    entries.lookup e.1 = some e.2 := by
  have hsome : (entries.lookup e.1).isSome = true := by
    rw [← lookup_isSome]
    exact List.any_eq_true.mpr ⟨e, he, beq_self_eq_true _⟩
  obtain ⟨value, hvalue⟩ := Option.isSome_iff_exists.mp hsome
  exact hvalue.trans (congrArg some (h _ (mem_of_lookup hvalue) e he rfl))

theorem eraseDups_nodup (keys : List κ) : keys.eraseDups.Nodup := by
  induction hn : keys.length using Nat.strongRecOn generalizing keys with
  | _ n ih =>
    cases keys with
    | nil => exact List.nodup_nil
    | cons key rest =>
      rw [List.eraseDups_cons, List.nodup_cons]
      refine ⟨fun h => ?_, ih _ (hn ▸ Nat.lt_succ_of_le (List.length_filter_le _ _)) _ rfl⟩
      have hmem := (List.mem_filter.mp (List.mem_eraseDups.mp h)).2
      simp at hmem

variable [DecidableEq κ]

theorem lookup_filter_ne (entries : List (κ × α)) (key other : κ) :
    (entries.filter (·.1 ≠ key)).lookup other = if other = key then none else entries.lookup other := by
  induction entries with
  | nil => split <;> rfl
  | cons entry rest ih =>
    by_cases hkey : entry.1 = key
    · rw [List.filter_cons_of_neg (by simp [hkey]), ih, List.lookup_cons]
      by_cases hother : other = key
      · rw [if_pos hother, if_pos hother]
      · rw [if_neg hother, if_neg hother, beq_eq_false_iff_ne.mpr fun e => hother (e.trans hkey)]
    · rw [List.filter_cons_of_pos (by simp [hkey]), List.lookup_cons, List.lookup_cons, ih]
      cases hsame : other == entry.1 with
      | true =>
        have hother : other ≠ key := fun e => hkey ((eq_of_beq hsame).symm.trans e)
        rw [if_neg hother, if_neg hother]
      | false => rfl

end Entries
